import DistributedChat.Server.Views

/-!
# The sockets of peers

What the sections of a server's programs do to the sockets and to the links of
peers, and what follows for sessions.  The sockets of peers, and those that are
about to become one, are no session's, and no session gets them back (`Apart`).
-/

namespace DistributedChat

open ChatServer

/-- The packet is a handshake that names the peer. -/
def RawPacket.Names (p : Int) (pkt : RawPacket) : Prop :=
  pkt.type = .s2sConnect ∧ stoi pkt.payload = some p

instance (p : Int) (pkt : RawPacket) : Decidable (pkt.Names p) :=
  inferInstanceAs (Decidable (_ ∧ _))

theorem RawPacket.Names.unique {p q : Int} {pkt : RawPacket} (hp : pkt.Names p)
    (hq : pkt.Names q) : q = p :=
  Option.some.inj (hq.2.symm.trans hp.2)

/-- The program has found the peer connected and has still to unregister its socket. -/
def Stage.Past (p : Int) : Stage → Prop
  | found q | closing q _ | shut q => q = p
  | whole | aimed _ | cut _ | wiped _ => False

namespace View

variable {n : Nat}

/-- The socket is no session's, and never will be. -/
def Spent (s : ChatServer) (k : ConnRef) : Prop :=
  ¬ s.connManager.Live k ∧ k < s.connManager.nextConn

/-- The sockets of peers are no sessions'. -/
structure Apart (v : View n) : Prop where
  ground : v.Grounded
  handle_eq : ∀ h k, v.server.connManager.sessionsBySocket.lookup h = some k →
    v.server.connManager.getHandle k = h
  linked : ∀ p k, (v.server.connManager.nodes p).socket = some k → Spent v.server k
  closing : ∀ t w m p k, v.doing t = some (w, ⟨m, .closing p k⟩) → Spent v.server k
  dialed : ∀ x p k g, v.workAt x = some (.connected p k, g) → Spent v.server k
  dropping : ∀ t k pkt h g, v.doing t = some (.task (.client k pkt), g) → g.point = .dropping h →
    v.server.connManager.Live k → v.server.connManager.getHandle k = h
  dropped : ∀ t k pkt g, v.doing t = some (.task (.client k pkt), g) →
    g.point = .dropped ∨ g.point = .promoted → Spent v.server k

section

variable {v v' : View n} {act : ThreadAction n} {t : Thread n} {w : Work} {g g' : Phase}
  {s s' : ChatServer} {out : List Effect} {k : ConnRef} {pkt : RawPacket} {h : SOCKET} {p : Int}

/-! ## What a section does to sockets -/

/-- No section files a session. -/
theorem lookup_step (hstep : Phase.Step w g s out s' g')
    (hk : s'.connManager.sessionsBySocket.lookup h = some k) :
    s.connManager.sessionsBySocket.lookup h = some k := by
  have hremove : ∀ {x : SOCKET},
      (s.connManager.removeSession x).sessionsBySocket.lookup h = some k →
        s.connManager.sessionsBySocket.lookup h = some k := by
    intro x hx
    rw [ConnectionManager.removeSession] at hx
    split at hx
    · exact hx
    · rw [Table.lookup_erase] at hx
      split at hx
      · cases hx
      · exact hx
  cases hstep with
  | touch ht =>
      cases ht with
      | register =>
          rw [onConn_connManager, ConnectionManager.sessionsBySocket_registerPeerSocket] at hk
          exact hk
      | _ => exact hk
  | cut =>
      rw [onConn_connManager, ConnectionManager.sessionsBySocket_unregisterPeerSocket] at hk
      exact hk
  | remove | drop => exact hremove hk
  | promote =>
      rw [onConn_connManager, ConnectionManager.sessionsBySocket_registerPeerSocket] at hk
      exact hk
  | apply ha => cases ha <;> exact hk
  | _ => exact hk

/-- Whatever was filed under a handle, nothing is after its removal. -/
theorem lookup_removeSession_self (m : ConnectionManager) (x : SOCKET) :
    (m.removeSession x).sessionsBySocket.lookup x = none := by
  rw [ConnectionManager.removeSession]
  split
  next hx => exact hx
  next => rw [Table.lookup_erase, if_pos rfl]

/-- A socket is closed in a `HandlePeerDisconnect` only. -/
theorem getHandle_step (hstep : Phase.Step w g s out s' g') (k : ConnRef) :
    s'.connManager.getHandle k = s.connManager.getHandle k ∨
      (∃ m p, g = ⟨m, .closing p k⟩) ∧ s'.connManager.getHandle k = invalidSocket := by
  have hsame : s'.connManager.sockets = s.connManager.sockets →
      s'.connManager.getHandle k = s.connManager.getHandle k := by
    intro he
    rw [ConnectionManager.getHandle, he]
    rfl
  cases hstep with
  | touch ht =>
      cases ht with
      | register => exact Or.inl (hsame (ConnectionManager.sockets_registerPeerSocket ..))
      | _ => exact Or.inl rfl
  | @close _ m _ p j =>
      rw [ConnectionManager.getHandle, onConn_connManager, ConnectionManager.sockets_closeSocket]
      split
      next hk =>
        subst hk
        exact Or.inr ⟨⟨m, p, rfl⟩, rfl⟩
      next => exact Or.inl rfl
  | cut => exact Or.inl (hsame (ConnectionManager.sockets_unregisterPeerSocket ..))
  | remove | drop => exact Or.inl (hsame (ConnectionManager.sockets_removeSession ..))
  | promote => exact Or.inl (hsame (ConnectionManager.sockets_registerPeerSocket ..))
  | apply ha => cases ha <;> exact Or.inl rfl
  | _ => exact Or.inl rfl

/-- What a section does to the link of a peer. -/
inductive Relinks (w : Work) (g : Phase) (s s' : ChatServer) (g' : Phase) (p : Int) : Prop where
  | same (hs : (s'.connManager.nodes p).socket = (s.connManager.nodes p).socket)
      (hc : (s'.connManager.nodes p).isConnected = (s.connManager.nodes p).isConnected)
  /-- The connector is at it. -/
  | dialed {j : ConnRef} (hw : w = .connected p j)
      (hs : (s'.connManager.nodes p).socket = some j ∨
        (s'.connManager.nodes p).socket = (s.connManager.nodes p).socket)
  /-- A handshake has registered its socket. -/
  | promoted {j : ConnRef} {pkt : RawPacket} (hw : w = .task (.client j pkt)) (hn : pkt.Names p)
      (hp : p ∈ s.connManager.peerNodes) (hg : g.point = .dropped) (hg' : g'.point = .promoted)
      (hs : (s'.connManager.nodes p).socket = some j)
  /-- A handshake that has registered its socket sets the peer connected. -/
  | confirmed {j : ConnRef} {pkt : RawPacket} (hw : w = .task (.client j pkt)) (hn : pkt.Names p)
      (hg : g.point = .promoted)
      (hs : (s'.connManager.nodes p).socket = (s.connManager.nodes p).socket)
      (hc : (s'.connManager.nodes p).isConnected = true)
  /-- A `HandlePeerDisconnect` unregisters the socket. -/
  | cut (hg : g.stage = .shut p) (hs : (s'.connManager.nodes p).socket = none)

theorem relinks_step (hstep : Phase.Step w g s out s' g') (p : Int) : Relinks w g s s' g' p := by
  have hbeat : ∀ {q : Int} {now : Nat}, s' = s.onConn (·.updateHeartbeat q now) →
      Relinks w g s s' g' p := by
    rintro q now rfl
    refine .same ?_ ?_
    · rw [onConn_connManager, ConnectionManager.socket_updateHeartbeat]
    · rw [onConn_connManager, ConnectionManager.isConnected_updateHeartbeat]
  cases hstep with
  | touch ht =>
      cases ht with
      | beat | connectedBeat => exact hbeat rfl
      | register q j =>
          by_cases hp : q ∈ s.connManager.peerNodes ∧ p = q
          · obtain ⟨hq, rfl⟩ := hp
            refine .dialed rfl (Or.inl ?_)
            rw [onConn_connManager, ConnectionManager.nodes_registerPeerSocket, if_pos ⟨hq, rfl⟩]
            rfl
          · have hnode : ((s.onConn (·.registerPeerSocket q j s.now)).connManager.nodes p) =
                s.connManager.nodes p := by
              rw [onConn_connManager, ConnectionManager.nodes_registerPeerSocket, if_neg hp]
            exact .same (by rw [hnode]) (by rw [hnode])
      | setConnected q j =>
          by_cases hp : p = q
          · subst hp
            refine .dialed rfl (Or.inr ?_)
            rw [onConn_connManager, ConnectionManager.nodes_setConnected, if_pos rfl]
          · have hnode : ((s.onConn (·.setConnected q true)).connManager.nodes p) =
                s.connManager.nodes p := by
              rw [onConn_connManager, ConnectionManager.nodes_setConnected, if_neg hp]
            exact .same (by rw [hnode]) (by rw [hnode])
      | _ => exact .same rfl rfl
  | @cut _ _ _ q =>
      by_cases hp : q ∈ s.connManager.peerNodes ∧ p = q
      · obtain ⟨hq, rfl⟩ := hp
        refine .cut rfl ?_
        rw [onConn_connManager, ConnectionManager.nodes_unregisterPeerSocket, if_pos ⟨hq, rfl⟩]
        rfl
      · have hnode : ((s.onConn (·.unregisterPeerSocket q s.now)).connManager.nodes p) =
            s.connManager.nodes p := by
          rw [onConn_connManager, ConnectionManager.nodes_unregisterPeerSocket, if_neg hp]
        exact .same (by rw [hnode]) (by rw [hnode])
  | remove | drop =>
      refine .same ?_ ?_
      · rw [onConn_connManager, ConnectionManager.nodes_removeSession]
      · rw [onConn_connManager, ConnectionManager.nodes_removeSession]
  | @promote j pkt q _ ht hq =>
      by_cases hp : q ∈ s.connManager.peerNodes ∧ p = q
      · obtain ⟨hmem, rfl⟩ := hp
        refine .promoted rfl ⟨ht, hq⟩ hmem rfl rfl ?_
        rw [onConn_connManager, ConnectionManager.nodes_registerPeerSocket, if_pos ⟨hmem, rfl⟩]
        rfl
      · have hnode : ((s.onConn (·.registerPeerSocket q j s.now)).connManager.nodes p) =
            s.connManager.nodes p := by
          rw [onConn_connManager, ConnectionManager.nodes_registerPeerSocket, if_neg hp]
        exact .same (by rw [hnode]) (by rw [hnode])
  | @setConnected j pkt q _ ht hq =>
      by_cases hp : p = q
      · subst hp
        refine .confirmed rfl ⟨ht, hq⟩ rfl ?_ ?_ <;>
          rw [onConn_connManager, ConnectionManager.nodes_setConnected, if_pos rfl]
      · have hnode : ((s.onConn (·.setConnected q true)).connManager.nodes p) =
            s.connManager.nodes p := by
          rw [onConn_connManager, ConnectionManager.nodes_setConnected, if_neg hp]
        exact .same (by rw [hnode]) (by rw [hnode])
  | promotedBeat => exact hbeat rfl
  | apply ha => cases ha <;> exact .same rfl rfl
  | _ => exact .same rfl rfl

/-- A socket becomes a peer's by the connector or by a handled handshake. -/
theorem socket_step (hstep : Phase.Step w g s out s' g')
    (hp : (s'.connManager.nodes p).socket = some k) :
    (s.connManager.nodes p).socket = some k ∨ w = .connected p k ∨
      p ∈ s.connManager.peerNodes ∧
        ∃ pkt, w = .task (.client k pkt) ∧ pkt.Names p ∧ g.point = .dropped := by
  cases relinks_step hstep p with
  | same hs | confirmed _ _ _ hs => exact Or.inl (hs ▸ hp)
  | dialed hw hs =>
      rcases hs with hs | hs
      · rw [hs] at hp
        cases hp
        exact Or.inr (Or.inl hw)
      · exact Or.inl (hs ▸ hp)
  | promoted hw hn hmem hg _ hs =>
      rw [hs] at hp
      cases hp
      exact Or.inr (Or.inr ⟨hmem, _, hw, hn, hg⟩)
  | cut _ hs =>
      rw [hs] at hp
      cases hp

/-- The handshake of a configured peer links it when it registers its socket. -/
theorem promoted_step (hstep : Phase.Step (.task (.client k pkt)) g s out s' g')
    (hn : pkt.Names p) (hp : p ∈ s.connManager.peerNodes) (hg : g.point ≠ .promoted)
    (hg' : g'.point = .promoted) : (s'.connManager.nodes p).socket = some k ∧
      (s'.connManager.nodes p).isConnected = true ∧ g'.stage = .whole := by
  cases hstep with
  | promote ht hq =>
      cases hn.2.symm.trans hq
      rw [onConn_connManager, ConnectionManager.nodes_registerPeerSocket, if_pos ⟨hp, rfl⟩]
      exact ⟨rfl, rfl, rfl⟩
  | setConnected | promotedBeat => exact absurd rfl hg
  | idle | aim | abort | found | target | bare | close | cut | wipeUsers | wipeRooms =>
      exact absurd hg' hg
  | _ => cases hg'

/-- After that a handshake has nothing left to do to the link. -/
theorem stays_promoted (hstep : Phase.Step w g s out s' g') (hg : g.point = .promoted) :
    g'.point = .promoted := by
  cases hstep with
  | promote | setConnected | promotedBeat => rfl
  | idle | aim | abort | found | target | bare | close | cut | wipeUsers | wipeRooms => exact hg
  | _ => cases hg

/-- The check of a `HandlePeerDisconnect` is passed while the peer is connected. -/
theorem past_step (hstep : Phase.Step w g s out s' g') (hg : g'.stage.Past p) :
    g.stage.Past p ∨ (s.connManager.nodes p).isConnected = true := by
  cases hstep with
  | found h =>
      cases hg
      exact Or.inr h
  | target | bare | close => exact Or.inl hg
  | _ => exact hg.elim

/-- A socket that is about to be closed is that of a peer. -/
theorem closing_step {m : Point} (hstep : Phase.Step w g s out s' ⟨m, .closing p k⟩) :
    (s.connManager.nodes p).socket = some k := by
  cases hstep
  assumption

/-- The socket is closed before it is unregistered. -/
theorem shut_step {m : Point} (hstep : Phase.Step w g s out s' ⟨m, .shut p⟩) :
    (s.connManager.nodes p).socket = none ∨
      ∃ j, g = ⟨m, .closing p j⟩ ∧ s'.connManager.getHandle j = invalidSocket := by
  cases hstep with
  | bare h => exact Or.inl h
  | @close _ _ _ _ j =>
      refine Or.inr ⟨j, rfl, ?_⟩
      rw [ConnectionManager.getHandle, onConn_connManager, ConnectionManager.sockets_closeSocket,
        if_pos rfl]

/-- The handle of the session is read before it is removed. -/
theorem dropping_step (hstep : Phase.Step w g s out s' g') (hg : g'.point = .dropping h) :
    g.point = .dropping h ∨
      ∃ k pkt, w = .task (.client k pkt) ∧ s.connManager.getHandle k = h := by
  cases hstep with
  | dropping =>
      cases hg
      exact Or.inr ⟨_, _, rfl, rfl⟩
  | idle | aim | abort | found | target | bare | close | cut | wipeUsers | wipeRooms =>
      exact Or.inl hg
  | _ => cases hg

theorem dropped_step (hstep : Phase.Step w g s out s' g')
    (hg : g'.point = .dropped ∨ g'.point = .promoted) :
    (g.point = .dropped ∨ g.point = .promoted) ∨
      ∃ h, g.point = .dropping h ∧ s' = s.onConn (·.removeSession h) := by
  cases hstep with
  | drop => exact Or.inr ⟨_, rfl, rfl⟩
  | promote => exact Or.inl (Or.inl rfl)
  | setConnected | promotedBeat => exact Or.inl (Or.inr rfl)
  | idle | aim | abort | found | target | bare | close | cut | wipeUsers | wipeRooms =>
      exact Or.inl hg
  | _ => rcases hg with hg | hg <;> cases hg

/-! ## Sessions do not come back -/

/-- A session does not come back. -/
theorem Step.spent (hs : v.Step act v') (hk : Spent v.server k) : Spent v'.server k := by
  refine ⟨fun hlive => ?_, Nat.lt_of_lt_of_le hk.2 hs.nextConn⟩
  rcases hs.live hlive with hlive | ⟨he, -⟩
  · exact hk.1 hlive
  · exact absurd he (Nat.ne_of_lt hk.2)

/-- Nobody opens a socket again. -/
theorem Step.closed (hs : v.Step act v') (hk : k < v.server.connManager.nextConn)
    (hclosed : v.server.connManager.getHandle k = invalidSocket) :
    v'.server.connManager.getHandle k = invalidSocket := by
  cases hs.serves with
  | same he | clocked _ he =>
      rw [he]
      exact hclosed
  | accepted _ he | dialed _ _ he =>
      rw [he]
      exact (ConnectionManager.getHandle_newSocket_of_lt hk).trans hclosed
  | ran _ _ _ hstep =>
      rcases getHandle_step hstep k with he | ⟨-, he⟩
      · exact he.trans hclosed
      · exact he

/-- The socket of a registered session stays open. -/
theorem Apart.getHandle (h : Apart v) (hs : v.Step act v') (hk : v.server.connManager.Live k) :
    v'.server.connManager.getHandle k = v.server.connManager.getHandle k := by
  cases hs.serves with
  | same he => rw [he]
  | accepted _ he | dialed _ _ he =>
      rw [he]
      exact ConnectionManager.getHandle_newSocket_of_lt (h.ground.live k hk)
  | clocked _ he => rw [he]
  | ran _ ht _ hstep =>
      rcases getHandle_step hstep k with he | ⟨⟨m, p, rfl⟩, -⟩
      · exact he
      · exact absurd hk (h.closing _ _ m p k ht).1

theorem Apart.step_handle_eq (h : Apart v) (hs : v.Step act v') {x : SOCKET}
    (hx : v'.server.connManager.sessionsBySocket.lookup x = some k) :
    v'.server.connManager.getHandle k = x := by
  have hold : v.server.connManager.sessionsBySocket.lookup x = some k →
      v'.server.connManager.getHandle k = x := by
    intro hx
    rw [h.getHandle hs (ConnectionManager.live_iff.mpr ⟨x, hx⟩)]
    exact h.handle_eq x k hx
  cases hs.serves with
  | same he => exact hold (he ▸ hx)
  | clocked _ he | dialed _ _ he =>
      rw [he] at hx
      exact hold hx
  | @accepted handle hf he =>
      rw [he, onConn_connManager, ConnectionManager.lookup_accepted] at hx
      split at hx
      next hxh =>
        cases hx
        rw [he, hxh]
        change ((v.server.connManager.newSocket handle).sockets _).handle = handle
        rw [ConnectionManager.sockets_newSocket, if_pos rfl]
      next => exact hold hx
  | ran _ _ _ hstep => exact hold (lookup_step hstep hx)

theorem Apart.step_linked (h : Apart v) (hs : v.Step act v')
    (hp : (v'.server.connManager.nodes p).socket = some k) : Spent v'.server k := by
  apply hs.spent
  cases hs.serves with
  | same he => exact h.linked p k (he ▸ hp)
  | accepted _ he | clocked _ he | dialed _ _ he =>
      rw [he] at hp
      exact h.linked p k hp
  | ran _ ht _ hstep =>
      rcases socket_step hstep hp with hp | rfl | ⟨-, pkt, rfl, -, hg⟩
      · exact h.linked p k hp
      · exact h.dialed (.thread _) p k _ ht
      · exact h.dropped _ k pkt _ ht (Or.inl hg)

theorem Apart.step_closing (h : Apart v) (hs : v.Step act v') {m : Point}
    (ht : v'.doing t = some (w, ⟨m, .closing p k⟩)) : Spent v'.server k := by
  apply hs.spent
  cases hs.origin (y := .thread t) ht with
  | moved hx =>
      obtain ⟨t', -, ht'⟩ := workAt_begun hx (by rintro ⟨⟩)
      exact h.closing t' w m p k ht'
  | ran _ _ _ hstep => exact h.linked p k (closing_step hstep)
  | began hg => cases hg

theorem Apart.step_dialed (h : Apart v) (hs : v.Step act v') {x : Place n}
    (hx : v'.workAt x = some (.connected p k, g)) : Spent v'.server k := by
  cases hs.origin hx with
  | moved hx => exact hs.spent (h.dialed _ p k g hx)
  | ran _ _ ht => exact hs.spent (h.dialed (.thread _) p k _ ht)
  | began _ hb =>
      cases hs with
      | dial =>
          cases hb
          refine ⟨fun hlive => ?_, Nat.lt_succ_self _⟩
          exact Nat.lt_irrefl _ (h.ground.live _ hlive)
      | readPeer =>
          obtain ⟨_, _, he⟩ := hb
          cases he
      | read | hangUp | hangUpPeer | beat => cases hb
      | take | run | finish | accept | scan | enqueue | clock => exact hb.elim

/-- The handle a handshake has read is that of its session while it has one. -/
theorem Apart.step_dropping (h : Apart v) (hs : v.Step act v') {x : SOCKET}
    (ht : v'.doing t = some (.task (.client k pkt), g)) (hg : g.point = .dropping x)
    (hlive : v'.server.connManager.Live k) : v'.server.connManager.getHandle k = x := by
  have hold : k < v.server.connManager.nextConn → v.server.connManager.Live k := by
    intro hlt
    rcases hs.live hlive with hlive | ⟨he, -⟩
    · exact hlive
    · exact absurd he (Nat.ne_of_lt hlt)
  cases hs.origin (y := .thread t) ht with
  | moved hx =>
      obtain ⟨t', -, ht'⟩ := workAt_begun hx (by rintro rfl; cases hg)
      have hk := hold (h.ground.client (.thread t') k pkt g ht')
      rw [h.getHandle hs hk]
      exact h.dropping t' k pkt x g ht' hg hk
  | ran _ _ ht₀ hstep =>
      have hk := hold (h.ground.client (.thread _) k pkt _ ht₀)
      rw [h.getHandle hs hk]
      rcases dropping_step hstep hg with hg | ⟨j, pkt', he, hx⟩
      · exact h.dropping _ k pkt x _ ht₀ hg hk
      · cases he
        exact hx
  | began hbegan =>
      cases hbegan
      cases hg

/-- When a handshake has removed its session, there is none. -/
theorem Apart.step_dropped (h : Apart v) (hs : v.Step act v')
    (ht : v'.doing t = some (.task (.client k pkt), g))
    (hg : g.point = .dropped ∨ g.point = .promoted) : Spent v'.server k := by
  cases hs.origin (y := .thread t) ht with
  | moved hx =>
      obtain ⟨t', -, ht'⟩ := workAt_begun hx (by rintro rfl; rcases hg with hg | hg <;> cases hg)
      exact hs.spent (h.dropped t' k pkt g ht' hg)
  | @ran t₀ g₀ out _ _ ht₀ hstep =>
      rcases dropped_step hstep hg with hg₀ | ⟨x, hg₀, hserver⟩
      · exact hs.spent (h.dropped t₀ k pkt g₀ ht₀ hg₀)
      · have hlt := h.ground.client (.thread t₀) k pkt g₀ ht₀
        refine ⟨fun hlive => ?_, Nat.lt_of_lt_of_le hlt hs.nextConn⟩
        obtain ⟨y, hy⟩ := ConnectionManager.live_iff.mp hlive
        have hk : v.server.connManager.Live k := by
          rcases hs.live hlive with hk | ⟨he, -⟩
          · exact hk
          · exact absurd he (Nat.ne_of_lt hlt)
        -- the session is filed under the handle that has just been erased
        have hyx : y = x := by
          rw [← h.step_handle_eq hs hy, h.getHandle hs hk]
          exact h.dropping t₀ k pkt x g₀ ht₀ hg₀ hk
        rw [hserver, hyx, onConn_connManager, lookup_removeSession_self] at hy
        cases hy
  | began hbegan =>
      cases hbegan
      rcases hg with hg | hg <;> cases hg

theorem Apart.step (h : Apart v) (hs : v.Step act v') : Apart v' where
  ground := h.ground.step hs
  handle_eq := fun _ _ => h.step_handle_eq hs
  linked := fun _ _ => h.step_linked hs
  closing := fun _ _ _ _ _ => h.step_closing hs
  dialed := fun _ _ _ _ => h.step_dialed hs
  dropping := fun _ _ _ _ _ => h.step_dropping hs
  dropped := fun _ _ _ _ => h.step_dropped hs

end

end View

end DistributedChat
