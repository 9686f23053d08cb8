import DistributedChat.Concurrency.PeerSockets

/-!
# The handshake of a peer

A connection becomes the link of a peer when a worker handles the `S2S_CONNECT`
read from it.  Until then the listener reads it as a client's, so a packet that
follows the handshake closely is given to `HandleClientPacket`
(`replica_read_as_client`).  After that it is read as the peer's only while it is
the socket registered for the peer, so a second connection of the peer, or a
`HandlePeerDisconnect` that has looked at the peer before, takes it away.

Suppose that the listener reads a socket as a client's only while its session is
registered and no handshake of it is under way, and that a handshake is read only
while its peer is not connected and nothing else is about to change that.  Then,
even if sends fail, what is read from the connection after the handshake is given
to `HandleServerPacket`, and the connection is the link of the peer from the end
of the handshake until it is closed (`handshake_then_peer`).

A handshake is first on its way, with nothing else about to link its peer (`Coming`).
Then its connection is the link, and only a thread that closes the socket takes it
down (`Linked`).  It is no session's, and never one again (`Apart`).
-/

namespace DistributedChat

open ChatServer

/-- The connection on which a handshake that names a configured peer is read, and the peer. -/
def ThreadAction.introduced {n : Nat} (peers : List Int) : ThreadAction n → Option (ConnRef × Int)
  | .read k pkt => (peers.find? fun p => decide (pkt.Names p)).map fun p => (k, p)
  | _ => none

/-- The same of what happens. -/
def Happening.introduced {n : Nat} (peers : List Int) : Happening n → Option (ConnRef × Int)
  | .act a => a.introduced peers
  | .cut _ => none

/-- The work is a handshake on the connection that names a configured peer. -/
def Work.Introduces (peers : List Int) (k : ConnRef) : Work → Prop
  | .task (.client j pkt) => j = k ∧ ∃ p ∈ peers, pkt.Names p
  | _ => False

instance (peers : List Int) (k : ConnRef) : DecidablePred (Work.Introduces peers k) := fun
  | .task (.client j pkt) => inferInstanceAs (Decidable (j = k ∧ ∃ p ∈ peers, pkt.Names p))
  | .task (.peer _ _ _) | .clientGone _ | .peerGone _ | .heartbeats | .connected _ _ =>
      instDecidableFalse

/-- The work registers a socket for the peer. -/
def Work.Registers (p : Int) : Work → Prop
  | .task (.client _ pkt) => pkt.Names p
  | .connected q _ => q = p
  | _ => False

instance (p : Int) : DecidablePred (Work.Registers p) := fun
  | .task (.client _ pkt) => inferInstanceAs (Decidable (pkt.Names p))
  | .connected q _ => inferInstanceAs (Decidable (q = p))
  | .task (.peer _ _ _) | .clientGone _ | .peerGone _ | .heartbeats => instDecidableFalse

namespace Threads

variable {n : Nat}

end Threads

namespace View

variable {n : Nat}

/-- No thread is in a `HandlePeerDisconnect` of the peer, behind its check. -/
def Unpassed (v : View n) (p : Int) : Prop :=
  ∀ t w g, v.doing t = some (w, g) → ¬ g.stage.Past p

/-- The condition on an action, of the view. -/
def Heeds (peers : List Int) (v : View n) : ThreadAction n → Prop
  | .read k pkt => v.server.connManager.Live k ∧ v.Without (Work.Introduces peers k) ∧
      ∀ p ∈ peers, pkt.Names p → (v.server.connManager.nodes p).isConnected = false ∧
        v.Without (Work.Registers p) ∧ v.Unpassed p
  | .dial p _ => v.Without (Work.Registers p)
  | _ => True

/-- The handshake is on its way, and nothing else is going to link the peer or to unlink it. -/
structure Coming (v : View n) (k : ConnRef) (p : Int) : Prop where
  handshake : ∃ x pkt g, v.workAt x = some (.task (.client k pkt), g) ∧ pkt.Names p ∧
    g.point ≠ .promoted
  alone : v.Alone (Work.Registers p)
  down : (v.server.connManager.nodes p).isConnected = false
  unpassed : v.Unpassed p

/-- The connection is the link of the peer, and who is going to unlink the peer has still to close
the socket. -/
structure Linked (v : View n) (k : ConnRef) (p : Int) : Prop where
  socket : (v.server.connManager.nodes p).socket = some k
  up : (v.server.connManager.nodes p).isConnected = true
  closing : ∀ t w m j, v.doing t = some (w, ⟨m, .closing p j⟩) → j = k
  unshut : ∀ t w m, v.doing t ≠ some (w, ⟨m, .shut p⟩)
  settled : ∀ x w g, v.workAt x = some (w, g) → w.Registers p →
    (∃ pkt, w = .task (.client k pkt)) ∧ g.point = .promoted

/-- The connection is no other peer's and will not be. -/
structure Claimed (peers : List Int) (v : View n) (k : ConnRef) (p : Int) : Prop where
  made : k < v.server.connManager.nextConn
  socket : ∀ q, (v.server.connManager.nodes q).socket = some k → q = p
  handshake : ∀ x w g, v.workAt x = some (w, g) → w.Introduces peers k → w.Registers p
  undialed : ∀ q, v.Without (· = .connected q k)

section

variable {v v' : View n} {act : ThreadAction n} {t : Thread n} {w : Work} {g g' : Phase}
  {s s' : ChatServer} {out : List Effect} {k : ConnRef} {pkt : RawPacket} {h : SOCKET} {p : Int}
  {peers : List Int} {y : Place n}

/-- What is going to register a socket for a peer is begun while the peer is not connected. -/
theorem Step.begins_registers (hs : v.Step act v') (hheed : v.Heeds peers act) (hp : p ∈ peers)
    (hb : Begins v act w) (hw : w.Registers p) :
    (v.server.connManager.nodes p).isConnected = false ∧ v.Without (Work.Registers p) := by
  cases hs with
  | read =>
      cases hb
      obtain ⟨hdown, hnone, -⟩ := hheed.2.2 p hp hw
      exact ⟨hdown, hnone⟩
  | dial _ _ hd =>
      cases hb
      cases hw
      exact ⟨hd, hheed⟩
  | readPeer =>
      obtain ⟨_, _, rfl⟩ := hb
      exact hw.elim
  | hangUp | hangUpPeer | beat =>
      cases hb
      exact hw.elim
  | take | run | finish | accept | scan | enqueue | clock => exact hb.elim

/-- A handshake is read from a registered session of which no handshake is under way. -/
theorem Step.begins_introduces (hs : v.Step act v') (hheed : v.Heeds peers act)
    (hb : Begins v act w) (hw : w.Introduces peers k) :
    v.server.connManager.Live k ∧ v.Without (Work.Introduces peers k) := by
  cases hs with
  | read =>
      cases hb
      obtain ⟨rfl, -⟩ := hw
      exact ⟨hheed.1, hheed.2.1⟩
  | readPeer =>
      obtain ⟨_, _, rfl⟩ := hb
      exact hw.elim
  | hangUp | hangUpPeer | beat | dial =>
      cases hb
      exact hw.elim
  | take | run | finish | accept | scan | enqueue | clock => exact hb.elim

/-- The links are changed by sections only. -/
theorem Step.nodes (hs : v.Step act v') :
    v'.server.connManager.nodes = v.server.connManager.nodes ∨
      ∃ t w g g' out, v.doing t = some (w, g) ∧ v'.doing t = some (w, g') ∧
        Phase.Step w g v.server out v'.server g' := by
  cases hs.serves with
  | same he | clocked _ he => exact Or.inl (by rw [he])
  | accepted _ he | dialed _ _ he =>
      left
      rw [he]
      rfl
  | ran _ ht ht' hstep => exact Or.inr ⟨_, _, _, _, _, ht, ht', hstep⟩

theorem Unpassed.step (h : v.Unpassed p) (hs : v.Step act v')
    (hdown : (v.server.connManager.nodes p).isConnected = false) : v'.Unpassed p := by
  intro t w g ht hg
  cases hs.origin (y := .thread t) ht with
  | moved hx =>
      obtain ⟨t', -, ht'⟩ := workAt_begun hx (by rintro rfl; exact hg)
      exact h t' w g ht' hg
  | ran _ _ ht₀ hstep =>
      rcases past_step hstep hg with hg | hup
      · exact h _ w _ ht₀ hg
      · exact Bool.false_ne_true (hdown.symm.trans hup)
  | began hbegan =>
      cases hbegan
      exact hg

/-- While its handshake is not handled, the peer is not linked. -/
theorem Coming.still (h : Coming v k p) (hs : v.Step act v') (halone : v'.Alone (Work.Registers p))
    (hy : v'.workAt y = some (.task (.client k pkt), g)) (hn : pkt.Names p)
    (hg : g.point ≠ .promoted) : Coming v' k p where
  handshake := ⟨y, pkt, g, hy, hn, hg⟩
  alone := halone
  unpassed := h.unpassed.step hs h.down
  down := by
    obtain ⟨x, pkt₀, g₀, hx, hn₀, hg₀⟩ := h.handshake
    rcases hs.nodes with he | ⟨t, w, g₁, g₁', out, ht, ht', hstep⟩
    · rw [he]
      exact h.down
    · -- whoever registers a socket for the peer is the handshake
      have hsame : w.Registers p → v.workAt x = some (w, g₁) := by
        intro hw
        rw [h.alone x (.thread t) _ _ _ _ hx ht hn₀ hw]
        exact ht
      cases relinks_step hstep p with
      | same _ hc => exact hc.trans h.down
      | dialed hw =>
          subst hw
          cases hx.symm.trans (hsame rfl)
      | @promoted j pkt' hw hn' _ _ hg' =>
          subst hw
          cases halone y (.thread t) _ _ _ _ hy ht' hn hn'
          cases hy.symm.trans ht'
          exact absurd hg' hg
      | confirmed hw hn' hg' =>
          subst hw
          cases hx.symm.trans (hsame hn')
          exact absurd hg' hg₀
      | cut hg' =>
          refine absurd ?_ (h.unpassed t w g₁ ht)
          rw [hg']
          exact rfl

/-- When the handshake has registered the socket, it is the link. -/
theorem Coming.lands (h : Coming v k p) (hs : v.Step act v')
    (hmem : p ∈ v.server.connManager.peerNodes) (halone : v'.Alone (Work.Registers p))
    (hnone : ∀ w, Begins v act w → ¬ w.Registers p)
    (hy : v'.workAt y = some (.task (.client k pkt), g)) (hn : pkt.Names p)
    (hg : g.point = .promoted) : Linked v' k p := by
  obtain ⟨x, pkt₀, g₀, hx, hn₀, hg₀⟩ := h.handshake
  have hunpassed := h.unpassed.step hs h.down
  have hlink : (v'.server.connManager.nodes p).socket = some k ∧
      (v'.server.connManager.nodes p).isConnected = true := by
    cases hs.origin hy with
    | moved hz =>
        cases h.alone x _ _ _ _ _ hx hz hn₀ hn
        cases hx.symm.trans hz
        exact absurd hg hg₀
    | ran _ _ ht hstep =>
        cases h.alone x (.thread _) _ _ _ _ hx ht hn₀ hn
        cases hx.symm.trans ht
        obtain ⟨hsocket, hup, -⟩ := promoted_step hstep hn hmem hg₀ hg
        exact ⟨hsocket, hup⟩
    | began _ hb => exact absurd hn (hnone _ hb)
  refine ⟨hlink.1, hlink.2, fun t w m j ht => ?_, fun t w m ht => ?_, fun z w g' hz hw => ?_⟩
  · exact absurd rfl (hunpassed t w _ ht)
  · exact absurd rfl (hunpassed t w _ ht)
  · cases halone y z _ _ _ _ hy hz hn hw
    cases hy.symm.trans hz
    exact ⟨⟨pkt, rfl⟩, hg⟩

theorem Coming.step (h : Coming v k p) (hs : v.Step act v') (hheed : v.Heeds peers act)
    (hp : p ∈ peers) (hmem : p ∈ v.server.connManager.peerNodes) :
    Coming v' k p ∨ Linked v' k p := by
  have hnone : ∀ w, Begins v act w → w.Registers p → v.Without (Work.Registers p) :=
    fun w hb hw => (hs.begins_registers hheed hp hb hw).2
  have halone := h.alone.step hs hnone
  obtain ⟨x, pkt, g, hx, hn, hg⟩ := h.handshake
  rcases hs.kept hx with ⟨y, g', hy⟩ | ⟨t, rfl, -, hends⟩
  · by_cases hg' : g'.point = .promoted
    · exact Or.inr (h.lands hs hmem halone (fun w hb hw => hnone w hb hw x _ _ hx hn) hy hn hg')
    · exact Or.inl (h.still hs halone hy hn hg')
  · rw [Work.Ends, hn.2, if_pos ⟨hn.1, rfl⟩] at hends
    exact absurd hends hg

/-- The link is taken down by closing it. -/
theorem Linked.step (h : Linked v k p) (hs : v.Step act v') (hheed : v.Heeds peers act)
    (hp : p ∈ peers) (hopen : v'.server.connManager.getHandle k ≠ invalidSocket) :
    Linked v' k p := by
  have hlink : (v'.server.connManager.nodes p).socket = some k ∧
      (v'.server.connManager.nodes p).isConnected = true := by
    rcases hs.nodes with he | ⟨t, w, g, g', out, ht, -, hstep⟩
    · rw [he]
      exact ⟨h.socket, h.up⟩
    · cases relinks_step hstep p with
      | same hsocket hc => exact ⟨hsocket.trans h.socket, hc.trans h.up⟩
      | dialed hw =>
          subst hw
          obtain ⟨⟨pkt, he⟩, -⟩ := h.settled (.thread t) _ g ht rfl
          cases he
      | promoted hw hn _ hg =>
          subst hw
          obtain ⟨-, hg'⟩ := h.settled (.thread t) _ g ht hn
          cases hg.symm.trans hg'
      | confirmed _ _ _ hsocket hc => exact ⟨hsocket.trans h.socket, hc⟩
      | cut hg =>
          obtain ⟨m, stage⟩ := g
          cases hg
          exact absurd ht (h.unshut t w m)
  refine ⟨hlink.1, hlink.2, fun t w m j ht => ?_, fun t w m ht => ?_, fun y w g hy hw => ?_⟩
  · cases hs.origin (y := .thread t) ht with
    | moved hx =>
        obtain ⟨t', -, ht'⟩ := workAt_begun hx (by rintro ⟨⟩)
        exact h.closing t' w m j ht'
    | ran _ _ _ hstep => exact Option.some.inj ((closing_step hstep).symm.trans h.socket)
    | began hg => cases hg
  · cases hs.origin (y := .thread t) ht with
    | moved hx =>
        obtain ⟨t', -, ht'⟩ := workAt_begun hx (by rintro ⟨⟩)
        exact h.unshut t' w m ht'
    | ran _ _ ht₀ hstep =>
        rcases shut_step hstep with hbare | ⟨j, hg, hclosed⟩
        · cases h.socket.symm.trans hbare
        · subst hg
          cases h.closing _ w m j ht₀
          exact hopen hclosed
    | began hg => cases hg
  · cases hs.origin hy with
    | moved hx => exact h.settled _ w g hx hw
    | ran _ _ ht hstep =>
        obtain ⟨hclient, hg⟩ := h.settled (.thread _) w _ ht hw
        exact ⟨hclient, stays_promoted hstep hg⟩
    | began _ hb =>
        obtain ⟨hdown, -⟩ := hs.begins_registers hheed hp hb hw
        exact absurd (hdown.symm.trans h.up) Bool.false_ne_true

theorem Claimed.step (h : Claimed peers v k p) (hs : v.Step act v')
    (hpeers : ∀ q, q ∈ v.server.connManager.peerNodes → q ∈ peers)
    (hnone : ∀ w, Begins v act w → ¬ w.Introduces peers k) : Claimed peers v' k p where
  made := Nat.lt_of_lt_of_le h.made hs.nextConn
  socket := by
    intro q hq
    rcases hs.nodes with he | ⟨t, w, g, g', out, ht, -, hstep⟩
    · rw [he] at hq
      exact h.socket q hq
    · rcases socket_step hstep hq with hq | rfl | ⟨hmem, pkt, rfl, hn, -⟩
      · exact h.socket q hq
      · exact absurd rfl (h.undialed q (.thread t) _ g ht)
      · exact RawPacket.Names.unique (h.handshake (.thread t) _ g ht ⟨rfl, q, hpeers q hmem, hn⟩) hn
  handshake := by
    intro y w g hy hw
    cases hs.origin hy with
    | moved hx => exact h.handshake _ w g hx hw
    | ran _ _ ht => exact h.handshake (.thread _) w _ ht hw
    | began _ hb => exact absurd hw (hnone w hb)
  undialed := by
    rintro q y w g hy rfl
    cases hs.origin hy with
    | moved hx => exact h.undialed q _ _ g hx rfl
    | ran _ _ ht => exact h.undialed q (.thread _) _ _ ht rfl
    | began _ hb =>
        cases hs with
        | dial =>
            cases hb
            exact Nat.lt_irrefl _ h.made
        | readPeer =>
            obtain ⟨_, _, he⟩ := hb
            cases he
        | read | hangUp | hangUpPeer | beat => cases hb
        | take | run | finish | accept | scan | enqueue | clock => exact hb.elim

/-- Where the handshake of a peer has got to: it is on its way, the connection is the link, or it
is closed. -/
inductive Course (v : View n) (k : ConnRef) (p : Int) : Prop where
  | coming (h : Coming v k p)
  | linked (h : Linked v k p)
  | closed (h : Spent v.server k) (hclosed : v.server.connManager.getHandle k = invalidSocket)

/-- What holds after handshakes.  `H` are the connections on which one has been read, each with
the peer it names. -/
structure Introduced (peers : List Int) (H : List (ConnRef × Int)) (v : View n) : Prop where
  apart : Apart v
  peers_iff : ∀ p, p ∈ v.server.connManager.peerNodes ↔ p ∈ peers
  claimed : ∀ k p, (k, p) ∈ H → Claimed peers v k p
  course : ∀ k p, (k, p) ∈ H → Course v k p

theorem Coming.introduces (h : Coming v k p) (hp : p ∈ peers) :
    ∃ x w g, v.workAt x = some (w, g) ∧ w.Introduces peers k := by
  obtain ⟨x, pkt, g, hx, hn, -⟩ := h.handshake
  exact ⟨x, _, g, hx, rfl, p, hp, hn⟩

/-- From such a connection nothing more is read as a client's. -/
theorem Course.unread (h : Course v k p) (ha : Apart v) (hp : p ∈ peers)
    (hk : v.server.connManager.Live k) : ¬ v.Without (Work.Introduces peers k) := by
  intro hnone
  cases h with
  | coming h =>
      obtain ⟨x, w, g, hx, hw⟩ := h.introduces hp
      exact hnone x w g hx hw
  | linked h => exact (ha.linked p k h.socket).1 hk
  | closed h => exact h.1 hk

theorem Course.step (h : Course v k p) (ha : Apart v) (hs : v.Step act v')
    (hheed : v.Heeds peers act) (hp : p ∈ peers) (hmem : p ∈ v.server.connManager.peerNodes) :
    Course v' k p := by
  cases h with
  | coming h =>
      rcases h.step hs hheed hp hmem with h | h
      · exact .coming h
      · exact .linked h
  | linked h =>
      by_cases hclosed : v'.server.connManager.getHandle k = invalidSocket
      · exact .closed (hs.spent (ha.linked p k h.socket)) hclosed
      · exact .linked (h.step hs hheed hp hclosed)
  | closed h hclosed => exact .closed (hs.spent h) (hs.closed h.2 hclosed)

theorem mem_of_introduced (h : act.introduced peers = some (k, p)) :
    p ∈ peers ∧ ∃ pkt, act = .read k pkt ∧ pkt.Names p := by
  cases act with
  | read j pkt =>
      obtain ⟨q, hq, he⟩ := Option.map_eq_some_iff.mp h
      cases he
      have hn := List.find?_some hq
      exact ⟨List.mem_of_find?_eq_some hq, pkt, rfl, of_decide_eq_true hn⟩
  | _ => cases h

/-- A handshake that is read begins its way. -/
theorem Apart.introduced (h : Apart v) (hs : v.Step act v') (hheed : v.Heeds peers act)
    (hact : act.introduced peers = some (k, p)) : Claimed peers v' k p ∧ Coming v' k p := by
  obtain ⟨hp, pkt, rfl, hn⟩ := mem_of_introduced hact
  obtain ⟨hlive, hnone, hheed⟩ := hheed
  obtain ⟨hdown, hfree, hunpassed⟩ := hheed p hp hn
  have ha' := h.step hs
  cases hs with
  | read hl hh hk hfit =>
      have hs : v.Step (.read k pkt) _ := .read hl hh hk hfit
      refine ⟨⟨h.ground.live k hlive, fun q hq => ?_, fun y w g hy hw => ?_, ?_⟩, ?_, ?_, hdown,
        hunpassed⟩
      · exact absurd hlive (h.linked q k hq).1
      · cases hs.origin hy with
        | moved hx => exact absurd hw (hnone _ w g hx)
        | ran ha => cases ha
        | began _ hb =>
            cases hb
            exact hn
      · rintro q y w g hy rfl
        exact (ha'.dialed y q k g hy).1 hlive
      · exact ⟨.hand, pkt, .start, rfl, hn, fun he => Point.noConfusion he⟩
      · have halone : v.Alone (Work.Registers p) :=
          fun x _ w _ g _ hx _ hw => absurd hw (hfree x w g hx)
        exact halone.step hs fun _ _ _ => hfree

theorem Introduced.step {H : List (ConnRef × Int)} (h : Introduced peers H v) (hs : v.Step act v')
    (hheed : v.Heeds peers act) (hH : ∀ k p, (k, p) ∈ H → p ∈ peers) :
    Introduced peers (H ++ [act].filterMap (ThreadAction.introduced peers)) v' where
  apart := h.apart.step hs
  peers_iff := by
    rw [hs.peerNodes]
    exact h.peers_iff
  claimed := by
    intro k p hk
    rcases List.mem_append.mp hk with hk | hk
    · refine (h.claimed k p hk).step hs (fun q => (h.peers_iff q).mp) fun w hb hw => ?_
      obtain ⟨hlive, hnone⟩ := hs.begins_introduces hheed hb hw
      exact (h.course k p hk).unread h.apart (hH k p hk) hlive hnone
    · obtain ⟨a, ha, hact⟩ := List.mem_filterMap.mp hk
      rw [List.mem_singleton.mp ha] at hact
      exact (h.apart.introduced hs hheed hact).1
  course := by
    intro k p hk
    rcases List.mem_append.mp hk with hk | hk
    · have hp := hH k p hk
      exact (h.course k p hk).step h.apart hs hheed hp ((h.peers_iff p).mpr hp)
    · obtain ⟨a, ha, hact⟩ := List.mem_filterMap.mp hk
      rw [List.mem_singleton.mp ha] at hact
      exact .coming (h.apart.introduced hs hheed hact).2

/-- The network cuts off a socket. -/
theorem Apart.cutOff (h : Apart v) (j : ConnRef) :
    Apart { v with server := v.server.cutOff j } where
  ground := ⟨h.ground.live, h.ground.looked, h.ground.client⟩
  handle_eq := fun x k hx => (getHandle_cutOff v.server j k).trans (h.handle_eq x k hx)
  linked := h.linked
  closing := h.closing
  dialed := h.dialed
  dropping := fun t k pkt x g ht hg hk =>
    (getHandle_cutOff v.server j k).trans (h.dropping t k pkt x g ht hg hk)
  dropped := h.dropped

theorem Introduced.cutOff {H : List (ConnRef × Int)} (h : Introduced peers H v) (j : ConnRef) :
    Introduced peers H { v with server := v.server.cutOff j } where
  apart := h.apart.cutOff j
  peers_iff := h.peers_iff
  claimed := fun k p hk =>
    ⟨(h.claimed k p hk).made, (h.claimed k p hk).socket, (h.claimed k p hk).handshake,
      (h.claimed k p hk).undialed⟩
  course := by
    intro k p hk
    cases h.course k p hk with
    | coming h => exact .coming ⟨h.handshake, h.alone, h.down, h.unpassed⟩
    | linked h => exact .linked ⟨h.socket, h.up, h.closing, h.unshut, h.settled⟩
    | closed h hclosed => exact .closed h ((getHandle_cutOff v.server j k).trans hclosed)

end

end View

namespace Threads

open View

section

variable {n : Nat} {c d : Threads n} {id : Int} {peers : List Int} {as : List (Happening n)}

theorem mem_of_introduced {a : Happening n} {k : ConnRef} {p : Int}
    (h : a.introduced peers = some (k, p)) : p ∈ peers := by
  cases a with
  | act a => exact (View.mem_of_introduced h).1
  | cut j => cases h

end

/-- Clients are read, and peers dialed, while nothing is going on and no peer is connected. -/
def Undisturbed (peers : List Int) (c : Threads n) : Happening n → Prop
  | .act (.read k _) => c.state.connManager.Live k ∧ c.Settled ∧
      ∀ p ∈ peers, (c.state.connManager.nodes p).isConnected = false
  | .act (.dial _ _) => c.Settled
  | _ => True

instance (peers : List Int) (c : Threads n) : DecidablePred (Undisturbed peers c) := fun
  | .act (.read k _) => inferInstanceAs (Decidable (c.state.connManager.Live k ∧ c.Settled ∧
      ∀ p ∈ peers, (c.state.connManager.nodes p).isConnected = false))
  | .act (.dial _ _) => inferInstanceAs (Decidable c.Settled)
  | .act (.take _) | .act (.run _) | .act (.finish _) | .act (.accept _) | .act .scan
  | .act (.hangUp _) | .act (.readPeer _ _) | .act (.hangUpPeer _) | .act .enqueue
  | .act (.clock _) | .act .beat | .cut _ => instDecidableTrue

end Threads

end DistributedChat
