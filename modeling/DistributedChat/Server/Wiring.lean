import DistributedChat.Server.Phases

/-!
# Sessions, sockets and links

The listener removes a session by the handle of its socket, so it matters that
sessions are filed under the handles their sockets have.  `Wired` says so, and
that no link uses the socket of a session, for it is the sockets of links that
are closed.  Every program of a server keeps this (`wired_prog`), also one that
handles a packet of a session that has ended meanwhile.
-/

namespace DistributedChat

/-- Sessions are filed under the handles of their sockets, and links use other sockets. -/
structure ConnectionManager.Wired (m : ConnectionManager) : Prop where
  handle_eq : ∀ {h k}, m.sessionsBySocket.lookup h = some k → m.getHandle k = h
  live_lt : ∀ {k}, m.Live k → k < m.nextConn
  link_lt : ∀ {p k}, (m.nodes p).socket = some k → k < m.nextConn
  link_dead : ∀ {p k}, (m.nodes p).socket = some k → ¬ m.Live k

namespace ConnectionManager

section

variable {m m' : ConnectionManager} {k j : ConnRef} {p : Int}

theorem Ok.wired (h : m.Ok) : m.Wired := ⟨h.handle_eq, h.live_lt, h.link_lt, h.link_dead⟩

/-- Sections that change neither handles nor the map of sessions, and link no session. -/
theorem Wired.relinked (h : m.Wired) (hmap : m'.sessionsBySocket = m.sessionsBySocket)
    (hhandle : ∀ k, m'.getHandle k = m.getHandle k) (hnext : m'.nextConn = m.nextConn)
    (hlink : ∀ {p k}, (m'.nodes p).socket = some k →
      (m.nodes p).socket = some k ∨ k < m.nextConn ∧ ¬ m.Live k) : m'.Wired := by
  have hlive : ∀ k, m'.Live k ↔ m.Live k := fun k => by rw [live_iff, live_iff, hmap]
  constructor
  · intro x k hx
    rw [hmap] at hx
    rw [hhandle]
    exact h.handle_eq hx
  · intro k hk
    rw [hnext]
    exact h.live_lt ((hlive k).mp hk)
  · intro p k hk
    rw [hnext]
    rcases hlink hk with hk | ⟨hlt, -⟩
    · exact h.link_lt hk
    · exact hlt
  · intro p k hk
    rw [hlive]
    rcases hlink hk with hk | ⟨-, hdead⟩
    · exact h.link_dead hk
    · exact hdead

/-- A socket that no session uses can be closed. -/
theorem Wired.closeSocket (h : m.Wired) (hk : ¬ m.Live k) : (m.closeSocket k).Wired where
  handle_eq := by
    intro x j hx
    have hj : j ≠ k := fun he => hk (he ▸ live_iff.mpr ⟨x, hx⟩)
    rw [getHandle, sockets_closeSocket, if_neg hj]
    exact h.handle_eq hx
  live_lt := h.live_lt
  link_lt := h.link_lt
  link_dead := h.link_dead

theorem lookup_of_lookup_removeSession {x y : SOCKET}
    (hx : (m.removeSession y).sessionsBySocket.lookup x = some k) :
    x ≠ y ∧ m.sessionsBySocket.lookup x = some k := by
  rw [removeSession] at hx
  split at hx
  next hy =>
    refine ⟨fun he => ?_, hx⟩
    rw [he, hy] at hx
    cases hx
  next =>
    rw [Table.lookup_erase] at hx
    split at hx
    · cases hx
    next hne => exact ⟨hne, hx⟩

theorem Wired.removeSession (h : m.Wired) (y : SOCKET) : (m.removeSession y).Wired where
  handle_eq := by
    intro x j hx
    rw [getHandle, sockets_removeSession]
    exact h.handle_eq (lookup_of_lookup_removeSession hx).2
  live_lt := by
    intro j hj
    rw [nextConn_removeSession]
    exact h.live_lt (live_of_live_removeSession hj)
  link_lt := by
    rw [nodes_removeSession, nextConn_removeSession]
    exact h.link_lt
  link_dead := by
    rw [nodes_removeSession]
    exact fun hp hj => h.link_dead hp (live_of_live_removeSession hj)

/-- The sessions that are left after a removal have other handles. -/
theorem getHandle_ne_of_live_removeSession {y : SOCKET} (h : (m.removeSession y).Wired)
    (hj : (m.removeSession y).Live j) : m.getHandle j ≠ y := by
  obtain ⟨x, hx⟩ := live_iff.mp hj
  have hjx := h.handle_eq hx
  rw [getHandle, sockets_removeSession] at hjx
  rw [getHandle, hjx]
  exact (lookup_of_lookup_removeSession hx).1

/-- A removed session is no longer live. -/
theorem Wired.not_live_removeSession (h : m.Wired) : ¬ (m.removeSession (m.getHandle k)).Live k :=
  fun hk => getHandle_ne_of_live_removeSession (h.removeSession _) hk rfl

theorem Wired.registerPeerSocket (h : m.Wired) (hlt : k < m.nextConn) (hk : ¬ m.Live k)
    (now : Nat) : (m.registerPeerSocket p k now).Wired := by
  refine h.relinked (sessionsBySocket_registerPeerSocket ..)
    (fun j => by rw [getHandle, sockets_registerPeerSocket, getHandle])
    (nextConn_registerPeerSocket ..) fun {q j} hj => ?_
  rw [nodes_registerPeerSocket] at hj
  split at hj
  · cases hj
    exact Or.inr ⟨hlt, hk⟩
  · exact Or.inl hj

theorem Wired.unregisterPeerSocket (h : m.Wired) (now : Nat) :
    (m.unregisterPeerSocket p now).Wired := by
  refine h.relinked (sessionsBySocket_unregisterPeerSocket ..)
    (fun j => by rw [getHandle, sockets_unregisterPeerSocket, getHandle])
    (nextConn_unregisterPeerSocket ..) fun {q j} hj => ?_
  rw [nodes_unregisterPeerSocket] at hj
  split at hj
  · cases hj
  · exact Or.inl hj

theorem Wired.setConnected (h : m.Wired) (c : Bool) : (m.setConnected p c).Wired := by
  refine h.relinked rfl (fun _ => rfl) rfl fun {q j} hj => Or.inl ?_
  rw [nodes_setConnected] at hj
  split at hj
  next he => exact he ▸ hj
  next => exact hj

theorem Wired.updateHeartbeat (h : m.Wired) (now : Nat) : (m.updateHeartbeat p now).Wired := by
  refine h.relinked rfl (fun _ => rfl) rfl fun {q j} hj => Or.inl ?_
  rw [nodes_updateHeartbeat] at hj
  split at hj
  next he => exact he ▸ hj
  next => exact hj

/-- A new socket is that of no session and no link. -/
theorem Wired.newSocket (h : m.Wired) (handle : SOCKET) : (m.newSocket handle).Wired where
  handle_eq := fun hx =>
    (getHandle_newSocket_of_lt (h.live_lt (live_iff.mpr ⟨_, hx⟩))).trans (h.handle_eq hx)
  live_lt := fun hk => Nat.lt_succ_of_lt (h.live_lt hk)
  link_lt := fun hk => Nat.lt_succ_of_lt (h.link_lt hk)
  link_dead := h.link_dead

theorem Wired.accepted (h : m.Wired) {handle : SOCKET} (hf : m.FreeHandle handle) :
    (m.accepted handle).Wired where
  handle_eq := by
    intro x j hx
    rw [lookup_accepted] at hx
    split at hx
    next hxh =>
      cases hx
      show (m.newSocket handle).getHandle m.nextConn = x
      rw [getHandle, sockets_newSocket, if_pos rfl, hxh]
    · exact (h.newSocket handle).handle_eq hx
  live_lt := by
    intro j hj
    rcases (live_accepted hf).mp hj with rfl | hj
    · exact Nat.lt_succ_self _
    · exact Nat.lt_succ_of_lt (h.live_lt hj)
  link_lt := (h.newSocket handle).link_lt
  link_dead := by
    intro p j hp hj
    rcases (live_accepted hf).mp hj with rfl | hj
    · exact Nat.lt_irrefl _ (h.link_lt hp)
    · exact h.link_dead hp hj

end

end ConnectionManager

/-- What a program at work on `w` in phase `g` knows about the sockets it is going to use. -/
structure Phase.Wires (w : Work) (g : Phase) (s : ChatServer) : Prop where
  wired : s.connManager.Wired
  whole : g.point.isOpen = true ∨ g.stage = .whole
  closing : ∀ {p k}, g.stage = .closing p k → ¬ s.connManager.Live k
  client_lt : ∀ {k pkt}, w = .task (.client k pkt) → k < s.connManager.nextConn
  dropping : ∀ {k pkt h}, w = .task (.client k pkt) → g.point = .dropping h →
    s.connManager.getHandle k = h
  dropped : ∀ {k pkt}, w = .task (.client k pkt) → g.point = .dropped → ¬ s.connManager.Live k
  connected : ∀ {p k}, w = .connected p k → k < s.connManager.nextConn ∧ ¬ s.connManager.Live k

section

variable {w : Work} {g g' : Phase} {s s' : ChatServer} {out : List Effect}

/-- A section keeps the map of sessions right. -/
theorem Phase.Step.wired (h : Phase.Step w g s out s' g') (hs : Phase.Wires w g s) :
    s'.connManager.Wired := by
  cases h with
  | touch h =>
      cases h with
      | register p k =>
          obtain ⟨hlt, hdead⟩ := hs.connected rfl
          exact hs.wired.registerPeerSocket hlt hdead _
      | beat | connectedBeat => exact hs.wired.updateHeartbeat _
      | setConnected => exact hs.wired.setConnected _
      | joinRoom | leaveRoom => exact hs.wired.relinked rfl (fun _ => rfl) rfl Or.inl
      | _ => exact hs.wired
  | close => exact hs.wired.closeSocket (hs.closing rfl)
  | cut => exact hs.wired.unregisterPeerSocket _
  | remove | drop => exact hs.wired.removeSession _
  | promote => exact hs.wired.registerPeerSocket (hs.client_lt rfl) (hs.dropped rfl rfl) _
  | setConnected => exact hs.wired.setConnected _
  | promotedBeat => exact hs.wired.updateHeartbeat _
  | authenticate => exact hs.wired.relinked rfl (fun _ => rfl) rfl Or.inl
  | apply h => cases h <;> exact hs.wired
  | _ => exact hs.wired

/-- The handle of a session is read right before the session is dropped. -/
theorem Phase.Step.drops (h : Phase.Step w g s out s' g')
    (hwhole : g.point.isOpen = true ∨ g.stage = .whole) {k : ConnRef} {pkt : RawPacket}
    (hw : w = .task (.client k pkt)) {y : SOCKET} (hg : g'.point = .dropping y) :
    s' = s ∧ s.connManager.getHandle k = y := by
  cases h with
  | dropping =>
      cases hw
      cases hg
      exact ⟨rfl, rfl⟩
  | idle hm | aim hm =>
      cases hg
      cases hm
  | abort | found | target | bare | close | cut | wipeUsers | wipeRooms =>
      cases hg
      rcases hwhole with hm | hm <;> cases hm
  | touch | apply => cases hg
  | _ => cases hg

theorem Phase.Step.had_dropped (h : Phase.Step w g s out s' g') (hg : g'.point = .dropped) :
    (∃ y, g.point = .dropping y ∧ s' = s.onConn (·.removeSession y)) ∨ g.point = .dropped := by
  cases h with
  | drop => exact Or.inl ⟨_, rfl, rfl⟩
  | idle | aim | abort | found | target | bare | close | cut | wipeUsers | wipeRooms =>
      exact Or.inr hg
  | _ => cases hg

/-- A section keeps what its program knows about sockets. -/
theorem Phase.Step.wires (h : Phase.Step w g s out s' g') (hs : Phase.Wires w g s) :
    Phase.Wires w g' s' where
  wired := h.wired hs
  whole := h.whole hs.whole
  closing := by
    intro p k hg
    cases h with
    | target hp =>
        cases hg
        exact hs.wired.link_dead hp
    | _ => cases hg
  client_lt := by
    intro k pkt hw
    rw [h.nextConn]
    exact hs.client_lt hw
  dropping := by
    intro k pkt y hw hg
    obtain ⟨rfl, hy⟩ := h.drops hs.whole hw hg
    exact hy
  dropped := by
    intro k pkt hw hg hk
    rcases h.had_dropped hg with ⟨y, hy, rfl⟩ | hg
    · rw [← hs.dropping hw hy] at hk
      exact hs.wired.not_live_removeSession hk
    · exact hs.dropped hw hg (h.live hk)
  connected := by
    intro p k hw
    obtain ⟨hlt, hdead⟩ := hs.connected hw
    rw [h.nextConn]
    exact ⟨hlt, fun hk => hdead (h.live hk)⟩

/-- **Wired.**  A program run alone leaves sessions filed under the handles of their sockets. -/
theorem wired_prog (hs : s.connManager.Wired)
    (hclient : ∀ {k pkt}, w = .task (.client k pkt) → k < s.connManager.nextConn)
    (hconn : ∀ {p k}, w = .connected p k → k < s.connManager.nextConn ∧ ¬ s.connManager.Live k) :
    (w.prog.run s).state.connManager.Wired := by
  have hstart : Phase.Wires w .start s :=
    ⟨hs, Or.inl rfl, (fun h => nomatch h), hclient, (fun _ h => nomatch h), (fun _ h => nomatch h),
      hconn⟩
  obtain ⟨g, hg⟩ := w.goes.run (I := Phase.Wires w) Phase.Step.wires hstart
  exact hg.wired

end

end DistributedChat
