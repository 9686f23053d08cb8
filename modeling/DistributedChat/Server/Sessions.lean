import DistributedChat.Server.Handlers

/-!
# The session and node objects

`ConnectionManager.Ok` relates the maps of the connection manager to the objects
they point to: a session is filed under its socket's handle, the links of peers
are sockets of their own, and a session that is not logged in is as new.  Every
critical section keeps it, with what the thread that enters it knows.

The invariant says nothing about `m_sessionsByUsername`, which a second login on
one connection spoils.
-/

namespace DistributedChat

/-- A session is as new or it is logged in under a name of a valid form. -/
structure ClientSession.Ok (session : ClientSession) : Prop where
  blank : session.isAuthenticated = false → session = {}
  named : session.isAuthenticated = true → session.username ≠ [] ∧ NulFree session.username

namespace ConnectionManager

/-- The session is in `m_sessionsBySocket`. -/
def Live (m : ConnectionManager) (k : ConnRef) : Prop := k ∈ m.getAllSessions

instance (m : ConnectionManager) (k : ConnRef) : Decidable (m.Live k) :=
  inferInstanceAs (Decidable (k ∈ m.getAllSessions))

@[simp] theorem isLive_eq_true {m : ConnectionManager} {k : ConnRef} :
    m.isLive k = true ↔ m.Live k :=
  decide_eq_true_iff

theorem live_iff {m : ConnectionManager} {k : ConnRef} :
    m.Live k ↔ ∃ h, m.sessionsBySocket.lookup h = some k :=
  Table.mem_values_iff

/-- Removing a session makes no other one live. -/
theorem live_of_live_removeSession {m : ConnectionManager} {h : SOCKET} {k : ConnRef}
    (hk : (m.removeSession h).Live k) : m.Live k := by
  rw [live_iff] at hk ⊢
  obtain ⟨x, hx⟩ := hk
  rw [removeSession] at hx
  split at hx
  · exact ⟨x, hx⟩
  · rw [Table.lookup_erase] at hx
    split at hx
    · cases hx
    · exact ⟨x, hx⟩

/-- Two states of the connection manager that differ in sockets and links only. -/
structure SameSessions (m m' : ConnectionManager) : Prop where
  bySocket : m'.sessionsBySocket = m.sessionsBySocket
  byUsername : m'.sessionsByUsername = m.sessionsByUsername
  objects : m'.sessions = m.sessions
  next : m'.nextConn = m.nextConn
  peers : m'.peerNodes = m.peerNodes

theorem SameSessions.refl (m : ConnectionManager) : SameSessions m m := ⟨rfl, rfl, rfl, rfl, rfl⟩

theorem SameSessions.trans {m m' m'' : ConnectionManager} (h : SameSessions m m')
    (h' : SameSessions m' m'') : SameSessions m m'' :=
  ⟨h'.bySocket.trans h.bySocket, h'.byUsername.trans h.byUsername, h'.objects.trans h.objects,
    h'.next.trans h.next, h'.peers.trans h.peers⟩

theorem SameSessions.live {m m' : ConnectionManager} (h : SameSessions m m') (k : ConnRef) :
    m'.Live k ↔ m.Live k := by
  rw [Live, getAllSessions, h.bySocket]
  rfl

/-- The maps of the connection manager agree with the objects they point to. -/
structure Ok (m : ConnectionManager) : Prop where
  handle_eq : ∀ {h k}, m.sessionsBySocket.lookup h = some k → m.getHandle k = h
  live_lt : ∀ {k}, m.Live k → k < m.nextConn
  link_lt : ∀ {p k}, (m.nodes p).socket = some k → k < m.nextConn
  link_dead : ∀ {p k}, (m.nodes p).socket = some k → ¬ m.Live k
  link_inj : ∀ {p q k}, (m.nodes p).socket = some k → (m.nodes q).socket = some k → p = q
  connected_eq : ∀ p, (m.nodes p).isConnected = (m.nodes p).socket.isSome
  session_ok : ∀ k, (m.sessions k).Ok

section

variable {m : ConnectionManager} {k j : ConnRef} {r u : Bytes}

theorem Ok.lookup_getHandle (h : m.Ok) (hk : m.Live k) :
    m.sessionsBySocket.lookup (m.getHandle k) = some k := by
  obtain ⟨x, hx⟩ := live_iff.mp hk
  rw [h.handle_eq hx, hx]

theorem Ok.linkSocket_eq (h : m.Ok) (p : Int) : m.linkSocket p = (m.nodes p).socket := by
  rw [linkSocket, h.connected_eq]
  cases (m.nodes p).socket <;> rfl

/-- A user name is the name of an authenticated session only. -/
theorem Ok.username_eq_nil_iff (h : m.Ok) (k : ConnRef) :
    (m.sessions k).username = [] ↔ (m.sessions k).isAuthenticated = false := by
  cases ha : (m.sessions k).isAuthenticated with
  | true => exact ⟨fun hu => absurd hu ((h.session_ok k).named ha).1, fun hf => nomatch hf⟩
  | false => exact ⟨fun _ => rfl, fun _ => by rw [(h.session_ok k).blank ha]⟩

theorem Ok.nulFree_username (h : m.Ok) (k : ConnRef) : NulFree (m.sessions k).username := by
  cases ha : (m.sessions k).isAuthenticated with
  | true => exact ((h.session_ok k).named ha).2
  | false =>
      rw [(h.session_ok k).blank ha]
      exact List.not_mem_nil

/-! ## Sections on sessions -/

@[simp] theorem live_authenticateSession :
    (m.authenticateSession k u).Live j ↔ m.Live j := Iff.rfl

@[simp] theorem live_joinRoom : (m.joinRoom k r).Live j ↔ m.Live j := Iff.rfl

@[simp] theorem live_leaveRoom : (m.leaveRoom k r).Live j ↔ m.Live j := Iff.rfl

theorem Ok.authenticateSession (h : m.Ok) (hu : u ≠ [] ∧ NulFree u) :
    (m.authenticateSession k u).Ok :=
  { h with
    session_ok := by
      intro j
      rw [sessions_authenticateSession]
      split
      · exact ⟨Bool.noConfusion, fun _ => hu⟩
      · exact h.session_ok j }

theorem Ok.joinRoom (h : m.Ok) (ha : (m.sessions k).isAuthenticated = true) :
    (m.joinRoom k r).Ok :=
  { h with
    session_ok := by
      intro j
      rw [sessions_joinRoom]
      split
      · exact ⟨fun hf => absurd ha (by rw [hf]; exact Bool.false_ne_true),
          (h.session_ok k).named⟩
      · exact h.session_ok j }

theorem Ok.leaveRoom (h : m.Ok) (ha : (m.sessions k).isAuthenticated = true) :
    (m.leaveRoom k r).Ok :=
  { h with
    session_ok := by
      intro j
      rw [sessions_leaveRoom]
      split
      · exact ⟨fun hf => absurd ha (by rw [hf]; exact Bool.false_ne_true),
          (h.session_ok k).named⟩
      · exact h.session_ok j }

/-- Removing the session on its handle leaves the other entries. -/
theorem Ok.lookup_removeSession (h : m.Ok) (hk : m.Live k) (x : SOCKET) :
    (m.removeSession (m.getHandle k)).sessionsBySocket.lookup x =
      if x = m.getHandle k then none else m.sessionsBySocket.lookup x := by
  simp only [removeSession, h.lookup_getHandle hk, Table.lookup_erase]

/-- A removed session's user name is free. -/
theorem Ok.getSessionByUsername_removeSession (h : m.Ok) (hk : m.Live k) (v : Bytes) :
    (m.removeSession (m.getHandle k)).getSessionByUsername v =
      if (m.sessions k).username ≠ [] ∧ v = (m.sessions k).username then none
      else m.getSessionByUsername v := by
  simp only [removeSession, h.lookup_getHandle hk, getSessionByUsername]
  by_cases hu : (m.sessions k).username = []
  · rw [if_pos hu, if_neg fun hn => hn.1 hu]
  · rw [if_neg hu, Table.lookup_erase]
    simp only [ne_eq, hu, not_false_eq_true, true_and]

theorem Ok.live_removeSession (h : m.Ok) (hk : m.Live k) :
    (m.removeSession (m.getHandle k)).Live j ↔ m.Live j ∧ j ≠ k := by
  simp only [live_iff, h.lookup_removeSession hk]
  constructor
  · intro hj
    obtain ⟨x, hx⟩ := hj
    split at hx
    · cases hx
    next hne =>
      refine ⟨⟨x, hx⟩, fun hjk => hne ?_⟩
      rw [← h.handle_eq hx, hjk]
  · intro hj
    obtain ⟨⟨x, hx⟩, hjk⟩ := hj
    refine ⟨x, ?_⟩
    rw [if_neg, hx]
    intro he
    rw [he, h.lookup_getHandle hk] at hx
    exact hjk (Option.some.inj hx).symm

theorem Ok.removeSession (h : m.Ok) (hk : m.Live k) :
    (m.removeSession (m.getHandle k)).Ok where
  handle_eq := by
    intro x j hx
    rw [h.lookup_removeSession hk] at hx
    split at hx
    · cases hx
    · rw [getHandle, sockets_removeSession]
      exact h.handle_eq hx
  live_lt := by
    intro j hj
    rw [nextConn_removeSession]
    exact h.live_lt ((h.live_removeSession hk).mp hj).1
  link_lt := by
    rw [nodes_removeSession, nextConn_removeSession]
    exact h.link_lt
  link_dead := by
    rw [nodes_removeSession]
    exact fun hp hj => h.link_dead hp ((h.live_removeSession hk).mp hj).1
  link_inj := by
    rw [nodes_removeSession]
    exact h.link_inj
  connected_eq := by
    rw [nodes_removeSession]
    exact h.connected_eq
  session_ok := by
    rw [sessions_removeSession]
    exact h.session_ok

/-! ## Sections on sockets -/

/-- The handle is one a new connection may have: a valid one, on which no
session is filed. -/
def FreeHandle (m : ConnectionManager) (handle : SOCKET) : Prop :=
  handle ≠ invalidSocket ∧ m.sessionsBySocket.lookup handle = none

instance (m : ConnectionManager) (handle : SOCKET) : Decidable (m.FreeHandle handle) :=
  inferInstanceAs (Decidable (_ ∧ _))

/-- An accepted connection: a session on a new socket. -/
def accepted (m : ConnectionManager) (handle : SOCKET) : ConnectionManager :=
  (m.newSocket handle).addSession m.nextConn

theorem lookup_accepted (m : ConnectionManager) (handle x : SOCKET) :
    (m.accepted handle).sessionsBySocket.lookup x =
      if x = handle then some m.nextConn else m.sessionsBySocket.lookup x := by
  have hh : (m.newSocket handle).getHandle m.nextConn = handle := by
    rw [getHandle, sockets_newSocket, if_pos rfl]
  rw [accepted, addSession, Table.lookup_insert, hh]
  rfl

theorem live_accepted {handle : SOCKET} (hf : m.FreeHandle handle) :
    (m.accepted handle).Live j ↔ j = m.nextConn ∨ m.Live j := by
  simp only [live_iff, lookup_accepted]
  constructor
  · intro hj
    obtain ⟨x, hx⟩ := hj
    split at hx
    · exact Or.inl (Option.some.inj hx).symm
    · exact Or.inr ⟨x, hx⟩
  · intro hj
    cases hj with
    | inl hj => exact ⟨handle, by rw [if_pos rfl, hj]⟩
    | inr hj =>
        obtain ⟨x, hx⟩ := hj
        refine ⟨x, ?_⟩
        rw [if_neg, hx]
        intro he
        rw [he, hf.2] at hx
        cases hx

/-- A socket object that exists keeps its handle when a new one is made. -/
theorem getHandle_newSocket_of_lt {handle : SOCKET} (hk : k < m.nextConn) :
    (m.newSocket handle).getHandle k = m.getHandle k := by
  rw [getHandle, sockets_newSocket, if_neg (Nat.ne_of_lt hk), getHandle]

theorem Ok.accepted (h : m.Ok) {handle : SOCKET} (hf : m.FreeHandle handle) :
    (m.accepted handle).Ok where
  handle_eq := by
    intro x j hx
    rw [lookup_accepted] at hx
    split at hx
    next hxh =>
      cases hx
      change (m.newSocket handle).getHandle m.nextConn = x
      rw [getHandle, sockets_newSocket, if_pos rfl, hxh]
    · exact (getHandle_newSocket_of_lt (h.live_lt (live_iff.mpr ⟨x, hx⟩))).trans (h.handle_eq hx)
  live_lt := by
    intro j hj
    cases (live_accepted hf).mp hj with
    | inl hj => exact hj ▸ Nat.lt_succ_self _
    | inr hj => exact Nat.lt_succ_of_lt (h.live_lt hj)
  link_lt := fun hp => Nat.lt_succ_of_lt (h.link_lt hp)
  link_dead := by
    intro p j hp hj
    cases (live_accepted hf).mp hj with
    | inl hj => exact absurd (hj ▸ h.link_lt hp) (Nat.lt_irrefl _)
    | inr hj => exact h.link_dead hp hj
  link_inj := h.link_inj
  connected_eq := h.connected_eq
  session_ok := by
    intro j
    change ((m.newSocket handle).sessions j).Ok
    rw [sessions_newSocket]
    split
    · exact ⟨fun _ => rfl, Bool.noConfusion⟩
    · exact h.session_ok j

theorem nodes_unlinked (m : ConnectionManager) {p : Int} (hp : p ∈ m.peerNodes) (now : Nat)
    (q : Int) :
    (m.unlinked p now).nodes q = if q = p then (m.nodes p).setSocket none now else m.nodes q := by
  rw [unlinked]
  cases (m.nodes p).socket with
  | none =>
      rw [unregisterPeerSocket, if_pos hp]
      exact Function.update_apply ..
  | some k =>
      have hp' : p ∈ (m.closeSocket k).peerNodes := hp
      rw [unregisterPeerSocket, if_pos hp']
      exact Function.update_apply ..

theorem sameSessions_unlinked (m : ConnectionManager) (p : Int) (now : Nat) :
    SameSessions m (m.unlinked p now) := by
  rw [unlinked]
  cases (m.nodes p).socket <;> simp only [unregisterPeerSocket] <;> split <;>
    exact ⟨rfl, rfl, rfl, rfl, rfl⟩

/-- Only the link's own socket is closed. -/
theorem sockets_unlinked (m : ConnectionManager) {p : Int} (now : Nat)
    (hk : (m.nodes p).socket ≠ some k) : (m.unlinked p now).sockets k = m.sockets k := by
  rw [unlinked]
  cases hs : (m.nodes p).socket with
  | none =>
      simp only [unregisterPeerSocket]
      split <;> rfl
  | some l =>
      have hkl : k ≠ l := fun he => hk (he ▸ hs)
      simp only [unregisterPeerSocket]
      split <;> simp only [sockets_closeSocket, if_neg hkl]

theorem Ok.unlinked (h : m.Ok) {p : Int} (hp : p ∈ m.peerNodes) (now : Nat) :
    (m.unlinked p now).Ok := by
  have hsame := sameSessions_unlinked m p now
  have hsock : ∀ {q j}, ((m.unlinked p now).nodes q).socket = some j →
      q ≠ p ∧ (m.nodes q).socket = some j := by
    intro q j hq
    rw [nodes_unlinked m hp] at hq
    split at hq
    · cases hq
    next hne => exact ⟨hne, hq⟩
  refine ⟨?_, ?_, ?_, ?_, ?_, ?_, ?_⟩
  · intro x j hx
    rw [hsame.bySocket] at hx
    rw [getHandle, sockets_unlinked m now fun hs => h.link_dead hs (live_iff.mpr ⟨x, hx⟩)]
    exact h.handle_eq hx
  · intro j hj
    rw [hsame.next]
    exact h.live_lt ((hsame.live j).mp hj)
  · intro q j hq
    rw [hsame.next]
    exact h.link_lt (hsock hq).2
  · intro q j hq hj
    exact h.link_dead (hsock hq).2 ((hsame.live j).mp hj)
  · intro q q' j hq hq'
    exact h.link_inj (hsock hq).2 (hsock hq').2
  · intro q
    rw [nodes_unlinked m hp]
    split
    · rfl
    · exact h.connected_eq q
  · rw [hsame.objects]
    exact h.session_ok

theorem nodes_linked (m : ConnectionManager) {p : Int} (hp : p ∈ m.peerNodes) (now : Nat)
    (q : Int) :
    (m.linked p k now).nodes q =
      if q = p then { socket := some k, isConnected := true, lastHeartbeatTime := now }
      else m.nodes q := by
  rw [linked, nodes_updateHeartbeat]
  split
  · rw [nodes_setConnected, if_pos rfl, registerPeerSocket, if_pos hp]
    simp [ServerNode.setSocket]
  next hne =>
    rw [nodes_setConnected, if_neg hne, registerPeerSocket, if_pos hp]
    exact Function.update_of_ne hne ..

theorem sameSessions_linked (m : ConnectionManager) (p : Int) (k : ConnRef) (now : Nat) :
    SameSessions m (m.linked p k now) ∧ (m.linked p k now).sockets = m.sockets := by
  simp only [linked, updateHeartbeat, setConnected, registerPeerSocket]
  split <;> exact ⟨⟨rfl, rfl, rfl, rfl, rfl⟩, rfl⟩

/-- A socket may become the link of a peer if it is neither a session's nor a link. -/
theorem Ok.linked (h : m.Ok) {p : Int} (hp : p ∈ m.peerNodes) (hlt : k < m.nextConn)
    (hdead : ¬ m.Live k) (hnew : ∀ q, (m.nodes q).socket ≠ some k) (now : Nat) :
    (m.linked p k now).Ok := by
  have hsock : ∀ {q j}, ((m.linked p k now).nodes q).socket = some j →
      (q = p ∧ j = k) ∨ (q ≠ p ∧ (m.nodes q).socket = some j) := by
    intro q j hq
    rw [nodes_linked m hp] at hq
    split at hq
    next he => exact Or.inl ⟨he, (Option.some.inj hq).symm⟩
    next hne => exact Or.inr ⟨hne, hq⟩
  obtain ⟨hsame, hsockets⟩ := sameSessions_linked m p k now
  refine ⟨?_, ?_, ?_, ?_, ?_, ?_, ?_⟩
  · intro x j hx
    rw [hsame.bySocket] at hx
    rw [getHandle, hsockets]
    exact h.handle_eq hx
  · intro j hj
    rw [hsame.next]
    exact h.live_lt ((hsame.live j).mp hj)
  · intro q j hq
    rw [hsame.next]
    cases hsock hq with
    | inl he => exact he.2 ▸ hlt
    | inr hq => exact h.link_lt hq.2
  · intro q j hq hj
    cases hsock hq with
    | inl he => exact hdead (he.2 ▸ (hsame.live j).mp hj)
    | inr hq => exact h.link_dead hq.2 ((hsame.live j).mp hj)
  · intro q q' j hq hq'
    cases hsock hq with
    | inl he =>
        cases hsock hq' with
        | inl he' => rw [he.1, he'.1]
        | inr hq' => exact absurd (he.2 ▸ hq'.2) (hnew q')
    | inr hq =>
        cases hsock hq' with
        | inl he' => exact absurd (he'.2 ▸ hq.2) (hnew q)
        | inr hq' => exact h.link_inj hq.2 hq'.2
  · intro q
    rw [nodes_linked m hp]
    split
    · rfl
    · exact h.connected_eq q
  · rw [hsame.objects]
    exact h.session_ok

theorem sameSessions_updateHeartbeat (m : ConnectionManager) (p : Int) (now : Nat) :
    SameSessions m (m.updateHeartbeat p now) := ⟨rfl, rfl, rfl, rfl, rfl⟩

theorem socket_updateHeartbeat (m : ConnectionManager) (p q : Int) (now : Nat) :
    ((m.updateHeartbeat p now).nodes q).socket = (m.nodes q).socket := by
  rw [nodes_updateHeartbeat]
  split
  next he => rw [he]
  · rfl

theorem Ok.updateHeartbeat (h : m.Ok) (p : Int) (now : Nat) : (m.updateHeartbeat p now).Ok := by
  refine ⟨h.handle_eq, h.live_lt, ?_, ?_, ?_, ?_, h.session_ok⟩
  · intro q j hq
    rw [socket_updateHeartbeat] at hq
    exact h.link_lt hq
  · intro q j hq
    rw [socket_updateHeartbeat] at hq
    exact h.link_dead hq
  · intro q q' j hq hq'
    rw [socket_updateHeartbeat] at hq hq'
    exact h.link_inj hq hq'
  · intro q
    rw [socket_updateHeartbeat, nodes_updateHeartbeat, ← h.connected_eq]
    split
    next he => rw [he]
    · rfl

end

end ConnectionManager

namespace ChatServer

open Prog (observe update each)

section

variable {s s' : ChatServer} {k : ConnRef} {pkt out : RawPacket} {ps : List Int}

/-! ## Handled packets -/

theorem ok_removed (h : s.connManager.Ok) (hk : s.connManager.Live k) :
    (s.removed k).connManager.Ok :=
  h.removeSession hk

/-- Handling a packet of a session keeps the objects in order. -/
theorem ClientStep.ok (hs : ClientStep s k pkt s' ps out) (h : s.connManager.Ok)
    (hk : s.connManager.Live k) : s'.connManager.Ok := by
  cases hs with
  | idle => exact h
  | login u ht ha => exact h.authenticateSession ⟨fun he => ha.2.1 (Or.inl he),
      fun hn => ha.2.1 (Or.inr (Or.inl hn))⟩
  | firstJoin r ht hr hne ha hm => exact h.joinRoom ha
  | join r ht hr hne ha hm => exact h.joinRoom ha
  | lastLeave r ht hr hne ha hj hm => exact h.leaveRoom ha
  | leave r ht hr hne ha hj hm => exact h.leaveRoom ha
  | routePrivate => exact h
  | routeRoom => exact h
  | broadcast => exact h
  | promote p ht hp =>
      rw [promoted]
      split
      next hpeer =>
        have hpeer' : p ∈ (s.removed k).connManager.peerNodes := by
          rw [removed, onConn_connManager, ConnectionManager.peerNodes_removeSession]
          exact hpeer
        have hlt : k < (s.removed k).connManager.nextConn := by
          rw [removed, onConn_connManager, ConnectionManager.nextConn_removeSession]
          exact h.live_lt hk
        refine (ok_removed h hk).linked hpeer' hlt ?_ ?_ _
        · intro hlive
          exact ((h.live_removeSession hk).mp hlive).2 rfl
        · intro q hq
          rw [removed, onConn_connManager, ConnectionManager.nodes_removeSession] at hq
          exact h.link_dead hq hk
      · exact ok_removed h hk

/-- A handled packet changes neither the server's id nor its peers. -/
theorem ClientStep.same (hs : ClientStep s k pkt s' ps out) :
    s'.serverId = s.serverId ∧ s'.connManager.peerNodes = s.connManager.peerNodes := by
  cases hs with
  | promote p ht hp =>
      have hrem : (s.removed k).connManager.peerNodes = s.connManager.peerNodes :=
        ConnectionManager.peerNodes_removeSession ..
      rw [promoted]
      split
      · refine ⟨rfl, ?_⟩
        have hlink := (ConnectionManager.sameSessions_linked (s.removed k).connManager p k
          (s.removed k).now).1.peers
        exact hlink.trans hrem
      · exact ⟨rfl, hrem⟩
  | _ => exact ⟨rfl, rfl⟩

theorem ok_dropBroken (h : s.connManager.Ok) (ps : List Int) : (s.dropBroken ps).connManager.Ok :=
  dropBroken_induct (I := fun t => t.connManager.Ok)
    (fun t _ ht hp _ => ht.unlinked hp t.now) h ps

theorem serverId_dropBroken (s : ChatServer) (ps : List Int) :
    (s.dropBroken ps).serverId = s.serverId :=
  dropBroken_induct (I := fun t => t.serverId = s.serverId) (fun _ _ ht _ _ => ht) rfl ps

/-- A round of sends leaves every session as it was. -/
theorem sameSessions_dropBroken (s : ChatServer) (ps : List Int) :
    s.connManager.SameSessions (s.dropBroken ps).connManager :=
  dropBroken_induct (I := fun t => s.connManager.SameSessions t.connManager)
    (fun t p ht _ _ => ht.trans (ConnectionManager.sameSessions_unlinked t.connManager p t.now))
    (.refl _) ps

/-- A session keeps its handle through a round of sends. -/
theorem getHandle_dropBroken (h : s.connManager.Ok) (hk : s.connManager.Live k) (ps : List Int) :
    (s.dropBroken ps).connManager.getHandle k = s.connManager.getHandle k := by
  have hlook := h.lookup_getHandle hk
  rw [← (sameSessions_dropBroken s ps).bySocket] at hlook
  exact (ok_dropBroken h ps).handle_eq hlook

/-- The end of a session is its user's logout, a round of sends and its removal. -/
theorem state_clientDisconnect_of_live (h : s.connManager.Ok) (hk : s.connManager.Live k) :
    ((clientDisconnect k).run s).state =
      if s.nameOf k = [] then s.removed k
      else ((s.loggedOut k).dropBroken s.connManager.getAllPeerNodes).removed k := by
  rw [state_clientDisconnect]
  split
  · rfl
  · have hh : ((s.loggedOut k).dropBroken s.connManager.getAllPeerNodes).connManager.getHandle k =
        s.connManager.getHandle k :=
      getHandle_dropBroken (s := s.loggedOut k) h hk s.connManager.getAllPeerNodes
    rw [removed, onConn, onConn, hh]

theorem run_acceptConnection (s : ChatServer) (handle : SOCKET) :
    (acceptConnection handle).run s = ⟨(), s.onConn (·.accepted handle), []⟩ := rfl

theorem received_connManager (s : ChatServer) (p : Int) (pkt : RawPacket) :
    (s.received p pkt).connManager = s.connManager.updateHeartbeat p s.now := by
  rw [ChatServer.received]
  split <;> rfl

end

/-! ## Who holds a name -/

/-- The session has logged in. -/
def Authenticated (s : ChatServer) (k : ConnRef) : Prop :=
  (s.connManager.sessions k).isAuthenticated = true

instance (s : ChatServer) (k : ConnRef) : Decidable (s.Authenticated k) :=
  inferInstanceAs (Decidable (_ = true))

/-- The session is authenticated under the name. -/
def Holds (s : ChatServer) (k : ConnRef) (u : Bytes) : Prop :=
  s.connManager.Live k ∧ (s.connManager.sessions k).isAuthenticated = true ∧ s.nameOf k = u

instance (s : ChatServer) (k : ConnRef) (u : Bytes) : Decidable (s.Holds k u) :=
  inferInstanceAs (Decidable (_ ∧ _ ∧ _))

section

variable {s s' : ChatServer} {k j : ConnRef} {pkt out : RawPacket} {ps : List Int} {u v r : Bytes}

theorem holds_loggedIn (hk : s.connManager.Live k) :
    (s.loggedIn k u).Holds j v ↔ (j = k ∧ v = u) ∨ (j ≠ k ∧ s.Holds j v) := by
  simp only [Holds, nameOf, loggedIn, onConn_connManager, onUsers_connManager,
    ConnectionManager.live_authenticateSession, ConnectionManager.sessions_authenticateSession]
  by_cases hj : j = k
  · subst hj
    simpa [hk] using eq_comm
  · simp [hj]

theorem holds_joined : (s.joined k r).Holds j v ↔ s.Holds j v := by
  simp only [Holds, nameOf, joined, onRooms_connManager, onConn_connManager,
    ConnectionManager.live_joinRoom, ConnectionManager.sessions_joinRoom]
  by_cases hj : j = k <;> simp [hj]

theorem holds_left : (s.left k r).Holds j v ↔ s.Holds j v := by
  simp only [Holds, nameOf, left, onRooms_connManager, onConn_connManager,
    ConnectionManager.live_leaveRoom, ConnectionManager.sessions_leaveRoom]
  by_cases hj : j = k <;> simp [hj]

theorem holds_removed (h : s.connManager.Ok) (hk : s.connManager.Live k) :
    (s.removed k).Holds j v ↔ s.Holds j v ∧ j ≠ k := by
  simp only [Holds, nameOf, removed, onConn_connManager, h.live_removeSession hk,
    ConnectionManager.sessions_removeSession]
  tauto

theorem holds_of_sameSessions (h : s.connManager.SameSessions s'.connManager) :
    s'.Holds j v ↔ s.Holds j v := by
  simp only [Holds, nameOf, h.live, h.objects]

theorem holds_accepted (h : s.connManager.Ok) {handle : SOCKET}
    (hf : s.connManager.FreeHandle handle) :
    (s.onConn (·.accepted handle)).Holds j v ↔ s.Holds j v := by
  have hlive : (s.onConn (·.accepted handle)).connManager.Live j ↔
      j = s.connManager.nextConn ∨ s.connManager.Live j := ConnectionManager.live_accepted hf
  have hobj : (s.onConn (·.accepted handle)).connManager.sessions j =
      if j = s.connManager.nextConn then {} else s.connManager.sessions j :=
    ConnectionManager.sessions_newSocket s.connManager j handle
  simp only [Holds, nameOf, hlive, hobj]
  by_cases hj : j = s.connManager.nextConn
  · have hdead : ¬ s.connManager.Live s.connManager.nextConn :=
      fun hl => Nat.lt_irrefl _ (h.live_lt hl)
    subst hj
    simp [hdead]
  · simp [hj]

/-- A new socket is nobody's. -/
theorem authenticated_newSocket {h : SOCKET}
    (hs : s'.connManager.sessions = (s.connManager.newSocket h).sessions) :
    s'.Authenticated j ↔ j ≠ s.connManager.nextConn ∧ s.Authenticated j := by
  rw [Authenticated, hs, ConnectionManager.sessions_newSocket]
  split
  next hj => exact ⟨Bool.noConfusion, fun hn => absurd hj hn.1⟩
  next hj => exact ⟨fun ha => ⟨hj, ha⟩, And.right⟩

theorem nameOf_newSocket {h : SOCKET}
    (hs : s'.connManager.sessions = (s.connManager.newSocket h).sessions) :
    s'.nameOf j = if j = s.connManager.nextConn then [] else s.nameOf j := by
  rw [nameOf, hs, ConnectionManager.sessions_newSocket]
  split <;> rfl

theorem authenticated_accepted {h : SOCKET} : (s.onConn (·.accepted h)).Authenticated j ↔
    j ≠ s.connManager.nextConn ∧ s.Authenticated j :=
  authenticated_newSocket (h := h) rfl

theorem Holds.name_unique (h : s.Holds k u) (h' : s.Holds k v) : u = v :=
  h.2.2.symm.trans h'.2.2

theorem Holds.ne_nil (h : s.Holds k u) (hok : s.connManager.Ok) : u ≠ [] :=
  h.2.2 ▸ ((hok.session_ok k).named h.2.1).1

/-- A live session with a name holds it. -/
theorem holds_nameOf (hok : s.connManager.Ok) (hk : s.connManager.Live k) (hn : s.nameOf k ≠ []) :
    s.Holds k (s.nameOf k) := by
  refine ⟨hk, ?_, rfl⟩
  cases ha : (s.connManager.sessions k).isAuthenticated with
  | true => rfl
  | false => exact absurd ((hok.username_eq_nil_iff k).mpr ha) hn

end

/-! ## A server that has just been configured -/

/-- Configuring peers adds their ids and changes nothing else. -/
theorem foldl_addPeerNode (ps : List Int) (m : ConnectionManager)
    (hm : ∀ p, m.nodes p = {}) :
    let m' := ps.foldl ConnectionManager.addPeerNode m
    (∀ b, b ∈ m'.peerNodes ↔ b ∈ ps ∨ b ∈ m.peerNodes) ∧ (∀ p, m'.nodes p = {}) ∧
      m'.sessions = m.sessions ∧ m'.sessionsBySocket = m.sessionsBySocket ∧
      m'.sessionsByUsername = m.sessionsByUsername ∧ m'.nextConn = m.nextConn := by
  induction ps generalizing m with
  | nil => exact ⟨fun b => (or_iff_right List.not_mem_nil).symm, hm, rfl, rfl, rfl, rfl⟩
  | cons p ps ih =>
      have hnodes : ∀ q, (m.addPeerNode p).nodes q = {} := by
        intro q
        change Function.update m.nodes p {} q = {}
        rw [Function.update_apply]
        split
        · rfl
        · exact hm q
      obtain ⟨hpeers, hrest⟩ := ih (m.addPeerNode p) hnodes
      refine ⟨fun b => ?_, hrest⟩
      have hin : b ∈ (m.addPeerNode p).peerNodes ↔ b = p ∨ b ∈ m.peerNodes := ListSet.mem_insert
      rw [List.foldl_cons, hpeers, hin, List.mem_cons]
      tauto

/-- A server that has just been configured, with the peers of its configuration. -/
def configured (id : Int) (peers : List Int) : ChatServer :=
  { serverId := id, connManager := peers.foldl ConnectionManager.addPeerNode {} }

theorem configured_connManager (id : Int) (peers : List Int) :
    (∀ b, b ∈ (configured id peers).connManager.peerNodes ↔ b ∈ peers) ∧
      (∀ p, (configured id peers).connManager.nodes p = {}) ∧
      (∀ k, (configured id peers).connManager.sessions k = {}) ∧
      (configured id peers).connManager.sessionsBySocket = ∅ ∧
      (configured id peers).connManager.sessionsByUsername = ∅ ∧
      (configured id peers).connManager.nextConn = 0 := by
  obtain ⟨hpeers, hnodes, hobj, hsock, hname, hnext⟩ := foldl_addPeerNode peers {} fun _ => rfl
  refine ⟨fun b => ?_, hnodes, fun k => congrFun hobj k, hsock, hname, hnext⟩
  exact (hpeers b).trans (or_iff_left (ListSet.notMem_empty b))

theorem not_live_configured (id : Int) (peers : List Int) (k : ConnRef) :
    ¬ (configured id peers).connManager.Live k := by
  rw [ConnectionManager.live_iff, (configured_connManager id peers).2.2.2.1]
  exact fun h => h.elim fun _ hk => Option.noConfusion rfl (heq_of_eq hk)

theorem ok_configured (id : Int) (peers : List Int) : (configured id peers).connManager.Ok := by
  obtain ⟨-, hnodes, hobj, hsock, -⟩ := configured_connManager id peers
  refine ⟨?_, ?_, ?_, ?_, ?_, ?_, ?_⟩
  · intro h k hk
    rw [hsock] at hk
    exact Option.noConfusion rfl (heq_of_eq hk)
  · exact fun hk => absurd hk (not_live_configured id peers _)
  · intro p k hp
    rw [hnodes] at hp
    cases hp
  · intro p k hp
    rw [hnodes] at hp
    cases hp
  · intro p q k hp
    rw [hnodes] at hp
    cases hp
  · intro p
    rw [hnodes]
    rfl
  · intro k
    rw [hobj]
    exact ⟨fun _ => rfl, Bool.noConfusion⟩

end ChatServer

end DistributedChat
