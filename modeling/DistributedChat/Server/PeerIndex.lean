import DistributedChat.Logic.Runs
import DistributedChat.Server.Purges

/-!
# The index of peer sockets

`m_peerNodesBySocket` leads from the handle of a socket to the peer the socket is
registered for.  `RegisterPeerSocket` adds an entry under the handle of the new
socket and leaves the one under the handle of the old socket.
`UnregisterPeerSocket` erases the entry under the handle the socket has by then,
and `HandlePeerDisconnect` has closed the socket before, so that it erases under
`INVALID_SOCKET`.  In both cases the entry of the old socket stays.

So the index is right as long as no peer that has a socket gets another one or is
disconnected, and no longer (`indexed_iff`).
-/

namespace DistributedChat

namespace ConnectionManager

/-- The handle of the current socket of a peer. -/
def peerHandle (m : ConnectionManager) (p : Int) : Option SOCKET := (m.nodes p).socket.map m.getHandle

/-- The index leads from a handle to the peer whose current socket has it, and to no peer from the
handle of a closed socket. -/
structure Indexed (m : ConnectionManager) : Prop where
  exact : m.peerNodesBySocket.Indexes m.peerHandle
  noClosed : m.peerNodesBySocket.lookup invalidSocket = none

/-- What is known of the sockets of the peers whatever the index has. -/
structure PeersOpen (m : ConnectionManager) : Prop where
  /-- Only peers have sockets. -/
  mem : ∀ p, (m.nodes p).socket ≠ none → p ∈ m.peerNodes
  /-- A peer is connected if it has a socket. -/
  connected : ∀ p, (m.nodes p).isConnected = (m.nodes p).socket.isSome
  /-- The sockets are open. -/
  isOpen : ∀ p k, (m.nodes p).socket = some k → m.getHandle k ≠ invalidSocket

end ConnectionManager

namespace ChatServer

/-- A call that changes the index. -/
inductive IndexCall where
  /-- `RegisterPeerSocket`. -/
  | register (p : Int) (k : ConnRef)
  /-- `HandlePeerDisconnect`. -/
  | disconnect (p : Int)
deriving DecidableEq, Repr

/-- The socket is open, and no other peer has a socket with its handle. -/
def Distinct (s : ChatServer) (p : Int) (k : ConnRef) : Prop :=
  s.connManager.getHandle k ≠ invalidSocket ∧ ∀ q ∈ s.connManager.getAllPeerNodes, q ≠ p →
    s.connManager.peerHandle q ≠ some (s.connManager.getHandle k)

instance (s : ChatServer) (p : Int) (k : ConnRef) : Decidable (s.Distinct p k) :=
  inferInstanceAs (Decidable (_ ∧ _))

/-- One call; sockets have distinct handles. -/
def indexNext (s : ChatServer) : IndexCall → Option ChatServer
  | .register p k =>
      if s.Distinct p k then some (s.onConn (·.registerPeerSocket p k s.now)) else none
  | .disconnect p => some ((handlePeerDisconnect p).run s).state

/-- A server with the given peers as it starts, and sockets it will get to know. -/
def withSockets (id : Int) (peers : List Int) (sockets : ConnRef → TcpSocket) : ChatServer :=
  (configured id peers).onConn fun m => { m with sockets := sockets }

/-- A peer that has a socket keeps it. -/
def KeepsSocket (s : ChatServer) : IndexCall → Prop
  | .register p k => ∀ h, s.connManager.peerHandle p = some h → h = s.connManager.getHandle k
  | .disconnect p => ¬ s.PeerConnected p

instance (s : ChatServer) : DecidablePred s.KeepsSocket := fun
  | .register p k => inferInstanceAs (Decidable (∀ h ∈ s.connManager.peerHandle p,
      h = s.connManager.getHandle k))
  | .disconnect p => inferInstanceAs (Decidable (¬ s.PeerConnected p))

section

variable {s s' : ChatServer} {p : Int} {k : ConnRef} {c : IndexCall}

theorem peerHandle_registerPeerSocket (hp : p ∈ s.connManager.peerNodes) (now : Nat) :
    (s.connManager.registerPeerSocket p k now).peerHandle =
      Function.update s.connManager.peerHandle p (some (s.connManager.getHandle k)) := by
  funext q
  rw [Function.update_apply, ConnectionManager.peerHandle,
    ConnectionManager.nodes_registerPeerSocket]
  have hsame : (s.connManager.registerPeerSocket p k now).getHandle = s.connManager.getHandle := by
    funext j
    rw [ConnectionManager.getHandle, ConnectionManager.sockets_registerPeerSocket]
    rfl
  by_cases hq : q = p
  · rw [if_pos ⟨hp, hq⟩, if_pos hq, hsame]
    rfl
  · rw [if_neg fun h => hq h.2, if_neg hq, hsame]
    rfl

theorem Distinct.free (hd : s.Distinct p k) (ho : s.connManager.PeersOpen) (q : Int) (hq : q ≠ p) :
    s.connManager.peerHandle q ≠ some (s.connManager.getHandle k) := by
  intro hh
  refine hd.2 q (ho.mem q fun hnone => ?_) hq hh
  rw [ConnectionManager.peerHandle, hnone] at hh
  cases hh

theorem PeersOpen.registerPeerSocket (h : s.connManager.PeersOpen)
    (hk : s.connManager.getHandle k ≠ invalidSocket) (now : Nat) :
    (s.connManager.registerPeerSocket p k now).PeersOpen := by
  by_cases hp : p ∈ s.connManager.peerNodes
  · have hnode (q : Int) : (s.connManager.registerPeerSocket p k now).nodes q =
        if q = p then (s.connManager.nodes p).setSocket (some k) now else s.connManager.nodes q := by
      simp only [ConnectionManager.nodes_registerPeerSocket, hp, true_and]
    refine ⟨fun q hq => ?_, fun q => ?_, fun q j hj => ?_⟩
    · rw [ConnectionManager.peerNodes_registerPeerSocket]
      rw [hnode] at hq
      split at hq
      next he => exact he ▸ hp
      next => exact h.mem q hq
    · rw [hnode]
      split
      · rfl
      · exact h.connected q
    · rw [ConnectionManager.getHandle, ConnectionManager.sockets_registerPeerSocket]
      rw [hnode] at hj
      split at hj
      · cases hj
        exact hk
      · exact h.isOpen q j hj
  · rw [ConnectionManager.registerPeerSocket, if_neg hp]
    exact h

/-- Registering a socket keeps the index exact if and only if the peer keeps its handle. -/
theorem indexed_registerPeerSocket_iff (h : s.connManager.Indexed) (ho : s.connManager.PeersOpen)
    (hd : s.Distinct p k) (now : Nat) :
    (s.connManager.registerPeerSocket p k now).Indexed ↔ s.KeepsSocket (.register p k) := by
  by_cases hp : p ∈ s.connManager.peerNodes
  · have htable : (s.connManager.registerPeerSocket p k now).peerNodesBySocket =
        s.connManager.peerNodesBySocket.insert (s.connManager.getHandle k) p := by
      rw [ConnectionManager.registerPeerSocket, if_pos hp]
    have hiff := h.exact.insert_iff (hd.free ho)
    rw [← htable, ← peerHandle_registerPeerSocket hp now] at hiff
    refine ⟨fun hi => hiff.mp hi.exact, fun hkeep => ⟨hiff.mpr hkeep, ?_⟩⟩
    rw [htable, Table.lookup_insert, if_neg (Ne.symm hd.1)]
    exact h.noClosed
  · have hnone : (s.connManager.nodes p).socket = none := by
      by_contra hne
      exact hp (ho.mem p hne)
    rw [ConnectionManager.registerPeerSocket, if_neg hp]
    refine iff_of_true h fun j hj => ?_
    rw [ConnectionManager.peerHandle, hnone] at hj
    cases hj

/-- The entry of a peer that is disconnected stays. -/
theorem not_indexed_disconnected (h : s.connManager.Indexed) (ho : s.connManager.PeersOpen)
    (hc : s.PeerConnected p) : ¬ ((handlePeerDisconnect p).run s).state.connManager.Indexed := by
  have hpurged := run_handlePeerDisconnect_of_connected hc
  obtain ⟨k, hk⟩ := Option.isSome_iff_exists.mp ((ho.connected p).symm.trans hc.2)
  have hentry : s.connManager.peerNodesBySocket.lookup (s.connManager.getHandle k) = some p :=
    (h.exact _ p).mpr (by rw [ConnectionManager.peerHandle, hk]; rfl)
  rw [← hpurged.bySocket (ho.isOpen p k hk)] at hentry
  intro hi
  have hsock := (hi.exact _ p).mp hentry
  rw [ConnectionManager.peerHandle, (hpurged.node rfl).1] at hsock
  cases hsock

/-- The index is exact, and what is known of the sockets. -/
def IndexOk (s : ChatServer) : Prop := s.connManager.Indexed ∧ s.connManager.PeersOpen

theorem IndexOk.next (h : s.IndexOk) (hk : s.KeepsSocket c) (hn : s.indexNext c = some s') :
    s'.IndexOk := by
  cases c with
  | register p k =>
      obtain ⟨hd, hs⟩ := Option.ite_none_right_eq_some.mp hn
      cases hs
      exact ⟨(indexed_registerPeerSocket_iff h.1 h.2 hd s.now).mpr hk,
        PeersOpen.registerPeerSocket h.2 hd.1 s.now⟩
  | disconnect p =>
      cases hn
      rw [run_handlePeerDisconnect_of_not_connected hk]
      exact h

theorem IndexOk.not_indexed (h : s.IndexOk) (hk : ¬ s.KeepsSocket c)
    (hn : s.indexNext c = some s') : ¬ s'.connManager.Indexed := by
  cases c with
  | register p k =>
      obtain ⟨hd, hs⟩ := Option.ite_none_right_eq_some.mp hn
      cases hs
      exact fun hi => hk ((indexed_registerPeerSocket_iff h.1 h.2 hd s.now).mp hi)
  | disconnect p =>
      cases hn
      exact not_indexed_disconnected h.1 h.2 (not_not.mp hk)

end

/-- Configuring peers adds nothing to the index. -/
theorem peerNodesBySocket_foldl_addPeerNode (peers : List Int) (m : ConnectionManager) :
    (peers.foldl ConnectionManager.addPeerNode m).peerNodesBySocket = m.peerNodesBySocket := by
  induction peers generalizing m with
  | nil => rfl
  | cons p peers ih => exact ih (m.addPeerNode p)

theorem indexOk_withSockets (id : Int) (peers : List Int) (sockets : ConnRef → TcpSocket) :
    (withSockets id peers sockets).IndexOk := by
  have hnode (p : Int) : (withSockets id peers sockets).connManager.nodes p = {} :=
    (configured_connManager id peers).2.1 p
  have htable : (withSockets id peers sockets).connManager.peerNodesBySocket = ∅ :=
    peerNodesBySocket_foldl_addPeerNode peers {}
  have hhandle : (withSockets id peers sockets).connManager.peerHandle = fun _ => none := by
    funext p
    rw [ConnectionManager.peerHandle, hnode]
    rfl
  refine ⟨⟨?_, ?_⟩, fun p hp => ?_, fun p => ?_, fun p k hk => ?_⟩
  · rw [htable, hhandle]
    exact Table.indexes_empty
  · rw [htable]
    rfl
  · rw [hnode] at hp
    exact absurd rfl hp
  · rw [hnode]
    rfl
  · rw [hnode] at hk
    cases hk

/-- **The index of peer sockets.**  Along a run of `RegisterPeerSocket` and `HandlePeerDisconnect`
the index is exact in every state if and only if no peer that has a socket gets another one or is
disconnected. -/
theorem indexed_iff (id : Int) (peers : List Int) (sockets : ConnRef → TcpSocket)
    {cs : List IndexCall} {t : ChatServer}
    (hrun : exec indexNext (withSockets id peers sockets) cs = some t) :
    (∀ u, Visits indexNext (withSockets id peers sockets) cs u → u.connManager.Indexed) ↔
      Along indexNext KeepsSocket (withSockets id peers sockets) cs :=
  always_iff_along (I := IndexOk) (A := fun _ _ => True) And.left
    (fun h _ hk hn => h.next hk hn) (fun h _ hk hn => h.not_indexed hk hn)
    (indexOk_withSockets id peers sockets) (along_of_forall fun _ _ => trivial) hrun

/-- Two peers get a socket, and a third one is disconnected that has none. -/
theorem indexed_iff_once :
    ∃ t, exec indexNext (withSockets 1 [2, 3, 4] fun k => { handle := k + 4 })
        [.register 2 0, .register 3 1, .disconnect 4] = some t ∧
      ((∀ u, Visits indexNext (withSockets 1 [2, 3, 4] fun k => { handle := k + 4 })
          [.register 2 0, .register 3 1, .disconnect 4] u → u.connManager.Indexed) ↔
        Along indexNext KeepsSocket (withSockets 1 [2, 3, 4] fun k => { handle := k + 4 })
          [.register 2 0, .register 3 1, .disconnect 4]) := by
  have hrun : (exec indexNext (withSockets 1 [2, 3, 4] fun k => { handle := k + 4 })
      [.register 2 0, .register 3 1, .disconnect 4]).isSome = true := by decide +kernel
  obtain ⟨t, ht⟩ := Option.isSome_iff_exists.mp hrun
  exact ⟨t, ht, indexed_iff 1 [2, 3, 4] (fun k => { handle := k + 4 }) ht⟩

/-- The entry of a peer that has been disconnected is still there. -/
theorem entry_of_closed_socket :
    ¬ ∀ (id : Int) (peers : List Int) (sockets : ConnRef → TcpSocket) (cs : List IndexCall)
      (t : ChatServer), exec indexNext (withSockets id peers sockets) cs = some t →
        t.connManager.Indexed := by
  intro hall
  have hrun : (exec indexNext (withSockets 1 [2] fun k => { handle := k + 4 })
      [.register 2 0, .disconnect 2]).any fun t =>
        decide (t.connManager.peerNodesBySocket.lookup 4 = some 2 ∧
          t.connManager.peerHandle 2 = none) := by decide +kernel
  obtain ⟨t, ht, h⟩ := (Option.any_eq_true ..).mp hrun
  obtain ⟨hentry, hnone⟩ := of_decide_eq_true h
  have hsock := ((hall 1 [2] _ _ t ht).exact 4 2).mp hentry
  rw [hnone] at hsock
  cases hsock

end ChatServer

end DistributedChat
