import DistributedChat.Server.Failures

/-!
# Connected peers and their sockets

A peer gets a socket in one section, `RegisterPeerSocket`, and in a later one
`SetConnected(true)` says so again.  In between another thread may see the new
link fail: `HandlePeerDisconnect` passes its check, closes the socket and
unregisters it, and the late `SetConnected` leaves a peer that is connected
without a socket (`connected_without_socket`).

A `HandlePeerDisconnect` that has passed its check will unregister the peer,
which puts everything right.  So what counts is the peers that are not `Doomed`
in this sense, and three steps can go wrong for them: a socket is registered
that is closed, `SetConnected` comes when the socket is gone, and the socket of
one peer is closed for another.  If none of them does, then in every state in
which nothing is part-way the connected peers are those with an open socket
(`connected_iff_linked`).

`follows_peerConnected`, `follows_promote` and `follows_handlePeerDisconnect` say
that the steps here are the sections of the programs.
-/

namespace DistributedChat

namespace ConnectionManager

/-- The socket has not been closed. -/
def IsOpen (m : ConnectionManager) (k : ConnRef) : Prop := m.getHandle k ≠ invalidSocket

instance (m : ConnectionManager) : DecidablePred m.IsOpen :=
  fun k => inferInstanceAs (Decidable (m.getHandle k ≠ invalidSocket))

/-- The socket of the peer is non-null and open. -/
def IsLinked (m : ConnectionManager) (p : Int) : Prop := ∃ k ∈ (m.nodes p).socket, m.IsOpen k

/-- The peer is connected if it has a socket, and the socket is open. -/
structure Sound (m : ConnectionManager) (p : Int) : Prop where
  connected : (m.nodes p).isConnected = (m.nodes p).socket.isSome
  isOpen : ∀ k ∈ (m.nodes p).socket, m.IsOpen k

section

variable {m m' : ConnectionManager} {p q : Int} {k y : ConnRef}

theorem Sound.connected_iff (h : m.Sound p) : (m.nodes p).isConnected = true ↔ m.IsLinked p := by
  rw [h.connected, Option.isSome_iff_exists]
  constructor
  · rintro ⟨k, hk⟩
    exact ⟨k, hk, h.isOpen k hk⟩
  · rintro ⟨k, hk, -⟩
    exact ⟨k, hk⟩

theorem Sound.of_same (h : m.Sound p) (hs : (m'.nodes p).socket = (m.nodes p).socket)
    (hc : (m'.nodes p).isConnected = (m.nodes p).isConnected)
    (hopen : ∀ k ∈ (m.nodes p).socket, m.IsOpen k → m'.IsOpen k) : m'.Sound p := by
  constructor
  · rw [hs, hc, h.connected]
  · intro k hk
    rw [hs] at hk
    exact hopen k hk (h.isOpen k hk)

theorem isOpen_closeSocket (h : m.IsOpen k) (hne : k ≠ y) : (m.closeSocket y).IsOpen k := by
  rw [IsOpen, getHandle, sockets_closeSocket, if_neg hne]
  exact h

theorem Sound.registerPeerSocket (h : q ≠ p → m.Sound q) (hk : q = p → m.IsOpen k)
    (hq : q ∈ m.peerNodes) (now : Nat) : (m.registerPeerSocket p k now).Sound q := by
  have hopen {j : ConnRef} (hj : m.IsOpen j) : (m.registerPeerSocket p k now).IsOpen j := by
    rw [IsOpen, getHandle, sockets_registerPeerSocket]
    exact hj
  by_cases hqp : q = p
  · subst hqp
    have hnode : (m.registerPeerSocket q k now).nodes q = (m.nodes q).setSocket (some k) now := by
      rw [nodes_registerPeerSocket, if_pos ⟨hq, rfl⟩]
    constructor
    · rw [hnode]
      rfl
    · intro j hj
      rw [hnode] at hj
      cases hj
      exact hopen (hk rfl)
  · have hnode : (m.registerPeerSocket p k now).nodes q = m.nodes q := by
      rw [nodes_registerPeerSocket, if_neg fun he => hqp he.2]
    exact (h hqp).of_same (congrArg _ hnode) (congrArg _ hnode) fun j _ hj => hopen hj

theorem Sound.unregisterPeerSocket (h : q ≠ p → m.Sound q) (hq : q ∈ m.peerNodes) (now : Nat) :
    (m.unregisterPeerSocket p now).Sound q := by
  by_cases hqp : q = p
  · subst hqp
    have hnode : (m.unregisterPeerSocket q now).nodes q = (m.nodes q).setSocket none now := by
      rw [nodes_unregisterPeerSocket, if_pos ⟨hq, rfl⟩]
    constructor
    · rw [hnode]
      rfl
    · intro j hj
      rw [hnode] at hj
      cases hj
  · have hnode : (m.unregisterPeerSocket p now).nodes q = m.nodes q := by
      rw [nodes_unregisterPeerSocket, if_neg fun he => hqp he.2]
    refine (h hqp).of_same (congrArg _ hnode) (congrArg _ hnode) fun j _ hj => ?_
    rw [IsOpen, getHandle, sockets_unregisterPeerSocket]
    exact hj

/-- A peer with a socket is connected already. -/
theorem Sound.setConnected (h : m.Sound q) (hs : q = p → (m.nodes q).socket ≠ none) :
    (m.setConnected p true).Sound q := by
  by_cases hqp : q = p
  · subst hqp
    refine h.of_same ?_ ?_ fun j _ hj => hj
    · rw [nodes_setConnected, if_pos rfl]
    · rw [nodes_setConnected, if_pos rfl, h.connected]
      exact (Option.isSome_iff_ne_none.mpr (hs rfl)).symm
  · have hnode : (m.setConnected p true).nodes q = m.nodes q := by
      rw [nodes_setConnected, if_neg hqp]
    exact h.of_same (congrArg _ hnode) (congrArg _ hnode) fun j _ hj => hj

end

end ConnectionManager

open ChatServer

/-! ## Steps -/

/-- The check is passed and the socket is still to be unregistered. -/
def Handling.Passed : Handling → Prop
  | connected | closing _ | cutting => True
  | called | found | unregistered | cleared => False

instance : DecidablePred Handling.Passed := fun
  | .connected | .closing _ | .cutting => instDecidableTrue
  | .called | .found | .unregistered | .cleared => instDecidableFalse

/-- How far a thread has come with an operation on the link of a peer. -/
inductive LinkPhase where
  | free
  /-- `RegisterPeerSocket` is done and `SetConnected(true)` is to come. -/
  | registered (p : Int)
  /-- In `HandlePeerDisconnect`. -/
  | disconnecting (p : Int) (stage : Handling)
deriving DecidableEq

/-- The phase of a thread that is handling a failure, or has ended. -/
def LinkPhase.ofTrouble : Trouble → LinkPhase
  | .handling p _ stage => disconnecting p stage
  | .calm | .engaged _ _ => free

/-- The thread will unregister the socket of the peer. -/
def LinkPhase.Dooms (p : Int) : LinkPhase → Prop
  | disconnecting q stage => q = p ∧ stage.Passed
  | free | registered _ => False

instance (p : Int) : DecidablePred (LinkPhase.Dooms p) := fun
  | .disconnecting q stage => inferInstanceAs (Decidable (q = p ∧ stage.Passed))
  | .free | .registered _ => instDecidableFalse

/-- A step of `PeerConnectorLoop`, of the `S2S_CONNECT` case or of `HandlePeerDisconnect`. -/
inductive LinkMove where
  /-- `RegisterPeerSocket`, by the connector or in the `S2S_CONNECT` case. -/
  | register (p : Int) (k : ConnRef)
  /-- `SetConnected(true)`, by whoever has registered the socket. -/
  | setConnected
  /-- The `S2S_CONNECT` case finds that there is no such peer. -/
  | absent
  /-- `HandlePeerDisconnect` is called. -/
  | disconnect (p : Int)
  /-- It goes on. -/
  | proceed
deriving DecidableEq

/-- What becomes of the thread and of the server. -/
def LinkMove.perform (s : ChatServer) : LinkMove → LinkPhase → Option (LinkPhase × ChatServer)
  | register p k, .free => some (.registered p, s.onConn (·.registerPeerSocket p k s.now))
  | setConnected, .registered p => some (.free, s.onConn (·.setConnected p true))
  | absent, .registered p => if s.connManager.hasPeerNode p = false then some (.free, s) else none
  | disconnect p, .free => some (.disconnecting p .called, s)
  | proceed, .disconnecting p stage =>
      some (.ofTrouble (stage.proceed s p none).1, (stage.proceed s p none).2)
  | _, _ => none

/-- A section that changes no link of a peer and closes no socket. -/
structure Bystander extends Aside where
  peerNodes_apply : ∀ s, (apply s).connManager.peerNodes = s.connManager.peerNodes
  isConnected_apply : ∀ s p,
    ((apply s).connManager.nodes p).isConnected = (s.connManager.nodes p).isConnected
  isOpen_apply : ∀ s k, s.connManager.IsOpen k → (apply s).connManager.IsOpen k

namespace Bystander

/-- An observation. -/
def look : Bystander where
  toAside := .look
  peerNodes_apply _ := rfl
  isConnected_apply _ _ := rfl
  isOpen_apply _ _ h := h

/-- `RemoveSession`. -/
def removeSession (handle : SOCKET) : Bystander where
  toAside := ⟨onConn (·.removeSession handle), socket_removeSession handle⟩
  peerNodes_apply s := s.connManager.peerNodes_removeSession handle
  isConnected_apply s p := s.connManager.isConnected_removeSession p handle
  isOpen_apply s k h := by
    rw [ConnectionManager.IsOpen, ConnectionManager.getHandle, onConn_connManager,
      ConnectionManager.sockets_removeSession]
    exact h

/-- `UpdateHeartbeat`. -/
def updateHeartbeat (p : Int) : Bystander where
  apply s := s.onConn (·.updateHeartbeat p s.now)
  socket_apply s q := s.connManager.socket_updateHeartbeat p q s.now
  peerNodes_apply _ := rfl
  isConnected_apply s q := s.connManager.isConnected_updateHeartbeat p q s.now
  isOpen_apply _ _ h := h

/-- A new socket object on an open handle. -/
def newSocket (handle : SOCKET) (hh : handle ≠ invalidSocket) : Bystander where
  toAside := .newSocket handle
  peerNodes_apply _ := rfl
  isConnected_apply _ _ := rfl
  isOpen_apply s k h := by
    change (s.connManager.newSocket handle).getHandle k ≠ invalidSocket
    rw [ConnectionManager.getHandle, ConnectionManager.sockets_newSocket]
    split
    · exact hh
    · exact h

end Bystander

/-- A server, and how far each of its threads has come. -/
structure PeerThreads (ι : Type) where
  server : ChatServer
  phase : ι → LinkPhase := fun _ => .free

/-- What happens at a server. -/
inductive PeerAction (ι : Type) where
  | aside (a : Bystander)
  | move (t : ι) (m : LinkMove)

namespace PeerThreads

variable {ι : Type}

/-- A server with the given peers as it starts. -/
def start (id : Int) (peers : List Int) : PeerThreads ι := { server := configured id peers }

/-- No operation is part-way through. -/
def AtRest (c : PeerThreads ι) : Prop := ∀ t, c.phase t = .free

/-- Some thread will unregister the socket of the peer. -/
def Doomed (c : PeerThreads ι) (p : Int) : Prop := ∃ t, (c.phase t).Dooms p

instance [Fintype ι] (c : PeerThreads ι) : DecidablePred c.Doomed :=
  fun p => inferInstanceAs (Decidable (∃ t, (c.phase t).Dooms p))

/-- One action. -/
def next [DecidableEq ι] (c : PeerThreads ι) : PeerAction ι → Option (PeerThreads ι)
  | .aside a => some { c with server := a.apply c.server }
  | .move t m =>
      (m.perform c.server (c.phase t)).map fun r =>
        { server := r.2, phase := Function.update c.phase t r.1 }

/-- What a step of a thread in the given phase asks of the state before it. -/
def Allows (c : PeerThreads ι) : LinkMove → LinkPhase → Prop
  | .register p k, _ =>
      p ∈ c.server.connManager.peerNodes → c.server.connManager.IsOpen k ∨ c.Doomed p
  | .setConnected, .registered p =>
      p ∈ c.server.connManager.peerNodes →
        (c.server.connManager.nodes p).socket ≠ none ∨ c.Doomed p
  | .proceed, .disconnecting p (.closing y) =>
      ∀ q ∈ c.server.connManager.getAllPeerNodes, q ≠ p →
        (c.server.connManager.nodes q).socket = some y → c.Doomed q
  | _, _ => True

/-- A socket is open when it is registered, there still is one when `SetConnected` is called, and
a socket that is closed is no other peer's, or else the peer in question is about to lose its
socket. -/
def Orderly (c : PeerThreads ι) : PeerAction ι → Prop
  | .aside _ => True
  | .move t m => c.Allows m (c.phase t)

/-- A peer is as it should be, or about to lose its socket. -/
def Good (c : PeerThreads ι) : Prop :=
  ∀ p ∈ c.server.connManager.peerNodes, c.Doomed p ∨ c.server.connManager.Sound p

/-! ## The invariant -/

section

theorem good_start (id : Int) (peers : List Int) : (start id peers : PeerThreads ι).Good := by
  intro p _
  right
  have hnode : (configured id peers).connManager.nodes p = {} :=
    (configured_connManager id peers).2.1 p
  constructor
  · rw [show (start id peers : PeerThreads ι).server = configured id peers from rfl, hnode]
    rfl
  · intro k hk
    rw [show (start id peers : PeerThreads ι).server = configured id peers from rfl, hnode] at hk
    cases hk

variable [DecidableEq ι] {c c' : PeerThreads ι} {t : ι} {s' : ChatServer} {g : LinkPhase}
  {m : LinkMove} {act : PeerAction ι}

/-- A step of a thread keeps the invariant if a peer that is no longer doomed is sound, and one that
was sound and not doomed still is. -/
theorem Good.move (h : c.Good)
    (hpeers : s'.connManager.peerNodes = c.server.connManager.peerNodes)
    (hlast : ∀ p ∈ c.server.connManager.peerNodes, (c.phase t).Dooms p → ¬ g.Dooms p →
      s'.connManager.Sound p)
    (hsound : ∀ p ∈ c.server.connManager.peerNodes, c.server.connManager.Sound p →
      ¬ c.Doomed p → s'.connManager.Sound p) :
    ({ server := s', phase := Function.update c.phase t g } : PeerThreads ι).Good := by
  intro p hp
  have hp' : p ∈ c.server.connManager.peerNodes := hpeers ▸ hp
  by_cases hd : c.Doomed p
  · obtain ⟨t', ht'⟩ := hd
    by_cases he : t' = t
    · subst he
      by_cases hg : g.Dooms p
      · left
        exact ⟨t', by simpa using hg⟩
      · right
        exact hlast p hp' ht' hg
    · left
      exact ⟨t', by simpa [Function.update_of_ne he] using ht'⟩
  · right
    exact hsound p hp' ((h p hp').resolve_left hd) hd

/-- A step that leaves the connections alone. -/
theorem Good.move_same (h : c.Good) (hsame : s'.connManager = c.server.connManager)
    (hlast : ∀ p, (c.phase t).Dooms p → g.Dooms p) :
    ({ server := s', phase := Function.update c.phase t g } : PeerThreads ι).Good := by
  refine h.move (congrArg _ hsame) (fun p _ hd hn => absurd (hlast p hd) hn) fun p _ hs _ => ?_
  rw [hsame]
  exact hs

theorem Good.proceed {p : Int} {stage : Handling} (h : c.Good)
    (ht : c.phase t = .disconnecting p stage) (ho : c.Allows .proceed (.disconnecting p stage)) :
    ({ server := (stage.proceed c.server p none).2
       phase := Function.update c.phase t (.ofTrouble (stage.proceed c.server p none).1) } :
      PeerThreads ι).Good := by
  have hdooms : ∀ q, (c.phase t).Dooms q ↔ p = q ∧ stage.Passed := by
    intro q
    rw [ht]
    rfl
  cases stage with
  | called | found => exact h.move_same rfl fun q hd => ((hdooms q).mp hd).2.elim
  | connected =>
      rw [Handling.proceed]
      split
      · exact h.move_same rfl fun q hd => (hdooms q).mp hd
      · exact h.move_same rfl fun q hd => (hdooms q).mp hd
  | closing y =>
      refine h.move rfl (fun q _ hd hn => absurd ((hdooms q).mp hd) hn) fun q hq hs hnd => ?_
      have hqp : q ≠ p := by
        rintro rfl
        exact hnd ⟨t, (hdooms q).mpr ⟨rfl, trivial⟩⟩
      refine hs.of_same rfl rfl fun k hk hopen => ConnectionManager.isOpen_closeSocket hopen ?_
      rintro rfl
      exact hnd (ho q hq hqp hk)
  | cutting =>
      have hpeers : (c.server.connManager.unregisterPeerSocket p c.server.now).peerNodes =
          c.server.connManager.peerNodes := ConnectionManager.peerNodes_unregisterPeerSocket ..
      refine h.move hpeers (fun q hq hd _ => ?_) fun q hq hs _ => ?_
      · exact .unregisterPeerSocket (fun hqp => absurd ((hdooms q).mp hd).1.symm hqp) hq _
      · exact .unregisterPeerSocket (fun _ => hs) hq _
  | unregistered | cleared => exact h.move_same rfl fun q hd => ((hdooms q).mp hd).2.elim

theorem Good.next (h : c.Good) (ho : c.Orderly act) (hn : c.next act = some c') : c'.Good := by
  cases act with
  | aside a =>
      cases hn
      intro p hp
      rw [a.peerNodes_apply] at hp
      rcases h p hp with hd | hs
      · left
        exact hd
      · right
        exact hs.of_same (a.socket_apply ..) (a.isConnected_apply ..) fun k _ => a.isOpen_apply _ k
  | move t m =>
      obtain ⟨⟨g, s'⟩, hm, rfl⟩ := Option.map_eq_some_iff.mp hn
      rw [Orderly] at ho
      generalize ht : c.phase t = phase at hm ho
      have hnone : ∀ q, ¬ phase.Dooms q → ¬ (c.phase t).Dooms q := fun q hq => ht ▸ hq
      cases m with
      | register p k =>
          cases phase with
          | free =>
              cases hm
              refine h.move (ConnectionManager.peerNodes_registerPeerSocket ..)
                (fun q _ hd => absurd hd (hnone q id)) fun q hq hs hnd => ?_
              refine .registerPeerSocket (fun _ => hs) (fun hqp => ?_) hq _
              exact (ho (hqp ▸ hq)).resolve_right (hqp ▸ hnd)
          | registered | disconnecting => cases hm
      | setConnected =>
          cases phase with
          | registered p =>
              cases hm
              refine h.move rfl (fun q _ hd => absurd hd (hnone q id)) fun q hq hs hnd => ?_
              refine hs.setConnected fun hqp => ?_
              rw [hqp]
              exact (ho (hqp ▸ hq)).resolve_right (hqp ▸ hnd)
          | free | disconnecting => cases hm
      | absent =>
          cases phase with
          | registered p =>
              obtain ⟨-, he⟩ := Option.ite_none_right_eq_some.mp hm
              cases he
              exact h.move_same rfl fun q hd => absurd hd (hnone q id)
          | free | disconnecting => cases hm
      | disconnect p =>
          cases phase with
          | free =>
              cases hm
              exact h.move_same rfl fun q hd => absurd hd (hnone q id)
          | registered | disconnecting => cases hm
      | proceed =>
          cases phase with
          | disconnecting p stage =>
              cases hm
              exact h.proceed ht ho
          | free | registered => cases hm

/-- A step that is not orderly leaves a peer that is not doomed and not sound. -/
theorem not_good_of_not_orderly (ho : ¬ c.Orderly act) (hn : c.next act = some c') : ¬ c'.Good := by
  intro h
  cases act with
  | aside a => exact ho trivial
  | move t m =>
      obtain ⟨⟨g, s'⟩, hm, rfl⟩ := Option.map_eq_some_iff.mp hn
      rw [Orderly] at ho
      generalize ht : c.phase t = phase at hm ho
      -- who is doomed after the step was so before, unless by the thread that moves
      have hdoomed : ∀ q, ¬ c.Doomed q → ¬ g.Dooms q →
          ¬ ({ server := s', phase := Function.update c.phase t g } : PeerThreads ι).Doomed q := by
        rintro q hq hg ⟨t', ht'⟩
        change (Function.update c.phase t g t').Dooms q at ht'
        rw [Function.update_apply] at ht'
        split at ht'
        · exact hg ht'
        · exact hq ⟨t', ht'⟩
      cases m with
      | register p k =>
          cases phase with
          | free =>
              cases hm
              rw [Allows, Classical.not_imp, not_or] at ho
              obtain ⟨hp, hclosed, hnd⟩ := ho
              have hs := (h p (by simpa using hp)).resolve_left (hdoomed p hnd id)
              have hsock : k ∈ ((c.server.connManager.registerPeerSocket p k c.server.now).nodes
                  p).socket := by
                rw [ConnectionManager.nodes_registerPeerSocket, if_pos ⟨hp, rfl⟩]
                rfl
              have hopen := hs.isOpen k hsock
              rw [ConnectionManager.IsOpen, ConnectionManager.getHandle, onConn_connManager,
                ConnectionManager.sockets_registerPeerSocket] at hopen
              exact hclosed hopen
          | registered | disconnecting => cases hm
      | setConnected =>
          cases phase with
          | registered p =>
              cases hm
              rw [Allows, Classical.not_imp, not_or, not_not] at ho
              obtain ⟨hp, hnone, hnd⟩ := ho
              have hs := (h p hp).resolve_left (hdoomed p hnd id)
              have hconn := hs.connected
              rw [onConn_connManager, ConnectionManager.nodes_setConnected, if_pos rfl, hnone] at hconn
              cases hconn
          | free | disconnecting => cases hm
      | absent | disconnect => exact ho (by cases phase <;> trivial)
      | proceed =>
          cases phase with
          | disconnecting p stage =>
              cases stage with
              | closing y =>
                  cases hm
                  rw [Allows] at ho
                  push Not at ho
                  obtain ⟨q, hq, hqp, hsock, hnd⟩ := ho
                  have hs := (h q hq).resolve_left
                    (hdoomed q hnd fun hd => hqp hd.1.symm)
                  have hopen := hs.isOpen y hsock
                  rw [ConnectionManager.IsOpen, ConnectionManager.getHandle, Handling.proceed,
                    onConn_connManager, ConnectionManager.sockets_closeSocket, if_pos rfl] at hopen
                  exact hopen rfl
              | called | found | connected | cutting | unregistered | cleared => exact ho trivial
          | free | registered => cases hm

/-- A run keeps every peer that is not doomed sound exactly if all its steps are orderly. -/
theorem always_good_iff {id : Int} {peers : List Int} {as : List (PeerAction ι)}
    (hrun : exec next (start id peers) as = some c) :
    (∀ u, Visits next (start id peers) as u → u.Good) ↔
      Along next Orderly (start id peers) as :=
  always_iff_along (I := Good) (A := fun _ _ => True) (fun h => h) (fun h _ ho hn => h.next ho hn)
    (fun _ _ ho hn => not_good_of_not_orderly ho hn) (good_start id peers)
    (along_of_forall fun _ _ => trivial) hrun

end

/-- **Connected means linked.**  In every run from the start in which a socket is open when it is
registered, a peer has a socket when `SetConnected` is called, and a socket is closed for one peer
only if it is no other's, or else the peer in question is about to be unregistered, the connected
peers are those with an open socket whenever nothing is part-way through. -/
theorem connected_iff_linked [DecidableEq ι] {id : Int} {peers : List Int}
    {as : List (PeerAction ι)} {c : PeerThreads ι} (hrun : exec next (start id peers) as = some c)
    (ho : Along next Orderly (start id peers) as) (hrest : c.AtRest) :
    ∀ p ∈ c.server.connManager.peerNodes,
      (c.server.connManager.nodes p).isConnected = true ↔ c.server.connManager.IsLinked p := by
  intro p hp
  have hgood := exec_induct (fun h ho hn => Good.next h ho hn) (good_start id peers) ho hrun
  rcases hgood p hp with ⟨t, hd⟩ | hs
  · rw [hrest t] at hd
    exact hd.elim
  · exact hs.connected_iff

/-! ## Two runs -/

instance [Fintype ι] (c : PeerThreads ι) : ∀ m g, Decidable (c.Allows m g)
  | .register p k, _ => inferInstanceAs (Decidable (_ → c.server.connManager.IsOpen k ∨ c.Doomed p))
  | .setConnected, .registered p => inferInstanceAs (Decidable (_ → _ ≠ none ∨ c.Doomed p))
  | .setConnected, .free | .setConnected, .disconnecting _ _ => instDecidableTrue
  | .proceed, .disconnecting p (.closing y) =>
      inferInstanceAs (Decidable (∀ q ∈ c.server.connManager.getAllPeerNodes, q ≠ p →
        (c.server.connManager.nodes q).socket = some y → c.Doomed q))
  | .proceed, .disconnecting _ .called | .proceed, .disconnecting _ .found
  | .proceed, .disconnecting _ .connected | .proceed, .disconnecting _ .cutting
  | .proceed, .disconnecting _ .unregistered | .proceed, .disconnecting _ .cleared
  | .proceed, .free | .proceed, .registered _ => instDecidableTrue
  | .absent, _ | .disconnect _, _ => instDecidableTrue

instance [Fintype ι] (c : PeerThreads ι) : DecidablePred c.Orderly := fun
  | .aside _ => instDecidableTrue
  | .move t m => inferInstanceAs (Decidable (c.Allows m (c.phase t)))

instance (m : ConnectionManager) (p : Int) : Decidable (m.IsLinked p) :=
  inferInstanceAs (Decidable (∃ k ∈ (m.nodes p).socket, m.IsOpen k))

/-- The connector registers socket 0 for peer 2, and the peer is disconnected before `SetConnected`
or after it. -/
def disconnected (early : Bool) : List (PeerAction Bool) :=
  [.aside (.newSocket 4 (by decide)), .move false (.register 2 0)] ++
    (if early = true then [] else [.move false .setConnected]) ++
    [.move true (.disconnect 2)] ++ List.replicate 7 (.move true .proceed) ++
    if early = true then [.move false .setConnected] else []

/-- A link that ends and is replaced by a new one. -/
theorem connected_iff_linked_again :
    ∃ c, exec next (start 1 [2]) (disconnected false ++
        [.aside (.newSocket 5 (by decide)), .move false (.register 2 1), .move false .setConnected]) =
          some c ∧ c.server.connManager.IsLinked 2 ∧
      ∀ p ∈ c.server.connManager.peerNodes,
        (c.server.connManager.nodes p).isConnected = true ↔ c.server.connManager.IsLinked p := by
  have hrun : (exec next (start 1 [2]) (disconnected false ++
      [.aside (.newSocket 5 (by decide)), .move false (.register 2 1),
        .move false .setConnected])).any fun c =>
          decide ((∀ t, c.phase t = .free) ∧ c.server.connManager.IsLinked 2) := by
    decide +kernel
  obtain ⟨c, hc, h⟩ := (Option.any_eq_true ..).mp hrun
  obtain ⟨hrest, hlinked⟩ := of_decide_eq_true h
  exact ⟨c, hc, hlinked, connected_iff_linked hc (by decide +kernel) hrest⟩

/-- `SetConnected` comes after the new link has been disconnected. -/
theorem connected_without_socket :
    ¬ ∀ (as : List (PeerAction Bool)) (c : PeerThreads Bool), exec next (start 1 [2]) as = some c →
      c.AtRest → ∀ p ∈ c.server.connManager.peerNodes,
        (c.server.connManager.nodes p).isConnected = true ↔ c.server.connManager.IsLinked p := by
  intro hall
  have hrun : (exec next (start 1 [2]) (disconnected true)).any fun c =>
      decide ((∀ t, c.phase t = .free) ∧ 2 ∈ c.server.connManager.peerNodes ∧
        (c.server.connManager.nodes 2).isConnected = true ∧
        ¬ c.server.connManager.IsLinked 2) := by decide +kernel
  obtain ⟨c, hc, h⟩ := (Option.any_eq_true ..).mp hrun
  obtain ⟨hrest, hp, hconn, hno⟩ := of_decide_eq_true h
  exact hno ((hall _ c hc hrest 2 hp).mp hconn)

/-! ## The programs -/

/-- A section of a program: the phase and the state before it, its outputs, the state and the phase
after it. -/
inductive Moves : LinkPhase → ChatServer → List Effect → ChatServer → LinkPhase → Prop where
  | aside (a : Bystander) (g : LinkPhase) (s : ChatServer) (out : List Effect) :
      Moves g s out (a.apply s) g
  | move {m : LinkMove} {g g' : LinkPhase} {s s' : ChatServer} (h : m.perform s g = some (g', s')) :
      Moves g s [] s' g'

section

open Prog (observe update follows_observe_bind follows_update_bind follows_update Follows Calm)

theorem moves_look (g : LinkPhase) (s : ChatServer) (out : List Effect) : Moves g s out s g :=
  .aside .look g s out

theorem moves_proceed {p : Int} {s s' : ChatServer} {stage : Handling} {g : Trouble}
    (h : stage.proceed s p none = (g, s')) :
    Moves (.disconnecting p stage) s [] s' (.ofTrouble g) :=
  .move (m := .proceed) (by rw [LinkMove.perform, h])

/-- The connector, after `Connect` has succeeded. -/
theorem follows_peerConnected (p : Int) (k : ConnRef) :
    (peerConnected p k).Follows Moves (fun _ g => g = .free) .free := by
  refine follows_update_bind fun s => ⟨.registered p, .move (m := .register p k) rfl, ?_⟩
  refine follows_update_bind fun s => ⟨.free, .move (m := .setConnected) rfl, ?_⟩
  refine follows_update_bind fun s => ⟨.free, .aside (.updateHeartbeat p) .free s [], ?_⟩
  refine follows_observe_bind fun s => ⟨.free, moves_look .free s [], ?_⟩
  exact Calm.then (fun s => ⟨.free, moves_look .free s _, rfl⟩) fun _ => rfl

/-- The `S2S_CONNECT` case. -/
theorem follows_promote (k : ConnRef) (payload : Bytes) :
    (promote k payload).Follows Moves (fun _ g => g = .free) .free := by
  rw [promote]
  cases stoi payload with
  | none => exact rfl
  | some p =>
      refine follows_observe_bind fun s => ⟨.free, moves_look .free s [], ?_⟩
      refine follows_update_bind fun s' => ⟨.free, .aside (.removeSession _) .free s' [], ?_⟩
      refine follows_update_bind fun s => ⟨.registered p, .move (m := .register p k) rfl, ?_⟩
      refine follows_observe_bind fun s => ?_
      cases hpeer : s.connManager.hasPeerNode p with
      | false =>
          exact ⟨.free, .move (m := .absent) (if_pos hpeer),
            Follows.ite (fun h => absurd h Bool.false_ne_true) fun _ => rfl⟩
      | true =>
          refine ⟨.registered p, moves_look _ s [], Follows.ite (fun _ => ?_) fun h => absurd rfl h⟩
          refine follows_update_bind fun s => ⟨.free, .move (m := .setConnected) rfl, ?_⟩
          exact follows_update fun s => ⟨.free, .aside (.updateHeartbeat p) .free s [], rfl⟩

/-- `HandlePeerDisconnect`, once it is called. -/
theorem follows_handlePeerDisconnect (p : Int) :
    (handlePeerDisconnect p).Follows Moves (fun _ g => g = .free) (.disconnecting p .called) := by
  have hcut : Follows Moves (fun _ g => g = .free) (do
      update fun s => s.onConn (·.unregisterPeerSocket p s.now)
      update (onUsers (·.clearServerUsers p))
      update (onRooms (·.clearServerMemberships p))
      notifyOnlineUsers none) (.disconnecting p .cutting) := by
    refine follows_update_bind fun s => ⟨_, moves_proceed rfl, ?_⟩
    refine follows_update_bind fun s => ⟨_, moves_proceed rfl, ?_⟩
    refine follows_update_bind fun s => ⟨_, moves_proceed rfl, ?_⟩
    exact calm_notifyOnlineUsers (moves_look _) none
  refine follows_observe_bind fun s => ?_
  cases hpeer : s.connManager.hasPeerNode p with
  | false =>
      refine ⟨_, moves_proceed (by rw [Handling.proceed, if_neg (by simp [hpeer])]), ?_⟩
      refine follows_observe_bind fun s => ⟨_, moves_look _ s [], ?_⟩
      exact Follows.ite (fun h => absurd h.1 Bool.false_ne_true) fun _ => rfl
  | true =>
      refine ⟨_, moves_proceed (by rw [Handling.proceed, if_pos hpeer]), ?_⟩
      refine follows_observe_bind fun s => ?_
      cases hup : (s.connManager.nodes p).isConnected with
      | false =>
          refine ⟨_, moves_proceed (by rw [Handling.proceed, if_neg (by simp [hup])]), ?_⟩
          exact Follows.ite (fun h => absurd h.2 Bool.false_ne_true) fun _ => rfl
      | true =>
          refine ⟨_, moves_proceed (by rw [Handling.proceed, if_pos hup]), ?_⟩
          refine Follows.ite (fun _ => follows_observe_bind fun s => ?_) fun h => absurd ⟨rfl, rfl⟩ h
          cases hsock : (s.connManager.nodes p).socket with
          | none =>
              exact ⟨.disconnecting p .cutting, moves_proceed (g := .handling p none .cutting)
                (by simp [Handling.proceed, hsock]), hcut⟩
          | some y =>
              refine ⟨.disconnecting p (.closing y),
                moves_proceed (g := .handling p none (.closing y))
                  (by simp [Handling.proceed, hsock]), ?_⟩
              exact follows_update_bind fun _ => ⟨_, moves_proceed rfl, hcut⟩

/-- Whatever section a thread performs, there is an action that does it. -/
theorem next_of_section [DecidableEq ι] {c : PeerThreads ι} {t : ι} {prog : ServerProg Unit}
    {x : Prog.Section ChatServer Effect Unit}
    (h : prog.Follows Moves (fun _ g => g = .free) (c.phase t)) (hx : prog.step? c.server = some x) :
    ∃ act c', c.next act = some c' ∧ c'.server = x.state ∧
      x.rest.Follows Moves (fun _ g => g = .free) (c'.phase t) ∧
      ∀ t', t' ≠ t → c'.phase t' = c.phase t' := by
  obtain ⟨g', hmove, hrest⟩ := h.section hx
  generalize hg : c.phase t = g at hmove
  generalize hs : c.server = s at hmove
  generalize ho : x.out = out at hmove
  generalize hs' : x.state = s' at hmove
  cases hmove with
  | aside a =>
      subst hs hg
      exact ⟨.aside a, _, rfl, rfl, hrest, fun _ _ => rfl⟩
  | @move m _ _ _ _ hm =>
      rw [← hg, ← hs] at hm
      refine ⟨.move t m, _, Option.map_eq_some_iff.mpr ⟨_, hm, rfl⟩, rfl, ?_, fun t' ht => ?_⟩
      · change x.rest.Follows Moves _ (Function.update c.phase t g' t)
        rw [Function.update_self]
        exact hrest
      · exact Function.update_of_ne ht ..

end

end PeerThreads

end DistributedChat
