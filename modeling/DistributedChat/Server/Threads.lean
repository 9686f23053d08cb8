import DistributedChat.Logic.Pool
import DistributedChat.Logic.Runs
import DistributedChat.Server.Sessions

/-!
# The threads of a server

`ChatServer` with all its threads: the listener, the heartbeat thread, the peer
connector and the workers of the pool.  Each runs its programs section by
section, and any order of their sections is possible.

The listener goes through a snapshot of the sessions, which it takes at the
start of a round of its loop.  A packet it reads it holds until it has put the
task into the queue.  It checks the link of a peer and reads from it in one
action: a link that is closed in between fails the read, and the disconnect of a
peer that is not connected does nothing.

`accept` and `dial` make the socket object and its handle in one action.  Nobody
else knows the object before it is registered.

The sockets take what is sent on them.  In the runs of `happen` the network may
also stop to take frames on a socket, at any time.
-/

namespace DistributedChat

/-- A packet the listener has read. -/
inductive Task where
  /-- From the socket of a client session. -/
  | client (k : ConnRef) (pkt : RawPacket)
  /-- From the socket `k` of peer `p`. -/
  | peer (p : Int) (k : ConnRef) (pkt : RawPacket)
deriving DecidableEq, Repr

/-- The socket the packet was read from. -/
def Task.conn : Task → ConnRef
  | client k _ => k
  | peer _ k _ => k

/-- The packet. -/
def Task.packet : Task → RawPacket
  | client _ pkt => pkt
  | peer _ _ pkt => pkt

/-- What a thread has to do. -/
inductive Work where
  /-- A task of the pool. -/
  | task (t : Task)
  /-- The listener handles the end of a client's connection. -/
  | clientGone (k : ConnRef)
  /-- The listener handles the end of a peer's link. -/
  | peerGone (p : Int)
  /-- A round of the heartbeat loop. -/
  | heartbeats
  /-- The connector registers its socket for a peer. -/
  | connected (p : Int) (sock : ConnRef)
deriving DecidableEq, Repr

/-- The connection of a packet. -/
def Work.conn : Work → Option ConnRef
  | task t => some t.conn
  | _ => none

namespace ChatServer

open Prog (observe update each)

/-- `PeerConnectorLoop`, one peer, after `Connect` has succeeded. -/
def peerConnected (p : Int) (sock : ConnRef) : ServerProg Unit := do
  update fun s => s.onConn (·.registerPeerSocket p sock s.now)
  update (onConn (·.setConnected p true))
  update fun s => s.onConn (·.updateHeartbeat p s.now)
  let id ← observe serverId
  let _ ← sendFrame p sock .s2sConnect (toString id)

/-- The connector run alone checks the peer, makes a socket and registers it. -/
theorem run_connectPeer_of_down {s : ChatServer} {p : Int}
    (hp : s.connManager.hasPeerNode p = true) (hd : (s.connManager.nodes p).isConnected = false)
    (handle : SOCKET) : (connectPeer p handle).run s =
      (peerConnected p s.connManager.nextConn).run (s.onConn (·.newSocket handle)) := by
  simp only [connectPeer, peerConnected, Prog.run_bind, Prog.run_observe, Prog.run_update, hp, hd,
    and_self, if_true, Prog.run_pure, List.nil_append, List.append_nil]

end ChatServer

open ChatServer in
/-- The program of a piece of work. -/
def Work.prog : Work → ServerProg Unit
  | task (.client k pkt) => handleClientPacket k pkt
  | task (.peer p _ pkt) => handleServerPacket p pkt
  | clientGone k => clientDisconnect k
  | peerGone p => handlePeerDisconnect p
  | heartbeats => heartbeatRound
  | connected p sock => peerConnected p sock

/-- The threads of a server whose pool has `n` workers. -/
inductive Thread (n : Nat) where
  | worker (i : Fin n)
  | listener
  | heartbeat
  | connector
deriving DecidableEq, Repr

theorem Thread.forall_iff {n : Nat} {p : Thread n → Prop} :
    (∀ t, p t) ↔ (∀ i, p (.worker i)) ∧ p .listener ∧ p .heartbeat ∧ p .connector := by
  constructor
  · exact fun h => ⟨fun i => h _, h _, h _, h _⟩
  · rintro ⟨hw, hl, hh, hc⟩ t
    cases t with
    | worker i => exact hw i
    | listener => exact hl
    | heartbeat => exact hh
    | connector => exact hc

instance {n : Nat} (p : Thread n → Prop) [DecidablePred p] : Decidable (∀ t, p t) :=
  decidable_of_iff' _ Thread.forall_iff

instance {n : Nat} (p : Thread n → Prop) [DecidablePred p] : Decidable (∃ t, p t) :=
  decidable_of_iff (¬ ∀ t, ¬ p t) not_forall_not

/-- Pools of one worker and of four. -/
instance neZero_one : NeZero 1 := ⟨Nat.one_ne_zero⟩

@[inherit_doc neZero_one]
instance neZero_four : NeZero 4 := ⟨Nat.succ_ne_zero 3⟩

/-- A server and its threads. -/
structure Threads (n : Nat) extends Pool (Thread n) ChatServer Effect Work where
  /-- The sessions the listener has still to look at in this round. -/
  snapshot : List ConnRef := []
  /-- The packet the listener has read and not yet enqueued. -/
  held : Option Task := none

/-- What the threads do. -/
inductive ThreadAction (n : Nat) where
  /-- A worker takes the task at the head of the queue. -/
  | take (i : Fin n)
  /-- A thread performs the next section of its program. -/
  | run (t : Thread n)
  /-- The program of a thread has ended. -/
  | finish (t : Thread n)
  /-- The listener accepts a connection. -/
  | accept (handle : SOCKET)
  /-- The listener starts a round. -/
  | scan
  /-- The listener reads a packet of a session. -/
  | read (k : ConnRef) (pkt : RawPacket)
  /-- Reading from a session fails. -/
  | hangUp (k : ConnRef)
  /-- The listener reads a packet of a peer. -/
  | readPeer (p : Int) (pkt : RawPacket)
  /-- Reading from a peer fails. -/
  | hangUpPeer (p : Int)
  /-- The listener puts the packet it has read into the queue. -/
  | enqueue
  /-- Time passes. -/
  | clock (now : Nat)
  /-- The heartbeat thread starts a round. -/
  | beat
  /-- The connector has connected to a peer. -/
  | dial (p : Int) (handle : SOCKET)
deriving DecidableEq, Repr

namespace Threads

variable {n : Nat}

/-- The threads of a server in which nothing is going on. -/
def idle (s : ChatServer) : Threads n := { state := s }

/-- No packet is waiting or being handled, and no thread is busy. -/
def Settled (c : Threads n) : Prop := c.toPool.Idle ∧ c.held = none

/-- The listener is between two reads. -/
def Listening (c : Threads n) : Prop := c.running .listener = none ∧ c.held = none

/-- The same listener with another pool. -/
def withPool (c : Threads n) (P : Pool (Thread n) ChatServer Effect Work) : Threads n :=
  { c with toPool := P }

/-- The listener starts a program of its own. -/
def launch (c : Threads n) (t : Thread n) (w : Work) : Option (Threads n) :=
  (c.toPool.launch t w w.prog).map c.withPool

/-- A packet of the connection is waiting or being handled. -/
def Awaits (c : Threads n) (k : ConnRef) : Prop :=
  (∃ j ∈ c.queue, j.label.conn = some k) ∨ ∃ t, ∃ j ∈ c.running t, j.label.conn = some k

/-- Something of the kind is held, waiting or being handled. -/
def UnderWay (c : Threads n) (P : Work → Prop) : Prop :=
  (∃ t ∈ c.held, P (.task t)) ∨ (∃ j ∈ c.queue, P j.label) ∨ ∃ t, ∃ j ∈ c.running t, P j.label

instance (c : Threads n) (P : Work → Prop) [DecidablePred P] : Decidable (c.UnderWay P) :=
  inferInstanceAs (Decidable (_ ∨ _))

instance (c : Threads n) : Decidable c.Listening := inferInstanceAs (Decidable (_ ∧ _))

instance (c : Threads n) : Decidable c.Settled :=
  inferInstanceAs (Decidable ((c.queue = [] ∧ ∀ t, c.running t = none) ∧ c.held = none))

instance (c : Threads n) (k : ConnRef) : Decidable (c.Awaits k) :=
  inferInstanceAs (Decidable (_ ∨ _))

/-- One action of a thread, if it can take place. -/
def next (c : Threads n) : ThreadAction n → Option (Threads n)
  | .take i => (c.toPool.take (.worker i)).map c.withPool
  | .run t => (c.toPool.advance t).map c.withPool
  | .finish t => (c.toPool.finish t).map c.withPool
  | .accept handle =>
      if c.Listening ∧ c.state.connManager.FreeHandle handle then
        some { c with state := c.state.onConn (·.accepted handle) }
      else none
  | .scan =>
      if c.Listening then some { c with snapshot := c.state.connManager.getAllSessions } else none
  | .read k pkt =>
      if c.Listening ∧ k ∈ c.snapshot ∧ pkt.Fits then
        some { c with snapshot := c.snapshot.filter (· ≠ k), held := some (.client k pkt) }
      else none
  | .hangUp k =>
      if c.Listening ∧ k ∈ c.snapshot then
        { c with snapshot := c.snapshot.filter (· ≠ k) }.launch .listener (.clientGone k)
      else none
  | .readPeer p pkt =>
      match c.state.connManager.linkSocket p with
      | none => none
      | some k =>
          if c.Listening ∧ c.state.connManager.hasPeerNode p = true ∧ pkt.Fits then
            some { c with snapshot := [], held := some (.peer p k pkt) }
          else none
  | .hangUpPeer p =>
      if c.Listening ∧ c.state.connManager.hasPeerNode p = true ∧
          (c.state.connManager.linkSocket p).isSome = true then
        { c with snapshot := [] }.launch .listener (.peerGone p)
      else none
  | .enqueue =>
      match c.held with
      | none => none
      | some t => some { c.withPool (c.toPool.submit (.task t) (Work.task t).prog) with held := none }
  | .clock now =>
      if c.state.now ≤ now then some { c with state := { c.state with now := now } } else none
  | .beat => c.launch .heartbeat .heartbeats
  | .dial p handle =>
      if c.state.connManager.hasPeerNode p = true ∧
          (c.state.connManager.nodes p).isConnected = false ∧
          c.state.connManager.FreeHandle handle then
        { c with state := c.state.onConn (·.newSocket handle) }.launch .connector
          (.connected p c.state.connManager.nextConn)
      else none

end Threads

/-- The threads act, or the network cuts off a socket. -/
inductive Happening (n : Nat) where
  | act (a : ThreadAction n)
  | cut (k : ConnRef)

namespace Threads

variable {n : Nat}

/-- What happens to the threads, if it can. -/
def happen (c : Threads n) : Happening n → Option (Threads n)
  | .act a => c.next a
  | .cut k => some { c with state := c.state.cutOff k }

end Threads

end DistributedChat
