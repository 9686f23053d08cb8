import DistributedChat.Logic.Runs
import DistributedChat.Server.Links

/-!
# A cluster of servers

Servers connected by TCP connections, each handling one packet at a time.  A
connection between two servers has an end on each, a socket, and the bytes on
their way to an end are the frames in its inbox, oldest first.  So every
direction of every connection is first-in first-out, and nothing relates the
speeds of two of them.  A socket without far end is a client's.

Actions are numbered, and every frame carries the number of the action that set
it off, its `Cause`.  The log records what sessions are sent and what servers
read from each other.

No action makes a send fail: sockets take every frame until they are closed, and
heartbeat loops are in time.  `Cluster.undergo` is the cluster without these two
restrictions.  A frame with a payload above the maximum is never delivered.  It
stays in the inbox, and what `ReadPacket` does with it, which is to give up the
connection, is a `hang` of that end.
-/

namespace DistributedChat

/-- The number of the action that set off a frame or an event. -/
abbrev Cause := Nat

/-- An observable event. -/
inductive Event where
  /-- A server sends a packet to a session. -/
  | sent (server : Int) (k : ConnRef) (cause : Cause) (pkt : RawPacket)
  /-- A server reads a packet of another server. -/
  | received (source server : Int) (cause : Cause) (pkt : RawPacket)
deriving DecidableEq, Repr

/-- The servers, the connections between them and the history. -/
structure Cluster where
  ids : List Int
  server : Int → ChatServer
  /-- The other end of a connection between servers. -/
  far : Int → ConnRef → Option (Int × ConnRef) := fun _ _ => none
  /-- The frames on their way to an end. -/
  inbox : Int → ConnRef → List (Cause × RawPacket) := fun _ _ => []
  seq : Nat := 0
  log : List Event := []

/-- What happens in a cluster. -/
inductive Action where
  /-- A client of server `a` acts. -/
  | client (a : Int) (act : ClientAction)
  /-- A round of the heartbeat loop of server `a` at the given time. -/
  | heartbeat (a : Int) (now : Nat)
  /-- Server `b` reads the next frame on its end `k`. -/
  | deliver (b : Int) (k : ConnRef)
  /-- The connector of `a` connects to `b`, on handle `h`; `b` accepts on `h'`. -/
  | dial (a b : Int) (h h' : SOCKET)
  /-- Reading fails on the end `k` of server `a`. -/
  | hang (a : Int) (k : ConnRef)
deriving DecidableEq, Repr

namespace Cluster

open ChatServer

/-- The frames that outputs of server `a` put on their way to an end. -/
def framesTo (c : Cluster) (a : Int) (out : List Effect) (stop : Int × ConnRef) :
    List RawPacket :=
  out.filterMap fun
    | .toSession _ _ => none
    | .toPeer _ sock pkt => if c.far a sock = some stop then some pkt else none

/-- What outputs of server `a` leave in the log. -/
def events (a : Int) (cause : Cause) (out : List Effect) : List Event :=
  out.filterMap fun
    | .toSession k pkt => some (.sent a k cause pkt)
    | .toPeer _ _ _ => none

/-- Server `a` runs a program.  A frame is lost if nobody reads the far end. -/
def perform (c : Cluster) (a : Int) (cause : Cause) (prog : ServerProg Unit) : Cluster :=
  { c with
    server := Function.update c.server a (prog.run (c.server a)).state
    inbox := fun b k =>
      if (c.server b).reads k = true
      then c.inbox b k ++ (c.framesTo a (prog.run (c.server a)).out (b, k)).map (cause, ·)
      else c.inbox b k
    log := c.log ++ events a cause (prog.run (c.server a)).out }

/-- The next action has the next number. -/
def tick (c : Cluster) : Cluster := { c with seq := c.seq + 1 }

/-- An event happens. -/
def note (c : Cluster) (e : Event) : Cluster := { c with log := c.log ++ [e] }

/-- Take the frames on their way to an end as given. -/
def setInbox (c : Cluster) (b : Int) (k : ConnRef) (q : List (Cause × RawPacket)) : Cluster :=
  { c with inbox := Function.update c.inbox b (Function.update (c.inbox b) k q) }

/-- Two sockets become the ends of one connection. -/
def join (c : Cluster) (a : Int) (k : ConnRef) (b : Int) (k' : ConnRef) : Cluster :=
  { c with
    far := Function.update
      (Function.update c.far a (Function.update (c.far a) k (some (b, k')))) b
      (Function.update (c.far b) k' (some (a, k))) }

/-- Server `a` handles an action of one of its clients. -/
def clientStep (c : Cluster) (a : Int) : ClientAction → Option Cluster
  | .connect handle =>
      if (c.server a).connManager.FreeHandle handle then
        some (c.perform a c.seq (acceptConnection handle)).tick
      else none
  | .packet k pkt =>
      if (c.server a).reads k = true ∧ c.far a k = none ∧ pkt.Fits then
        some (c.perform a c.seq (readPacket k pkt)).tick
      else none
  | .disconnect k =>
      if (c.server a).reads k = true ∧ c.far a k = none then
        some (c.perform a c.seq (readFailure k)).tick
      else none

/-- One action of the cluster, if it can take place. -/
def step (c : Cluster) : Action → Option Cluster
  | .client a act => if a ∈ c.ids then c.clientStep a act else none
  | .heartbeat a now =>
      let s := { c.server a with now := now }
      if a ∈ c.ids ∧ ∀ p ∈ s.connManager.getAllPeerNodes, s.Timely p then
        some ({ c with server := Function.update c.server a s }.perform a c.seq
          heartbeatRound).tick
      else none
  | .deliver b k =>
      match c.far b k, c.inbox b k with
      | some (a, _), (cause, pkt) :: rest =>
          if (c.server b).reads k = true ∧ pkt.Fits then
            some (((c.setInbox b k rest).note (.received a b cause pkt)).perform b cause
              (readPacket k pkt))
          else none
      | _, _ => none
  | .dial a b h h' =>
      if a ∈ c.ids ∧ b ∈ c.ids ∧ a ≠ b ∧ (c.server a).connManager.hasPeerNode b = true ∧
          ((c.server a).connManager.nodes b).isConnected = false ∧
          (c.server a).connManager.FreeHandle h ∧ (c.server b).connManager.FreeHandle h' then
        let k := (c.server a).connManager.nextConn
        let k' := (c.server b).connManager.nextConn
        some (((c.join a k b k').perform b c.seq (acceptConnection h')).perform a
          c.seq (connectPeer b h)).tick
      else none
  | .hang a k =>
      if (c.server a).reads k = true ∧ c.far a k ≠ none then
        some ((c.setInbox a k []).perform a c.seq (readFailure k)).tick
      else none

end Cluster

end DistributedChat
