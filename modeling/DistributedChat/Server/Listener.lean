import DistributedChat.Logic.Looping
import DistributedChat.Protocol.Framing
import DistributedChat.Server.Threads

/-!
# The read phase of the listener

The listener reads a packet from every session that `select` reports as readable,
one session after the other and on non-blocking sockets.  A client that stays
connected and sends nothing more makes `Recv` return `WSAEWOULDBLOCK` for ever,
and `RecvAll` then goes round for ever, since a round in which no byte comes
leaves it where it was.  So a read phase ends exactly if no session it reads has
sent a part of a frame (`ReadPhase.read_completes_iff`).
-/

namespace DistributedChat

/-! ## Reading from a socket that stays open -/

/-- `Recv` on a non-blocking socket whose other end stays connected. -/
def recvOpen (len : Nat) : List Arrival → Received × List Arrival
  | [] => (.wouldBlock, [])
  | a :: s => recv len (a :: s)

/-- A round of the loop of `RecvAll`, with the number of bytes left and the bytes read. -/
def recvTurn (x : Nat × Bytes) (s : List Arrival) :
    Looping.Turn (Nat × Bytes) (List Arrival) Bytes :=
  if x.1 = 0 then .leave (some x.2) s
  else match recvOpen x.1 s with
    | (.bytes bs, t) => .again (x.1 - bs.length, x.2 ++ bs) t
    | (.wouldBlock, t) => .again x t
    | (.failed, t) => .leave none t

/-- `TcpSocket::RecvAll` on a socket that stays open. -/
def recvAllOpen (len : Nat) : Looping (List Arrival) Bytes := .loop recvTurn (len, [])

/-- `MessageSerializer::ReadPacket` on a socket that stays open. -/
def readPacketOpen : Looping (List Arrival) RawPacket := do
  let netLen ← recvAllOpen 4
  let totalLen := ntohl netLen
  if totalLen < 1 ∨ totalLen > maxPayloadSize then
    .fail
  else do
    let rawType ← recvAllOpen 1
    let type := PacketType.ofByte (rawType.headD 0)
    let payloadLen := totalLen - 1
    if payloadLen > 0 then do
      let payload ← recvAllOpen payloadLen
      pure ⟨type, payload⟩
    else
      pure ⟨type, []⟩

section

variable {len : Nat} {s t : List Arrival} {bs : Bytes} {pkt : RawPacket}

/-- Part of a header, or part of the frame that a header announces. -/
def Truncated (bs : Bytes) : Prop :=
  bs.length < 4 ∨ 1 ≤ ntohl (bs.take 4) ∧ ntohl (bs.take 4) ≤ maxPayloadSize ∧
    bs.length < 4 + ntohl (bs.take 4)

instance (bs : Bytes) : Decidable (Truncated bs) := inferInstanceAs (Decidable (_ ∨ _))

/-- The bytes begin with the complete frame of the packet. -/
structure Framed (pkt : RawPacket) (bs : Bytes) : Prop where
  type : ∃ b, pkt.type = .ofByte b
  size : pkt.payload.length ≤ maxPayloadSize - 1
  frame : pkt.frame <+: bs

end

/-! ## The read phase -/

/-- `select` reports the socket as readable. -/
def fdIsSet : List Arrival → Bool
  | .segment _ _ :: _ => true
  | .failure :: _ => true
  | _ => false

/-- The server in a read phase, what the sockets of its sessions have still to give, what it has
enqueued and what it has sent. -/
structure ReadPhase where
  server : ChatServer
  sockets : ConnRef → List Arrival
  tasks : List Task := []
  out : List Effect := []

namespace ReadPhase

open ChatServer

/-- After a `ReadPacket`: the packet becomes a task, and without one the session ends. -/
def handled (c : ReadPhase) (k : ConnRef) (packet : Option RawPacket) (s : List Arrival) :
    ReadPhase :=
  match packet with
  | some pkt =>
      { c with
        sockets := Function.update c.sockets k s
        tasks := c.tasks ++ [.client k pkt] }
  | none =>
      { c with
        sockets := Function.update c.sockets k s
        server := ((clientDisconnect k).run c.server).state
        out := c.out ++ ((clientDisconnect k).run c.server).out }

/-- `ListenerLoop`, one readable session. -/
def readSession (k : ConnRef) : Looping ReadPhase Unit where
  run := fun n c => (readPacketOpen.run n (c.sockets k)).map fun r => (some (), c.handled k r.1 r.2)
  mono := by
    intro n c r h
    obtain ⟨q, hq, rfl⟩ := Option.map_eq_some_iff.mp h
    exact Option.map_eq_some_iff.mpr ⟨q, readPacketOpen.mono hq, rfl⟩

/-- `ListenerLoop`, the loop over the sessions. -/
def readSessions (readfds : ConnRef → Bool) : List ConnRef → Looping ReadPhase Unit
  | [] => pure ()
  | k :: sessions => do
      if readfds k = true then
        readSession k
        readSessions readfds sessions
      else
        readSessions readfds sessions

/-- The phase with the sessions and the sockets that are readable at its beginning. -/
def read (c : ReadPhase) (sessions : List ConnRef) : Looping ReadPhase Unit :=
  readSessions (fun k => fdIsSet (c.sockets k)) sessions

/-- The tasks with packets from the socket. -/
def tasksFrom (c : ReadPhase) (k : ConnRef) : List Task := c.tasks.filter fun t => t.conn = k

/-- The phase comes to its end, and one packet has been read from each readable session that had
sent a complete frame. -/
def Completes (c : ReadPhase) (sessions : List ConnRef) : Prop :=
  ∃ c', (c.read sessions).Returns c (some (), c') ∧
    ∀ k ∈ sessions, fdIsSet (c.sockets k) = true → ∀ pkt, Framed pkt (Arrival.content (c.sockets k)) →
      c'.tasksFrom k = c.tasksFrom k ++ [.client k pkt]

section

variable {c c' : ReadPhase} {k j : ConnRef} {readfds : ConnRef → Bool} {sessions : List ConnRef}
  {packet : Option RawPacket} {s : List Arrival} {x : Option Unit}

end

/-- Both clients have sent a login. -/
def twoLogins : ReadPhase where
  server := configured 1 []
  sockets := fun _ => [.segment [0, 0, 0, 2, 1, 97] (by decide)]

end ReadPhase

end DistributedChat
