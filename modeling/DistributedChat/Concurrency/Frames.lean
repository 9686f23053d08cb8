import DistributedChat.Logic.Writers
import DistributedChat.Protocol.Framing
import DistributedChat.Protocol.MessageSerializer
import Mathlib.Data.List.Permutation

/-!
# Frames on the socket of a peer

Above this module a frame goes to a peer in one step.  Here a frame is sent as
the source sends it: every sender has a loop around `Send`, which takes a part
of the bytes left or reports `WSAEWOULDBLOCK`, and the loops of different threads
are interleaved at will.  `ClientSession::SendPacket` holds a mutex for the
length of its loop; the loops on peer sockets hold none.

So frames may be torn.  They stay whole exactly in the runs in which no `Send`
takes bytes of one frame while another frame is half sent.
-/

namespace DistributedChat

/-- The send loops on the socket of a peer and what they send. -/
inductive PeerSender where
  /-- `ReplicationManager::BroadcastS2S`. -/
  | broadcastS2S (type : PacketType) (payload : Bytes)
  /-- `ReplicationManager::RoutePrivateMessage`. -/
  | routePrivateMessage (sender receiver text : Bytes)
  /-- `ReplicationManager::RouteRoomMessage`. -/
  | routeRoomMessage (sender room text : Bytes)
  /-- `HeartbeatManager::HeartbeatLoop`. -/
  | heartbeatLoop (serverId : Int)
  /-- `ChatServer::HandleS2SHeartbeat`. -/
  | handleS2SHeartbeat (serverId : Int)
  /-- `ChatServer::PeerConnectorLoop`, with `TcpSocket::SendAll`. -/
  | peerConnectorLoop (serverId : Int)
deriving DecidableEq, Repr

namespace PeerSender

/-- The packet a loop sends. -/
def packet : PeerSender → RawPacket
  | broadcastS2S type payload => ⟨type, payload⟩
  | routePrivateMessage sender receiver text => ⟨.s2sRouteMsg, pack [sender, receiver, text]⟩
  | routeRoomMessage sender room text => ⟨.s2sRouteRoomMsg, pack [sender, room, text]⟩
  | heartbeatLoop serverId => ⟨.s2sHeartbeat, toString serverId⟩
  | handleS2SHeartbeat serverId => ⟨.s2sHeartbeatAck, toString serverId⟩
  | peerConnectorLoop serverId => ⟨.s2sConnect, toString serverId⟩

/-- The buffer of the loop. -/
def frame (x : PeerSender) : Bytes := x.packet.frame

theorem frame_ne_nil (x : PeerSender) : x.frame ≠ [] := nofun

end PeerSender

/-- The loops of a list of senders at their start.  An action `write` is a turn of a
loop in which `Send` takes that many bytes, `refuse` one in which it would block. -/
def sendLoops (senders : List PeerSender) : Writers (Fin senders.length) UInt8 :=
  Writers.start fun i => (senders.get i).frame

/-- Frames that are whole are the frames of the senders in some order. -/
theorem bytes_of_whole {senders : List PeerSender} {w : Writers (Fin senders.length) UInt8}
    (h : w.Whole fun i => (senders.get i).frame) :
    ∃ order : List PeerSender, order.Perm senders ∧ w.contents = order.flatMap PeerSender.frame := by
  obtain ⟨order, hnodup, hmem, hstream⟩ := h
  have hall : ∀ i, i ∈ order ↔ i ∈ List.finRange senders.length := fun i =>
    ⟨fun _ => List.mem_finRange i, fun _ => (hmem i).mpr (PeerSender.frame_ne_nil _)⟩
  have hperm : order.Perm (List.finRange senders.length) :=
    (List.perm_ext_iff_of_nodup hnodup (List.nodup_finRange _)).mpr hall
  refine ⟨order.map senders.get, ?_, ?_⟩
  · have hmap := hperm.map senders.get
    rwa [List.map_get_finRange] at hmap
  · rw [Writers.contents, hstream, List.map_flatMap, List.flatMap_map]
    exact List.flatMap_congr fun i _ => Writers.map_snd_signed i _

/-- What undisturbed loops send is read by the peer, packet by packet, however it
arrives. -/
theorem sent_frames_read {senders : List PeerSender}
    {as : List (WriterAction (Fin senders.length))} {w : Writers (Fin senders.length) UInt8}
    (hfits : ∀ x ∈ senders, (∃ b, x.packet.type = .ofByte b) ∧
      x.packet.payload.length ≤ maxPayloadSize - 1)
    (hrun : exec Writers.next (sendLoops senders) as = some w) (hdone : w.Done)
    (hgood : Along Writers.next Writers.Undisturbed (sendLoops senders) as) :
    ∃ order : List PeerSender, order.Perm senders ∧
      received.Reads (Source.many MessageSerializer.readPacket senders.length) w.contents
        (order.map PeerSender.packet) := by
  obtain ⟨order, hperm, hcontents⟩ :=
    bytes_of_whole (Writers.whole_of_undisturbed hgood hrun hdone)
  refine ⟨order, hperm, ?_⟩
  have hpkts : ∀ pkt ∈ order.map PeerSender.packet, (∃ b, pkt.type = .ofByte b) ∧
      pkt.payload.length ≤ maxPayloadSize - 1 := by
    intro pkt hpkt
    obtain ⟨x, hx, rfl⟩ := List.mem_map.mp hpkt
    exact hfits x (hperm.subset hx)
  have hreads := readPackets_reads hpkts
  rw [List.length_map, hperm.length_eq, List.flatMap_map] at hreads
  rw [hcontents]
  exact hreads

/-- **Torn frames.**  When all senders have finished, every byte stands with the
other bytes of its frame exactly if no `Send` took bytes of one frame while another
was half sent; and then the bytes are the frames of the senders in some order. -/
theorem frames_whole (senders : List PeerSender)
    (as : List (WriterAction (Fin senders.length))) {w : Writers (Fin senders.length) UInt8}
    (hrun : exec Writers.next (sendLoops senders) as = some w) (hdone : w.Done) :
    ((w.Whole fun i => (senders.get i).frame) ↔
      Along Writers.next Writers.Undisturbed (sendLoops senders) as) ∧
    (Along Writers.next Writers.Undisturbed (sendLoops senders) as →
      ∃ order : List PeerSender, order.Perm senders ∧
        w.contents = order.flatMap PeerSender.frame) := by
  have hiff := Writers.whole_iff_undisturbed hrun hdone
  exact ⟨hiff, fun hgood => bytes_of_whole (hiff.mpr hgood)⟩

/-- A heartbeat and an acknowledgement to the same peer. -/
def twoHeartbeats : List PeerSender := [.heartbeatLoop 1, .handleS2SHeartbeat 1]

/-- The acknowledgement in two pieces, and the heartbeat after it. -/
theorem frames_whole_heartbeats :
    ∃ w, exec Writers.next (sendLoops twoHeartbeats)
        [.write (1 : Fin 2) 2, .refuse (1 : Fin 2), .write (1 : Fin 2) 4,
          .write (0 : Fin 2) 6] = some w ∧
      ∃ order : List PeerSender, order.Perm twoHeartbeats ∧
        w.contents = order.flatMap PeerSender.frame :=
  ⟨_, rfl, (frames_whole twoHeartbeats
    [.write (1 : Fin 2) 2, .refuse (1 : Fin 2), .write (1 : Fin 2) 4, .write (0 : Fin 2) 6] rfl
    (by decide +kernel)).2 (by decide +kernel)⟩

/-- The acknowledgement between the bytes of the heartbeat. -/
theorem not_frames_whole :
    ¬ ∀ (senders : List PeerSender) (as : List (WriterAction (Fin senders.length)))
      (w : Writers (Fin senders.length) UInt8),
      exec Writers.next (sendLoops senders) as = some w → w.Done →
      ∃ order : List PeerSender, order.Perm senders ∧
        w.contents = order.flatMap PeerSender.frame := by
  intro h
  obtain ⟨order, hperm, hcontents⟩ :=
    h twoHeartbeats [.write (0 : Fin 2) 5, .write (1 : Fin 2) 6, .write (0 : Fin 2) 1] _ rfl
      (by decide +kernel)
  have hmem := List.mem_permutations'.mpr hperm
  have htorn : ∀ order ∈ twoHeartbeats.permutations', order.flatMap PeerSender.frame ≠
      [0, 0, 0, 2, 101, 0, 0, 0, 2, 102, 49, 49] := by
    decide +kernel
  exact htorn order hmem hcontents.symm

end DistributedChat
