import DistributedChat.Core.Text

/-!
# Packets

`PacketType` is the enumeration of `protocol/Packet.h`.  `ReadPacket` casts any
byte to it, so a value may also be a byte the enumeration does not name; that is
`unknown`.
-/

namespace DistributedChat

/-- `enum class PacketType : uint8_t`, with the bytes it does not name. -/
inductive PacketType where
  | login
  | loginResp
  | msgPrivate
  | msgRoom
  | msgBroadcast
  | roomJoin
  | roomLeave
  | roomCreate
  | statusUpdate
  | s2sConnect
  | s2sHeartbeat
  | s2sHeartbeatAck
  | s2sReplicateUser
  | s2sRouteMsg
  | s2sRouteRoomMsg
  | s2sRoomMemberSync
  | unknown (b : UInt8)
deriving DecidableEq, Repr

/-- `static_cast<uint8_t>(type)`. -/
def PacketType.toByte : PacketType → UInt8
  | login => 1
  | loginResp => 2
  | msgPrivate => 3
  | msgRoom => 4
  | msgBroadcast => 5
  | roomJoin => 6
  | roomLeave => 7
  | roomCreate => 8
  | statusUpdate => 9
  | s2sConnect => 100
  | s2sHeartbeat => 101
  | s2sHeartbeatAck => 102
  | s2sReplicateUser => 103
  | s2sRouteMsg => 104
  | s2sRouteRoomMsg => 105
  | s2sRoomMemberSync => 106
  | unknown b => b

/-- `static_cast<PacketType>(rawType)`. -/
def PacketType.ofByte (b : UInt8) : PacketType :=
  match b with
  | 1 => login
  | 2 => loginResp
  | 3 => msgPrivate
  | 4 => msgRoom
  | 5 => msgBroadcast
  | 6 => roomJoin
  | 7 => roomLeave
  | 8 => roomCreate
  | 9 => statusUpdate
  | 100 => s2sConnect
  | 101 => s2sHeartbeat
  | 102 => s2sHeartbeatAck
  | 103 => s2sReplicateUser
  | 104 => s2sRouteMsg
  | 105 => s2sRouteRoomMsg
  | 106 => s2sRoomMemberSync
  | b => unknown b

@[simp] theorem PacketType.toByte_ofByte (b : UInt8) : (ofByte b).toByte = b := by
  fun_cases ofByte b <;> rfl

/-- The three packet types that carry a chat message to a client. -/
def PacketType.IsMessage : PacketType → Prop
  | msgPrivate | msgRoom | msgBroadcast => True
  | _ => False

instance : DecidablePred PacketType.IsMessage := fun
  | .msgPrivate | .msgRoom | .msgBroadcast => instDecidableTrue
  | .login | .loginResp | .roomJoin | .roomLeave | .roomCreate | .statusUpdate | .s2sConnect
  | .s2sHeartbeat | .s2sHeartbeatAck | .s2sReplicateUser | .s2sRouteMsg | .s2sRouteRoomMsg
  | .s2sRoomMemberSync | .unknown _ => instDecidableFalse

/-- `struct RawPacket`. -/
structure RawPacket where
  /-- The type byte. -/
  type : PacketType
  /-- The payload. -/
  payload : Bytes
deriving DecidableEq, Repr

/-- `MessageSerializer::MAX_PAYLOAD_SIZE`. -/
def maxPayloadSize : Nat := 1024 * 1024

/-- `ReadPacket` accepts the packet's frame: the type byte and the payload stay
within `MAX_PAYLOAD_SIZE`. -/
def RawPacket.Fits (pkt : RawPacket) : Prop := 1 + pkt.payload.length ≤ maxPayloadSize

instance (pkt : RawPacket) : Decidable pkt.Fits :=
  inferInstanceAs (Decidable (_ ≤ _))

end DistributedChat
