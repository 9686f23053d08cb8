import DistributedChat.Core.SendLoop
import DistributedChat.Protocol.Framing

/-!
# Lengths

`Serialize` counts in `uint32_t`, the send loops in `int`.  `serializeBuffer` is
`Serialize` with the writes it makes into its buffer, each of which must be in range;
where they are, the buffer is the frame (`serializeBuffer_eq_some_iff`).

For a frame of `2 ^ 31` bytes or more the count of bytes left starts out negative, so
the loop ends at once and reports that all is sent.  A little below `2 ^ 32` bytes of
payload the size of the buffer wraps and the writes go out of range; above, the length
of the payload wraps, and the frame is one of a shorter payload.  So a success means
that the frame was sent exactly for frames below `2 ^ 31` bytes
(`success_is_whole_frame_iff`).
-/

namespace DistributedChat

/-- `std::memcpy` into a buffer, or an assignment to its elements. -/
def memcpy (buffer : Bytes) (pos : Nat) (bytes : Bytes) : Option Bytes :=
  if pos + bytes.length ≤ buffer.length then
    some (buffer.take pos ++ bytes ++ buffer.drop (pos + bytes.length))
  else none

/-- `MessageSerializer::Serialize`, write by write. -/
def serializeBuffer (type : PacketType) (payload : Bytes) : Option Bytes := do
  let payloadLen := payload.length % 2 ^ 32
  let totalLen := (1 + payloadLen) % 2 ^ 32
  let buffer := List.replicate ((4 + totalLen) % 2 ^ 32) 0
  let buffer ← memcpy buffer 0 (htonl totalLen)
  let buffer ← memcpy buffer 4 [type.toByte]
  if payloadLen > 0 then
    memcpy buffer 5 (payload.take payloadLen)
  else
    return buffer

/-- `ClientSession::SendPacket` behind the serialization, with or without a socket. -/
def ClientSession.sendPacket (buffer : Bytes) (socket : Option (List Departure)) : Bool × Bytes :=
  match socket with
  | none => (false, [])
  | some s => ((sendLoop (.start buffer) s).1, (sendLoop (.start buffer) s).2.1)

/-! ## The buffer -/

theorem memcpy_append {a b c d : Bytes} (h : d.length = b.length) :
    memcpy (a ++ b ++ c) a.length d = some (a ++ d ++ c) := by
  rw [memcpy, if_pos (by simp [h])]
  simp [h]

theorem length_serialize (type : PacketType) (payload : Bytes) :
    (serialize type payload).length = 5 + payload.length % 2 ^ 32 := by
  have hle : payload.length % 2 ^ 32 ≤ payload.length := Nat.mod_le ..
  rw [serialize, List.length_append, List.length_cons, List.length_take, Nat.min_eq_left hle]
  show 4 + _ = _
  omega

/-- The three writes fill a buffer of the right size. -/
theorem writes_fill (type : PacketType) (total : Nat) (payload : Bytes) :
    (memcpy (List.replicate (4 + (1 + payload.length)) 0) 0 (htonl total)).bind (fun buffer =>
      (memcpy buffer 4 [type.toByte]).bind fun buffer =>
        if payload.length > 0 then memcpy buffer 5 payload else some buffer) =
      some (htonl total ++ type.toByte :: payload) := by
  have hlength : memcpy (List.replicate (4 + (1 + payload.length)) 0) 0 (htonl total) =
      some (htonl total ++ ([0] ++ List.replicate payload.length 0)) := by
    rw [List.replicate_add, List.replicate_add]
    exact memcpy_append (a := []) (b := List.replicate 4 0) rfl
  have htype : memcpy (htonl total ++ ([0] ++ List.replicate payload.length 0)) 4 [type.toByte] =
      some ((htonl total ++ [type.toByte]) ++ List.replicate payload.length 0) := by
    rw [← List.append_assoc]
    exact memcpy_append (a := htonl total) rfl
  rw [hlength, Option.bind_some, htype, Option.bind_some]
  have hpayload : memcpy ((htonl total ++ [type.toByte]) ++ List.replicate payload.length 0) 5
      payload = some ((htonl total ++ [type.toByte]) ++ payload) := by
    have h := memcpy_append (a := htonl total ++ [type.toByte]) (c := [])
      (b := List.replicate payload.length 0) (d := payload) (by simp)
    rwa [List.append_nil, List.append_nil] at h
  split
  · rw [hpayload, List.append_assoc]
    rfl
  · next hnil =>
      rw [List.length_eq_zero_iff.mp (Nat.le_zero.mp (not_lt.mp hnil))]
      rfl

/-- A write behind the buffer is out of range. -/
theorem memcpy_eq_none {buffer : Bytes} {pos : Nat} {bytes : Bytes}
    (h : buffer.length < pos + bytes.length) : memcpy buffer pos bytes = none :=
  if_neg (not_le.mpr h)

theorem length_memcpy {buffer buffer' : Bytes} {pos : Nat} {bytes : Bytes}
    (h : memcpy buffer pos bytes = some buffer') : buffer'.length = buffer.length := by
  obtain ⟨hle, heq⟩ := Option.ite_none_right_eq_some.mp h
  cases heq
  simp only [List.length_append, List.length_take, List.length_drop]
  omega

/-- The writes are in range unless the size of the buffer wraps, and then they make the frame. -/
theorem serializeBuffer_eq_some_iff {type : PacketType} {payload buffer : Bytes} :
    serializeBuffer type payload = some buffer ↔
      5 + payload.length % 2 ^ 32 < 2 ^ 32 ∧ buffer = serialize type payload := by
  have hle : payload.length % 2 ^ 32 ≤ payload.length := Nat.mod_le ..
  have htake : (payload.take (payload.length % 2 ^ 32)).length = payload.length % 2 ^ 32 := by
    rw [List.length_take, Nat.min_eq_left hle]
  have hlt : payload.length % 2 ^ 32 < 2 ^ 32 := Nat.mod_lt _ (by omega)
  by_cases hsize : 5 + payload.length % 2 ^ 32 < 2 ^ 32
  · have htotal : (1 + payload.length % 2 ^ 32) % 2 ^ 32 = 1 + payload.length % 2 ^ 32 :=
      Nat.mod_eq_of_lt (by omega)
    have hbuffer : (4 + (1 + payload.length % 2 ^ 32)) % 2 ^ 32 =
        4 + (1 + payload.length % 2 ^ 32) := Nat.mod_eq_of_lt (by omega)
    have hfill := writes_fill type (1 + payload.length % 2 ^ 32)
      (payload.take (payload.length % 2 ^ 32))
    rw [htake] at hfill
    have hwrites : serializeBuffer type payload = some (serialize type payload) := by
      rw [serializeBuffer, serialize, htotal, hbuffer]
      exact hfill
    rw [hwrites, Option.some.injEq, eq_comm, and_iff_right hsize]
  · refine iff_of_false (fun h => ?_) fun h => hsize h.1
    -- the size has wrapped to less than five bytes
    have hsmall : (4 + (1 + payload.length % 2 ^ 32) % 2 ^ 32) % 2 ^ 32 < 5 := by omega
    obtain ⟨first, hfirst, h⟩ := Option.bind_eq_some_iff.mp h
    obtain ⟨second, hsecond, -⟩ := Option.bind_eq_some_iff.mp h
    have hlen := length_memcpy hfirst
    rw [List.length_replicate] at hlen
    rw [memcpy_eq_none (by rw [List.length_singleton]; omega)] at hsecond
    cases hsecond

/-! ## What a success means -/

/-- As many bytes as the frame of the payload has, beginning with its length. -/
def WholeFrame (payload sent : Bytes) : Prop :=
  sent.length = 5 + payload.length ∧ ntohl (sent.take 4) = 1 + payload.length

/-- The packet is serialized without a write out of range, and when a send loop reports
success, the frame was sent. -/
def SuccessIsWholeFrame (type : PacketType) (payload : Bytes) : Prop :=
  ∃ buffer, serializeBuffer type payload = some buffer ∧
    (∀ s, (sendAll buffer s).1 = true → WholeFrame payload (sendAll buffer s).2.1) ∧
    ∀ socket, (ClientSession.sendPacket buffer socket).1 = true →
      WholeFrame payload (ClientSession.sendPacket buffer socket).2

/-- The loops report success for a frame of `2 ^ 31` bytes or more without sending. -/
theorem not_successIsWholeFrame_of_large {type : PacketType} {payload : Bytes}
    (h : 2 ^ 31 ≤ 5 + payload.length) : ¬ SuccessIsWholeFrame type payload := by
  rintro ⟨buffer, hbuffer, hall, -⟩
  obtain ⟨hsize, rfl⟩ := serializeBuffer_eq_some_iff.mp hbuffer
  have hlen := length_serialize type payload
  by_cases hsmall : 5 + payload.length % 2 ^ 32 < 2 ^ 31
  · -- the length of the payload has wrapped, and the shorter frame is sent
    obtain ⟨s, hs⟩ := exists_sendAll_succeeds (hlen.trans_lt hsmall)
    have hwhole := (hall s hs).1
    rw [(sendAll_sent (hlen.trans_lt hsmall) s).whole hs, hlen] at hwhole
    omega
  · have hneg : narrow (serialize type payload).length < 0 :=
      narrow_neg (by omega) (by omega)
    have hnothing := sendLoop_of_nonpos (x := .start (serialize type payload)) hneg.le []
    have hwhole := (hall [] (congrArg Prod.fst hnothing)).1
    rw [sendAll, hnothing, List.length_nil] at hwhole
    omega

/-- **Frame arithmetic.**  A success of the loops of `SendAll` and `SendPacket` means that the
frame was sent if and only if the frame has less than `2 ^ 31` bytes. -/
theorem success_is_whole_frame_iff (type : PacketType) (payload : Bytes) :
    SuccessIsWholeFrame type payload ↔ 5 + payload.length < 2 ^ 31 := by
  constructor
  · intro h
    by_contra hlarge
    exact not_successIsWholeFrame_of_large (not_lt.mp hlarge) h
  · intro hsmall
    have hmod : payload.length % 2 ^ 32 = payload.length := Nat.mod_eq_of_lt (by omega)
    have hlen := length_serialize type payload
    rw [hmod] at hlen
    have hwhole : WholeFrame payload (serialize type payload) := by
      refine ⟨hlen, ?_⟩
      have hheader := headerLen_eq ⟨type, payload⟩
      rw [hmod, Nat.mod_eq_of_lt (by omega)] at hheader
      exact hheader
    have hexact (s : List Departure) := sendAll_sent (hlen.trans_lt hsmall) s
    refine ⟨serialize type payload,
      serializeBuffer_eq_some_iff.mpr ⟨by rw [hmod]; omega, rfl⟩, fun s hs => ?_, fun socket hs => ?_⟩
    · rw [(hexact s).whole hs]
      exact hwhole
    · cases socket with
      | none => cases hs
      | some s =>
          show WholeFrame payload (sendAll (serialize type payload) s).2.1
          rw [(hexact s).whole hs]
          exact hwhole

/-- A broadcast of two gigabytes less five bytes of text. -/
theorem success_without_sending :
    ¬ ∀ (type : PacketType) (payload : Bytes), SuccessIsWholeFrame type payload := by
  intro h
  refine not_successIsWholeFrame_of_large ?_ (h .msgBroadcast (List.replicate (2 ^ 31 - 5) 65))
  rw [List.length_replicate]
  omega

end DistributedChat
