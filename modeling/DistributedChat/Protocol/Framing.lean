import DistributedChat.Core.Socket
import DistributedChat.Protocol.Packet

/-!
# Frames

A packet travels as a frame: the length of what follows in network byte order,
the type byte, the payload.  `ReadPacket` reads a frame off a socket with three
calls of `RecvAll` and refuses a length that is `0` or above `MAX_PAYLOAD_SIZE`.

A frame says where it ends, so a sequence of frames is read back as it was
written, whatever follows it and in whatever pieces it arrives; and nothing but
a frame is ever read.
-/

namespace DistributedChat

/-! ## Network byte order -/

/-- The bytes of `htonl(n)` in memory. -/
def htonl (n : Nat) : Bytes :=
  [UInt8.ofNat (n / 2 ^ 24), UInt8.ofNat (n / 2 ^ 16), UInt8.ofNat (n / 2 ^ 8), UInt8.ofNat n]

/-- `ntohl` of the bytes in memory. -/
def ntohl (netLen : Bytes) : Nat := netLen.foldl (fun n b => n * 256 + b.toNat) 0

theorem ntohl_htonl {n : Nat} (h : n < 2 ^ 32) : ntohl (htonl n) = n := by
  simp only [ntohl, htonl, List.foldl_cons, List.foldl_nil, UInt8.toNat_ofNat']
  omega

theorem htonl_ntohl {netLen : Bytes} (h : netLen.length = 4) : htonl (ntohl netLen) = netLen := by
  obtain ⟨a, b, c, d, rfl⟩ := List.length_eq_four.mp h
  have ha := a.toNat_lt
  have hb := b.toNat_lt
  have hc := c.toNat_lt
  have hd := d.toNat_lt
  simp only [ntohl, htonl, List.foldl_cons, List.foldl_nil, List.cons.injEq, and_true,
    ← UInt8.toNat_inj, UInt8.toNat_ofNat']
  omega

/-! ## Writing and reading a frame -/

/-- `MessageSerializer::Serialize`.  The lengths are `uint32_t`.  A payload so long
that the buffer size wraps makes the source write past its buffer. -/
def serialize (type : PacketType) (payload : Bytes) : Bytes :=
  let payloadLen := payload.length % 2 ^ 32
  let totalLen := (1 + payloadLen) % 2 ^ 32
  htonl totalLen ++ type.toByte :: payload.take payloadLen

/-- `MessageSerializer::ReadPacket`.  After a failure the caller closes the socket. -/
def MessageSerializer.readPacket : StateT (List Arrival) Option RawPacket := do
  let netLen ← recvAll 4
  let totalLen := ntohl netLen
  if totalLen < 1 ∨ totalLen > maxPayloadSize then
    failure
  else do
    let rawType ← recvAll 1
    let type := PacketType.ofByte (rawType.headD 0)
    let payloadLen := totalLen - 1
    if payloadLen > 0 then do
      let payload ← recvAll payloadLen
      pure ⟨type, payload⟩
    else
      pure ⟨type, []⟩

/-- The frame of a packet. -/
def RawPacket.frame (pkt : RawPacket) : Bytes := serialize pkt.type pkt.payload

theorem serialize_eq (type : PacketType) {payload : Bytes}
    (h : payload.length ≤ maxPayloadSize - 1) :
    serialize type payload = htonl (1 + payload.length) ++ ([type.toByte] ++ payload) := by
  have hlen : payload.length < 2 ^ 20 := Nat.lt_of_le_pred (by decide) h
  have hmod : payload.length % 2 ^ 32 = payload.length := Nat.mod_eq_of_lt (by omega)
  have htotal : (1 + payload.length) % 2 ^ 32 = 1 + payload.length := Nat.mod_eq_of_lt (by omega)
  show htonl ((1 + payload.length % 2 ^ 32) % 2 ^ 32) ++
    type.toByte :: payload.take (payload.length % 2 ^ 32) = _
  rw [hmod, htotal, List.take_length]
  rfl

/-- The length in the header of the packet's frame. -/
def RawPacket.headerLen (pkt : RawPacket) : Nat := ntohl (pkt.frame.take 4)

theorem headerLen_eq (pkt : RawPacket) :
    pkt.headerLen = (1 + pkt.payload.length % 2 ^ 32) % 2 ^ 32 := by
  rw [RawPacket.headerLen, RawPacket.frame, serialize]
  show ntohl (htonl ((1 + pkt.payload.length % 2 ^ 32) % 2 ^ 32)) = _
  exact ntohl_htonl (Nat.mod_lt _ (by omega))

/-! ## Reading a frame back -/

/-- `ReadPacket` reads a frame of admissible size as its packet. -/
theorem MessageSerializer.readPacket_reads (b : UInt8) {payload : Bytes}
    (h : payload.length ≤ maxPayloadSize - 1) :
    received.Reads MessageSerializer.readPacket (serialize (.ofByte b) payload)
      ⟨.ofByte b, payload⟩ := by
  have hmax : maxPayloadSize = 2 ^ 20 := rfl
  rw [serialize_eq _ h, PacketType.toByte_ofByte]
  refine (recvAll_reads (htonl (1 + payload.length))).bind ?_
  rw [ntohl_htonl (by omega), if_neg (by omega)]
  refine (recvAll_reads [b]).bind ?_
  rw [Nat.add_sub_cancel_left]
  dsimp only
  split
  next hpos =>
    exact (recvAll_reads payload).map fun payload => RawPacket.mk (.ofByte b) payload
  next hpos =>
    have hnil : payload = [] := List.length_eq_zero_iff.mp (by omega)
    subst hnil
    exact .pure _

/-- Repeated calls of `ReadPacket` read a sequence of such frames. -/
theorem readPackets_reads {pkts : List RawPacket}
    (h : ∀ pkt ∈ pkts, (∃ b, pkt.type = .ofByte b) ∧ pkt.payload.length ≤ maxPayloadSize - 1) :
    received.Reads (Source.many MessageSerializer.readPacket pkts.length)
      (pkts.flatMap RawPacket.frame) pkts := by
  refine Source.Reads.many fun pkt hpkt => ?_
  obtain ⟨⟨b, hb⟩, hsize⟩ := h pkt hpkt
  obtain ⟨type, payload⟩ := pkt
  subst hb
  exact MessageSerializer.readPacket_reads b hsize

/-- A packet that `ReadPacket` returns is of admissible size, and what was consumed is its
frame. -/
theorem readPacket_eq_some {s s' : List Arrival} {pkt : RawPacket}
    (h : MessageSerializer.readPacket.run s = some (pkt, s')) :
    pkt.Fits ∧ received.content s = pkt.frame ++ received.content s' := by
  obtain ⟨netLen, s₁, hnet, h⟩ := Source.run_bind_eq_some.mp h
  obtain ⟨hlen₁, hc₁⟩ := recvAll_eq_some hnet
  dsimp only at h
  split at h
  next => cases h
  next hlimits =>
    obtain ⟨rawType, s₂, htype, h⟩ := Source.run_bind_eq_some.mp h
    obtain ⟨hlen₂, hc₂⟩ := recvAll_eq_some htype
    obtain ⟨b, rfl⟩ := List.length_eq_one_iff.mp hlen₂
    -- the payload is what the length announces, also when that is nothing
    obtain ⟨payload, hpkt, hlen₃, hc₃⟩ : ∃ payload, pkt = ⟨.ofByte b, payload⟩ ∧
        payload.length = ntohl netLen - 1 ∧
        received.content s₂ = payload ++ received.content s' := by
      split at h
      next hpos =>
        obtain ⟨payload, s₃, hpay, h⟩ := Source.run_bind_eq_some.mp h
        cases h
        exact ⟨payload, rfl, recvAll_eq_some hpay⟩
      next hpos =>
        cases h
        refine ⟨[], rfl, ?_, rfl⟩
        rw [List.length_nil]
        omega
    subst hpkt
    have htotal : 1 + payload.length = ntohl netLen := by omega
    have hsize : payload.length ≤ maxPayloadSize - 1 := by omega
    refine ⟨show 1 + payload.length ≤ maxPayloadSize by omega, ?_⟩
    rw [RawPacket.frame, serialize_eq _ hsize, htotal, htonl_ntohl hlen₁,
      PacketType.toByte_ofByte, hc₁, hc₂, hc₃]
    simp only [List.append_assoc]

/-- What `ReadPacket` consumes is the frame of the packet it returns. -/
theorem readPacket_consumes : received.Consumes MessageSerializer.readPacket RawPacket.frame :=
  fun _ _ _ h => (readPacket_eq_some h).2

/-- `ReadPacket` reads the frame of the packet as that packet, in whatever pieces it arrives
and whatever follows it. -/
def RawPacket.Arrives (pkt : RawPacket) : Prop :=
  ∀ (s : List Arrival) (trail : Bytes), .failure ∉ s →
    Arrival.content s = pkt.frame ++ trail →
    ∃ s', MessageSerializer.readPacket.run s = some (pkt, s') ∧ Arrival.content s' = trail

/-- A packet arrives if its frame is not too large, and only then. -/
theorem RawPacket.arrives_iff {pkt : RawPacket} (hb : ∃ b, pkt.type = .ofByte b) :
    pkt.Arrives ↔ pkt.Fits := by
  constructor
  · intro h
    have hne : pkt.frame ≠ [] := by simp [RawPacket.frame, serialize]
    obtain ⟨s', hrun, -⟩ := h [.segment pkt.frame hne] [] (by simp) rfl
    exact (readPacket_eq_some hrun).1
  · intro h s trail hs hc
    obtain ⟨b, hb⟩ := hb
    obtain ⟨type, payload⟩ := pkt
    subst hb
    obtain ⟨s', hrun, hc', -⟩ :=
      MessageSerializer.readPacket_reads b (Nat.le_sub_one_of_lt (Nat.one_add_le_iff.mp h))
        s trail hs hc
    exact ⟨s', hrun, hc'⟩

/-- `ReadPacket` fails on a header whose length is `0` or above `MAX_PAYLOAD_SIZE`. -/
theorem readPacket_refuses {s : List Arrival} {netLen rest : Bytes} (hlen : netLen.length = 4)
    (hc : Arrival.content s = netLen ++ rest)
    (h : ntohl netLen = 0 ∨ maxPayloadSize < ntohl netLen) :
    MessageSerializer.readPacket.run s = none := by
  rw [Option.eq_none_iff_forall_not_mem]
  rintro ⟨pkt, s'⟩ hrun
  obtain ⟨netLen', s₁, hnet, hrun⟩ := Source.run_bind_eq_some.mp hrun
  obtain ⟨hlen', hc'⟩ := recvAll_eq_some hnet
  obtain ⟨rfl, -⟩ := List.append_inj (hc.symm.trans hc') (hlen.trans hlen'.symm)
  rw [if_pos (by omega)] at hrun
  cases hrun

/-- **Framing.**  Frames of admissible size are read back as the packets they were
written for, in whatever pieces they arrive and whatever follows them; what is read
is a frame; and a length outside the limits is refused. -/
theorem framing_exact :
    (∀ (pkts : List RawPacket) (trail : Bytes) (s : List Arrival),
      (∀ pkt ∈ pkts, (∃ b, pkt.type = .ofByte b) ∧ pkt.payload.length ≤ maxPayloadSize - 1) →
      .failure ∉ s → Arrival.content s = pkts.flatMap RawPacket.frame ++ trail →
      ∃ s', (Source.many MessageSerializer.readPacket pkts.length).run s = some (pkts, s') ∧
        Arrival.content s' = trail) ∧
    (∀ (s s' : List Arrival) (pkt : RawPacket),
      MessageSerializer.readPacket.run s = some (pkt, s') →
      Arrival.content s = pkt.frame ++ Arrival.content s') ∧
    (∀ (s : List Arrival) (netLen rest : Bytes), netLen.length = 4 →
      Arrival.content s = netLen ++ rest → (ntohl netLen = 0 ∨ maxPayloadSize < ntohl netLen) →
      MessageSerializer.readPacket.run s = none) := by
  refine ⟨?_, fun s s' pkt h => readPacket_consumes s pkt s' h,
    fun s netLen rest hlen hc h => readPacket_refuses hlen hc h⟩
  intro pkts trail s hpkts hs hc
  obtain ⟨s', hrun, hc', -⟩ := readPackets_reads hpkts s trail hs hc
  exact ⟨s', hrun, hc'⟩

/-- A packet without payload in two segments, and the first byte of the next frame. -/
theorem framing_exact_login :
    ∃ s', (Source.many MessageSerializer.readPacket 1).run
        [.segment [0, 0] (by decide), .wouldBlock, .segment [0, 1, 1, 0] (by decide)] =
          some ([⟨.ofByte 1, []⟩], s') ∧
      Arrival.content s' = [0] :=
  framing_exact.1 [⟨.ofByte 1, []⟩] [0] _
    (fun pkt hpkt => by
      rw [List.mem_singleton.mp hpkt]
      exact ⟨⟨1, rfl⟩, Nat.zero_le _⟩)
    (by simp) (by decide)

end DistributedChat
