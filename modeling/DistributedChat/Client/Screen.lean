import DistributedChat.Client.Lifecycle
import DistributedChat.Concurrency.SessionFrames

/-!
# What a client shows

`ReceiveLoop` reads packet after packet and prints what `HandlePacket` makes of each.
No frame is the beginning of another one (`frame_inj`), so it finds on its socket the
packets that were written there, in whatever segments they arrive, and of a frame that
was torn it prints nothing (`receiveLoop_stream`).

The bytes are those of a session, on which many threads send at once.  So the screen
shows the packets whose calls of `SendPacket` have returned `true`, in the order in which
these calls took the mutex (`receiveLoop_session`).
-/

namespace DistributedChat

/-! ## Frames are told apart -/

/-- The packet can be returned by `ReadPacket`. -/
structure RawPacket.Readable (pkt : RawPacket) : Prop where
  type : ∃ b, pkt.type = .ofByte b
  size : pkt.payload.length ≤ maxPayloadSize - 1

section

variable {p q pkt : RawPacket} {s s' : List Arrival} {x y : Bytes}

theorem RawPacket.Readable.reads (h : pkt.Readable) :
    received.Reads MessageSerializer.readPacket pkt.frame pkt := by
  obtain ⟨type, payload⟩ := pkt
  obtain ⟨⟨b, rfl⟩, hsize⟩ := h
  exact MessageSerializer.readPacket_reads b hsize

theorem readable_of_run (h : MessageSerializer.readPacket.run s = some (pkt, s')) :
    pkt.Readable := by
  obtain ⟨netLen, s₁, -, h⟩ := Source.run_bind_eq_some.mp h
  dsimp only at h
  split at h
  next => cases h
  next hlimits =>
    obtain ⟨rawType, s₂, -, h⟩ := Source.run_bind_eq_some.mp h
    split at h
    next hpos =>
      obtain ⟨payload, s₃, hpay, h⟩ := Source.run_bind_eq_some.mp h
      cases h
      refine ⟨⟨_, rfl⟩, ?_⟩
      rw [(recvAll_eq_some hpay).1]
      omega
    next =>
      cases h
      exact ⟨⟨_, rfl⟩, Nat.zero_le _⟩

theorem RawPacket.Readable.length_frame (h : pkt.Readable) : pkt.frame.length < 2 ^ 31 := by
  have hsize := h.size
  have hmax : maxPayloadSize = 2 ^ 20 := rfl
  rw [RawPacket.frame, serialize_eq _ hsize]
  simp only [htonl, List.length_append, List.length_cons, List.length_nil]
  omega

theorem frame_ne_nil (pkt : RawPacket) : pkt.frame ≠ [] := nofun

/-- No frame is the beginning of another one. -/
theorem frame_inj (hp : p.Readable) (hq : q.Readable) (h : p.frame ++ x = q.frame ++ y) :
    p = q := by
  have hne : p.frame ++ x ≠ [] := fun he => frame_ne_nil p (List.append_eq_nil_iff.mp he).1
  have hfluent : Arrival.failure ∉ [Arrival.segment (p.frame ++ x) hne] := by simp
  have hcontent : Arrival.content [.segment (p.frame ++ x) hne] = p.frame ++ x :=
    List.append_nil _
  obtain ⟨_, hrun, -⟩ := hp.reads _ x hfluent hcontent
  obtain ⟨_, hrun', -⟩ := hq.reads _ y hfluent (hcontent.trans h)
  rw [hrun] at hrun'
  cases hrun'
  rfl

end

/-- A part of a frame, or nothing. -/
def Torn (tail : Bytes) : Prop :=
  tail = [] ∨ ∃ q : RawPacket, q.Readable ∧ tail <+: q.frame ∧ tail ≠ q.frame

/-- No frame is found in a part of one. -/
theorem Torn.not_frame {tail : Bytes} (h : Torn tail) {pkt : RawPacket} (hpkt : pkt.Readable)
    (hpre : pkt.frame <+: tail) : False := by
  obtain ⟨x, hx⟩ := hpre
  rcases h with rfl | ⟨q, hq, ⟨y, hy⟩, hne⟩
  · exact frame_ne_nil pkt (List.append_eq_nil_iff.mp hx).1
  · have heq : pkt.frame ++ (x ++ y) = q.frame ++ [] := by
      rw [← List.append_assoc, hx, hy, List.append_nil]
    obtain rfl := frame_inj hpkt hq heq
    have hnil := List.append_cancel_left heq
    rw [(List.append_eq_nil_iff.mp hnil).2, List.append_nil] at hy
    exact hne hy

namespace ChatClient

/-! ## The loop -/

/-- What `HandlePacket` prints. -/
def shown (packet : RawPacket) : List Bytes := (handlePacket packet).getD []

/-- What `ReceiveLoop` prints as long as the client runs, up to so many packets. -/
def receiveLoop : Nat → List Arrival → Option (List Bytes)
  | 0, _ => some []
  | turns + 1, s =>
      match MessageSerializer.readPacket.run s with
      | some (packet, s') => do
          let pieces ← handlePacket packet
          let more ← receiveLoop turns s'
          return pieces ++ more
      | none => some [lostMessage]

section

variable {turns : Nat} {s s' : List Arrival} {pkt : RawPacket} {pieces : List Bytes}

theorem receiveLoop_some (h : MessageSerializer.readPacket.run s = some (pkt, s'))
    (hpkt : (handlePacket pkt).isSome) (hmore : receiveLoop turns s' = some pieces) :
    receiveLoop (turns + 1) s = some (shown pkt ++ pieces) := by
  obtain ⟨printed, hprinted⟩ := Option.isSome_iff_exists.mp hpkt
  rw [receiveLoop, h, shown]
  simp [hprinted, hmore]

theorem receiveLoop_none (h : MessageSerializer.readPacket.run s = none) :
    receiveLoop (turns + 1) s = some [lostMessage] := by
  rw [receiveLoop, h]

/-- Off the first part of a stream of frames the loop reads the first packets and then loses the
connection, and off the whole stream it reads all of them. -/
theorem receiveLoop_stream {pkts : List RawPacket} {tail : Bytes}
    (hpkts : ∀ pkt ∈ pkts, pkt.Readable ∧ (handlePacket pkt).isSome) (htail : Torn tail)
    (hturns : pkts.length < turns)
    (hs : Arrival.content s <+: pkts.flatMap RawPacket.frame ++ tail) :
    ∃ read, read <+: pkts ∧ receiveLoop turns s = some (read.flatMap shown ++ [lostMessage]) ∧
      (.failure ∉ s → Arrival.content s = pkts.flatMap RawPacket.frame ++ tail → read = pkts) := by
  induction pkts generalizing turns s with
  | nil =>
      obtain ⟨turns, rfl⟩ := Nat.exists_eq_add_one_of_ne_zero (Nat.ne_zero_of_lt hturns)
      cases hrun : MessageSerializer.readPacket.run s with
      | none => exact ⟨[], List.prefix_rfl, receiveLoop_none hrun, fun _ _ => rfl⟩
      | some r =>
          obtain ⟨pkt, s'⟩ := r
          have hc := readPacket_consumes s pkt s' hrun
          have hpre : pkt.frame <+: tail := List.IsPrefix.trans ⟨_, hc.symm⟩ hs
          exact (htail.not_frame (readable_of_run hrun) hpre).elim
  | cons q pkts ih =>
      obtain ⟨turns, rfl⟩ := Nat.exists_eq_add_one_of_ne_zero (Nat.ne_zero_of_lt hturns)
      obtain ⟨hq, hqsome⟩ := hpkts q (List.mem_cons_self ..)
      rw [List.flatMap_cons, List.append_assoc] at hs
      cases hrun : MessageSerializer.readPacket.run s with
      | none =>
          refine ⟨[], List.nil_prefix, receiveLoop_none hrun, fun hfluent hwhole => ?_⟩
          rw [List.flatMap_cons, List.append_assoc] at hwhole
          obtain ⟨s', hread, -⟩ := hq.reads s _ hfluent hwhole
          rw [hrun] at hread
          cases hread
      | some r =>
          obtain ⟨pkt, s'⟩ := r
          have hc : Arrival.content s = pkt.frame ++ Arrival.content s' :=
            readPacket_consumes s pkt s' hrun
          -- the packet is the one that was written, and the rest of the stream is left
          obtain ⟨z, hz⟩ := hs
          rw [hc, List.append_assoc] at hz
          obtain rfl := frame_inj (readable_of_run hrun) hq hz
          have hs' : Arrival.content s' <+: pkts.flatMap RawPacket.frame ++ tail :=
            ⟨z, List.append_cancel_left hz⟩
          obtain ⟨read, hread, hloop, hall⟩ := ih
            (fun p hp => hpkts p (List.mem_cons_of_mem _ hp)) (Nat.lt_of_succ_lt_succ hturns) hs'
          refine ⟨pkt :: read, (List.prefix_cons_inj pkt).mpr hread, ?_, fun hfluent hwhole => ?_⟩
          · rw [receiveLoop_some hrun hqsome hloop, List.flatMap_cons, List.append_assoc]
          · rw [List.flatMap_cons, List.append_assoc] at hwhole
            obtain ⟨s₂, hread₂, hc₂, hfluent₂⟩ := hq.reads s _ hfluent hwhole
            rw [hrun] at hread₂
            cases hread₂
            rw [hall hfluent₂ hc₂]

open SessionSends in
/-- What reaches a client of the stream of its session: the calls that returned `true` print, in
the order in which they took the mutex. -/
theorem receiveLoop_session {ι : Type} [DecidableEq ι] {call : ι → RawPacket} {hasSocket : Bool}
    {run : List (SendAction ι)} {c : SessionSends ι}
    (hcall : ∀ i, (call i).Readable ∧ (handlePacket (call i)).isSome)
    (hrun : exec (next fun i => (call i).frame) { hasSocket } run = some c)
    (hfree : c.holder = none) (hs : Arrival.content s <+: c.stream)
    (hturns : (acquired run).length < turns) :
    ∃ read, read <+: ((acquired run).filter fun i => c.returned i = some true) ∧
      receiveLoop turns s = some ((read.flatMap fun i => shown (call i)) ++ [lostMessage]) ∧
      (.failure ∉ s → Arrival.content s = c.stream →
        read = (acquired run).filter fun i => c.returned i = some true) := by
  obtain ⟨-, tail, hstream, htail⟩ := session_frames_whole (fun i => (hcall i).1.length_frame) hrun
    hfree
  generalize hsent : ((acquired run).filter fun i => c.returned i = some true) = sent at hstream ⊢
  have hframes : sent.flatMap (fun i => (call i).frame) =
      (sent.map call).flatMap RawPacket.frame := (List.flatMap_map ..).symm
  rw [hframes] at hstream
  have htorn : Torn tail :=
    htail.imp_right fun ⟨i, _, hpre, hne⟩ => ⟨call i, (hcall i).1, hpre, hne⟩
  have hlen : (sent.map call).length < turns := by
    rw [List.length_map, ← hsent]
    exact Nat.lt_of_le_of_lt (List.length_filter_le ..) hturns
  obtain ⟨read, hread, hloop, hall⟩ :=
    receiveLoop_stream (List.forall_mem_map.mpr fun i _ => hcall i) htorn hlen (hstream ▸ hs)
  obtain ⟨calls, hcalls, rfl⟩ := List.prefix_map_iff.mp hread
  refine ⟨calls, hcalls, ?_, fun hfluent hwhole => ?_⟩
  · rw [hloop, List.flatMap_map]
  · -- as many packets as calls
    have hmap := hall hfluent (hwhole.trans hstream)
    exact hcalls.eq_of_length (by simpa using congrArg List.length hmap)

/-! ## The loop among the threads of the client -/

/-- The turns of the loop, if the other thread does nothing. -/
def loopTurns : Nat → List Arrival → List Turn
  | 0, _ => []
  | turns + 1, s =>
      match MessageSerializer.readPacket.run s with
      | some (packet, s') => [.receiver, .read (some packet), .receiver] ++ loopTurns turns s'
      | none => [.receiver, .read none, .receiver, .receiver, .receiver, .receiver]

/-- These turns print what the loop prints. -/
theorem exec_loopTurns {c : Lifecycle} (hc : c.receiver = .whileRunning) (hrun : c.running = true)
    (h : receiveLoop turns s = some pieces) :
    ∃ c', exec Lifecycle.next c (loopTurns turns s) = some c' ∧ c'.screen = c.screen ++ pieces := by
  induction turns generalizing c s pieces with
  | zero =>
      cases h
      exact ⟨c, rfl, (List.append_nil _).symm⟩
  | succ turns ih =>
      rw [receiveLoop] at h
      rw [loopTurns]
      obtain ⟨socket, connected, running, receiver, caller, destroying, screen⟩ := c
      subst hc hrun
      cases hread : MessageSerializer.readPacket.run s with
      | none =>
          rw [hread] at h
          cases h
          exact ⟨_, rfl, rfl⟩
      | some r =>
          obtain ⟨packet, s'⟩ := r
          rw [hread] at h
          obtain ⟨printed, hprinted, h⟩ := Option.bind_eq_some_iff.mp h
          obtain ⟨more, hmore, h⟩ := Option.bind_eq_some_iff.mp h
          cases h
          obtain ⟨c', hc', hscreen⟩ := ih (c := ⟨socket, connected, true, .whileRunning, caller,
            destroying, screen ++ printed⟩) rfl rfl hmore
          refine ⟨c', ?_, hscreen.trans (List.append_assoc ..)⟩
          simp [exec_cons, Lifecycle.next, Lifecycle.receiverNext, hprinted, hc']

end

end ChatClient

end DistributedChat
