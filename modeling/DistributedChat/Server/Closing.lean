import DistributedChat.Core.SendLoop
import DistributedChat.Server.Listener

/-!
# Sockets that another thread closes

`Close` makes `Recv` and `Send` return `-1` without a call of the system, and so the
thread's last error stays what it was.  The loops around them go round again after `-1`
if the last error is `WSAEWOULDBLOCK`.  A thread that waits has met that error, and no
call that follows gives it another one.

So closing a socket frees no thread that waits on it: whether `ReadPacket` returns is
decided by what has arrived, and closing the socket changes that only for a thread that
has never met `WSAEWOULDBLOCK` (`readPacketShared_ends_iff`).  It is the same with the
send loops (`sendShared_ends_iff`).
-/

namespace DistributedChat

/-- What follows the last call on a socket that gave or took something. -/
inductive Ending where
  /-- Every call meets `WSAEWOULDBLOCK`. -/
  | silent
  /-- Another thread has closed the socket. -/
  | closed
  /-- The connection has ended. -/
  | broken
deriving DecidableEq, Repr

/-- A socket as the calls of one thread find it. -/
structure Shared (α : Type) where
  coming : List α
  ending : Ending
  /-- `WSAGetLastError()` of the thread is `WSAEWOULDBLOCK`. -/
  wouldBlock : Bool

namespace Shared

variable {α : Type} (b : α) (s : Shared α)

/-- The thread meets `WSAEWOULDBLOCK` on the way, or met it before. -/
def Blocked : Prop := s.wouldBlock = true ∨ b ∈ s.coming

/-- The end of the socket is seen. -/
def Released : Prop := s.ending = .broken ∨ s.ending = .closed ∧ ¬ s.Blocked b

end Shared

/-! ## Receiving -/

/-- `TcpSocket::Recv`, and whether the loop around it goes round again. -/
def recvShared (len : Nat) (s : Shared Arrival) : Received × Shared Arrival :=
  match s.coming, s.ending with
  | [], .silent => (.wouldBlock, { s with wouldBlock := true })
  -- `recv` is not called
  | [], .closed => (if s.wouldBlock = true then .wouldBlock else .failed, s)
  | [], .broken => (.failed, { s with wouldBlock := false })
  | a :: rest, _ =>
      match recv len (a :: rest) with
      | (.bytes bs, t) => (.bytes bs, { s with coming := t })
      | (.wouldBlock, t) => (.wouldBlock, { s with coming := t, wouldBlock := true })
      | (.failed, t) => (.failed, { s with coming := t, wouldBlock := false })

/-- A round of the loop of `RecvAll`, with the number of bytes left and the bytes read. -/
def recvSharedTurn (x : Nat × Bytes) (s : Shared Arrival) :
    Looping.Turn (Nat × Bytes) (Shared Arrival) Bytes :=
  if x.1 = 0 then .leave (some x.2) s
  else match recvShared x.1 s with
    | (.bytes bs, t) => .again (x.1 - bs.length, x.2 ++ bs) t
    | (.wouldBlock, t) => .again x t
    | (.failed, t) => .leave none t

/-- `TcpSocket::RecvAll`. -/
def recvAllShared (len : Nat) : Looping (Shared Arrival) Bytes := .loop recvSharedTurn (len, [])

/-- `MessageSerializer::ReadPacket`. -/
def readPacketShared : Looping (Shared Arrival) RawPacket := do
  let netLen ← recvAllShared 4
  let totalLen := ntohl netLen
  if totalLen < 1 ∨ totalLen > maxPayloadSize then
    .fail
  else do
    let rawType ← recvAllShared 1
    let type := PacketType.ofByte (rawType.headD 0)
    let payloadLen := totalLen - 1
    if payloadLen > 0 then do
      let payload ← recvAllShared payloadLen
      pure ⟨type, payload⟩
    else
      pure ⟨type, []⟩

section

variable {len : Nat} {s : Shared Arrival} {bs got : Bytes} {t : List Arrival}

/-- The state after a call that met `t` bytes or none. -/
theorem recvShared_of_recv (hne : s.coming ≠ []) {r : Received} (h : recv len s.coming = (r, t)) :
    recvShared len s = (r, { s with
      coming := t
      wouldBlock := match r with
        | .bytes _ => s.wouldBlock
        | .wouldBlock => true
        | .failed => false }) := by
  obtain ⟨coming, ending, wouldBlock⟩ := s
  obtain ⟨a, rest, rfl⟩ := List.exists_cons_of_ne_nil hne
  simp only [recvShared, h]
  cases r <;> rfl

/-- What is left of a socket after some calls of the thread. -/
structure Shared.Left (s t : Shared Arrival) : Prop where
  fluent : .failure ∉ s.coming → .failure ∉ t.coming
  ending : t.ending = s.ending
  blocked : t.Blocked .wouldBlock ↔ s.Blocked .wouldBlock

theorem Shared.Left.refl (s : Shared Arrival) : s.Left s := ⟨id, rfl, Iff.rfl⟩

theorem Shared.Left.trans {s t u : Shared Arrival} (h : s.Left t) (h' : t.Left u) : s.Left u :=
  ⟨h'.fluent ∘ h.fluent, h'.ending.trans h.ending, h'.blocked.trans h.blocked⟩

theorem Shared.Left.released {s t : Shared Arrival} (h : s.Left t) :
    t.Released .wouldBlock ↔ s.Released .wouldBlock := by
  rw [Released, Released, h.ending, h.blocked]

/-- A segment takes neither a `WSAEWOULDBLOCK` nor a failure off the list. -/
theorem left_of_bytes (hlen : len ≠ 0) (h : recv len s.coming = (.bytes bs, t)) :
    s.Left { s with coming := t } := by
  obtain ⟨coming, ending, wouldBlock⟩ := s
  refine ⟨(recv_bytes (Nat.pos_of_ne_zero hlen) h).2.2.2.2, rfl, or_congr_right ?_⟩
  rcases coming with - | ⟨⟨seg, ne⟩ | - | -, rest⟩
  · cases h
  · obtain ⟨rfl, rfl⟩ : seg.take len = bs ∧ _ = t := by simpa [recv] using h
    split <;> simp
  · cases h
  · cases h

theorem left_of_wouldBlock (h : recv len s.coming = (.wouldBlock, t)) :
    s.Left { s with coming := t, wouldBlock := true } := by
  have hs := recv_wouldBlock h
  refine ⟨fun hf hm => hf (hs ▸ List.mem_cons_of_mem _ hm), rfl,
    iff_of_true (Or.inl rfl) (Or.inr ?_)⟩
  rw [hs]
  exact List.mem_cons_self ..

theorem coming_ne_nil_of_recv {r : Received} (h : recv len s.coming = (r, t)) (hr : r ≠ .failed) :
    s.coming ≠ [] := by
  intro hnil
  rw [hnil] at h
  cases h
  exact hr rfl

theorem recvSharedTurn_bytes (hlen : len ≠ 0) (h : recv len s.coming = (.bytes bs, t)) :
    recvSharedTurn (len, got) s = .again (len - bs.length, got ++ bs) { s with coming := t } := by
  simp only [recvSharedTurn, hlen, recvShared_of_recv (coming_ne_nil_of_recv h nofun) h, if_false]

theorem recvSharedTurn_wouldBlock (hlen : len ≠ 0) (h : recv len s.coming = (.wouldBlock, t)) :
    recvSharedTurn (len, got) s = .again (len, got) { s with coming := t, wouldBlock := true } := by
  simp only [recvSharedTurn, hlen, recvShared_of_recv (coming_ne_nil_of_recv h nofun) h, if_false]

/-- What `RecvAll` reads before the end of the socket. -/
theorem recvAllShared_returns (h : recvLoop len s.coming = some (bs, t)) :
    ∃ u, (recvAllShared len).Returns s (some bs, u) ∧ u.coming = t ∧ s.Left u := by
  suffices hgot : ∀ got, ∃ u,
      (Looping.loop recvSharedTurn (len, got)).Returns s (some (got ++ bs), u) ∧
        u.coming = t ∧ s.Left u from hgot []
  intro got
  generalize hcoming : s.coming = coming at h
  induction len, coming using recvLoop.induct generalizing s bs got with
  | case1 coming =>
      rw [recvLoop_zero] at h
      cases h
      rw [List.append_nil]
      exact ⟨s, Looping.returns_loop_of_leave rfl, hcoming, .refl s⟩
  | case2 len coming hlen seg rest hrecv ih =>
      rw [recvLoop_bytes hlen hrecv] at h
      obtain ⟨⟨more, t'⟩, hmore, h⟩ := Option.map_eq_some_iff.mp h
      cases h
      rw [← hcoming] at hrecv
      obtain ⟨u, hu, hrest, hleft⟩ := ih (s := { s with coming := rest }) (got ++ seg) rfl hmore
      refine ⟨u, ?_, hrest, (left_of_bytes hlen hrecv).trans hleft⟩
      rw [Looping.returns_loop_iff_of_again (recvSharedTurn_bytes hlen hrecv), ← List.append_assoc]
      exact hu
  | case3 len coming hlen rest hrecv ih =>
      rw [recvLoop_wouldBlock hlen hrecv] at h
      rw [← hcoming] at hrecv
      obtain ⟨u, hu, hrest, hleft⟩ :=
        ih (s := { s with coming := rest, wouldBlock := true }) got rfl h
      refine ⟨u, ?_, hrest, (left_of_wouldBlock hrecv).trans hleft⟩
      rw [Looping.returns_loop_iff_of_again (recvSharedTurn_wouldBlock hlen hrecv)]
      exact hu
  | case4 len coming hlen rest hrecv =>
      rw [recvLoop_failed hlen hrecv] at h
      cases h

/-- Where enough bytes come, `RecvAll` takes them. -/
theorem recvAllShared_takes (hs : .failure ∉ s.coming)
    (hlen : len ≤ (Arrival.content s.coming).length) :
    ∃ u, (recvAllShared len).Returns s (some ((Arrival.content s.coming).take len), u) ∧
      Arrival.content u.coming = (Arrival.content s.coming).drop len ∧ s.Left u := by
  obtain ⟨t, hrun, hc, -⟩ := recvAll_reads ((Arrival.content s.coming).take len) s.coming _ hs
    (List.take_append_drop len (Arrival.content s.coming)).symm
  rw [List.length_take_of_le hlen] at hrun
  obtain ⟨u, hu, hcoming, hleft⟩ := recvAllShared_returns hrun
  exact ⟨u, hu, hcoming ▸ hc, hleft⟩

/-- Behind the last arrival `RecvAll` sees the end of the socket or goes round for ever. -/
theorem recvAllShared_at_end (hlen : len ≠ 0) (hs : s.coming = []) :
    (s.Released .wouldBlock → ∃ u, (Looping.loop recvSharedTurn (len, got)).Returns s (none, u)) ∧
      (¬ s.Released .wouldBlock → ¬ (Looping.loop recvSharedTurn (len, got)).Ends s) := by
  obtain ⟨coming, ending, wouldBlock⟩ := s
  subst hs
  have hblocked : (Shared.mk ([] : List Arrival) ending wouldBlock).Blocked .wouldBlock ↔
      wouldBlock = true := by simp [Shared.Blocked]
  constructor
  · rintro (he | ⟨he, hnot⟩)
    · subst he
      refine ⟨_, Looping.returns_loop_of_leave (t := ⟨[], .broken, false⟩) ?_⟩
      simp [recvSharedTurn, hlen, recvShared]
    · subst he
      rw [hblocked, Bool.not_eq_true] at hnot
      subst hnot
      refine ⟨_, Looping.returns_loop_of_leave (t := ⟨[], .closed, false⟩) ?_⟩
      simp [recvSharedTurn, hlen, recvShared]
  · intro hnot
    rw [Shared.Released, hblocked] at hnot
    refine Looping.not_ends_loop (I := fun x s => x.1 = len ∧ s.coming = [] ∧
      (s.ending = .silent ∨ s.ending = .closed ∧ s.wouldBlock = true)) ?_ ⟨rfl, rfl, ?_⟩
    · rintro ⟨left, got⟩ ⟨coming, ending, wouldBlock⟩ ⟨hleft, hcoming, hend⟩
      dsimp only at hleft hcoming hend
      subst hleft hcoming
      rcases hend with rfl | ⟨rfl, rfl⟩
      · exact ⟨(left, got), ⟨[], .silent, true⟩, by simp [recvSharedTurn, hlen, recvShared],
          rfl, rfl, Or.inl rfl⟩
      · exact ⟨(left, got), ⟨[], .closed, true⟩, by simp [recvSharedTurn, hlen, recvShared],
          rfl, rfl, Or.inr ⟨rfl, rfl⟩⟩
    · cases ending <;> simp_all

/-- Where too few bytes come, `RecvAll` fails at the end of the socket or goes round for ever. -/
theorem recvAllShared_short (hs : .failure ∉ s.coming)
    (hlen : (Arrival.content s.coming).length < len) :
    (s.Released .wouldBlock → ∃ u, (recvAllShared len).Returns s (none, u)) ∧
      (¬ s.Released .wouldBlock → ¬ (recvAllShared len).Ends s) := by
  rw [recvAllShared]
  generalize ([] : Bytes) = got
  generalize hcoming : s.coming = coming at hs hlen
  induction len, coming using recvLoop.induct generalizing s got with
  | case1 coming => exact absurd hlen (Nat.not_lt_zero _)
  | case2 len coming hne seg rest hrecv ih =>
      obtain ⟨-, -, -, hc, hfluent⟩ := recv_bytes (Nat.pos_of_ne_zero hne) hrecv
      rw [hc, List.length_append] at hlen
      rw [← hcoming] at hrecv
      have hshort : (Arrival.content rest).length < len - seg.length := by omega
      have hrest := ih (s := { s with coming := rest }) (got ++ seg) rfl (hfluent hs) hshort
      rw [(left_of_bytes hne hrecv).released] at hrest
      have hagain : recvSharedTurn (len, got) s =
          .again (len - seg.length, got ++ seg) { s with coming := rest } :=
        recvSharedTurn_bytes hne hrecv
      refine ⟨fun h => ?_, fun h hends => hrest.2 h ?_⟩
      · obtain ⟨u, hu⟩ := hrest.1 h
        exact ⟨u, (Looping.returns_loop_iff_of_again hagain).mpr hu⟩
      · obtain ⟨r, hr⟩ := hends
        exact ⟨r, (Looping.returns_loop_iff_of_again hagain).mp hr⟩
  | case3 len coming hne rest hrecv ih =>
      have hcons := recv_wouldBlock hrecv
      rw [hcons] at hs hlen
      rw [← hcoming] at hrecv
      have hrest := ih (s := { s with coming := rest, wouldBlock := true }) got rfl
        (fun hm => hs (List.mem_cons_of_mem _ hm)) hlen
      rw [(left_of_wouldBlock hrecv).released] at hrest
      have hagain : recvSharedTurn (len, got) s =
          .again (len, got) { s with coming := rest, wouldBlock := true } :=
        recvSharedTurn_wouldBlock hne hrecv
      refine ⟨fun h => ?_, fun h hends => hrest.2 h ?_⟩
      · obtain ⟨u, hu⟩ := hrest.1 h
        exact ⟨u, (Looping.returns_loop_iff_of_again hagain).mpr hu⟩
      · obtain ⟨r, hr⟩ := hends
        exact ⟨r, (Looping.returns_loop_iff_of_again hagain).mp hr⟩
  | case4 len coming hne rest hrecv =>
      have hnil : s.coming = [] := by
        rcases recv_failed hrecv with h | h
        · exact hcoming.trans h
        · exact absurd h hs
      exact recvAllShared_at_end hne hnil

/-- A sequence that begins with a `RecvAll` for which too few bytes come. -/
theorem ends_recvAllShared_bind {α : Type} {k : Bytes → Looping (Shared Arrival) α}
    (hs : .failure ∉ s.coming) (hlen : (Arrival.content s.coming).length < len) :
    (recvAllShared len >>= k).Ends s ↔ s.Released .wouldBlock := by
  obtain ⟨hfails, hhangs⟩ := recvAllShared_short hs hlen
  constructor
  · intro hends
    by_contra hnot
    exact Looping.not_ends_bind (hhangs hnot) hends
  · intro hreleased
    obtain ⟨u, hu⟩ := hfails hreleased
    exact ⟨(none, u), Looping.returns_bind_iff.mpr (Or.inr ⟨u, hu, rfl⟩)⟩

/-- **Closing frees no reader.**  `ReadPacket` on a socket whose other end stays connected for a
while returns if and only if what has arrived is no part of a frame, or the connection breaks, or
another thread closes the socket and the reader never meets `WSAEWOULDBLOCK` and has not met it
before. -/
theorem readPacketShared_ends_iff (s : Shared Arrival) (hs : .failure ∉ s.coming) :
    readPacketShared.Ends s ↔ ¬ Truncated (Arrival.content s.coming) ∨ s.ending = .broken ∨
      s.ending = .closed ∧ s.wouldBlock = false ∧ .wouldBlock ∉ s.coming := by
  have hreleased : s.Released .wouldBlock ↔ s.ending = .broken ∨
      s.ending = .closed ∧ s.wouldBlock = false ∧ .wouldBlock ∉ s.coming := by
    simp [Shared.Released, Shared.Blocked]
  rw [← hreleased]
  by_cases hheader : (Arrival.content s.coming).length < 4
  · rw [readPacketShared, ends_recvAllShared_bind hs hheader]
    exact (or_iff_right fun h => h (Or.inl hheader)).symm
  obtain ⟨s₁, hnet, hc₁, hleft₁⟩ := recvAllShared_takes hs (Nat.le_of_not_lt hheader)
  have hlen₁ : (Arrival.content s₁.coming).length = (Arrival.content s.coming).length - 4 := by
    rw [hc₁, List.length_drop]
  rw [readPacketShared, hnet.ends_bind_iff, Truncated]
  generalize ntohl ((Arrival.content s.coming).take 4) = totalLen
  by_cases hlimits : totalLen < 1 ∨ totalLen > maxPayloadSize
  · rw [if_pos hlimits]
    exact iff_of_true (Looping.ends_fail s₁) (Or.inl (by omega))
  rw [if_neg hlimits]
  by_cases htype : (Arrival.content s₁.coming).length < 1
  · rw [ends_recvAllShared_bind (hleft₁.fluent hs) htype, hleft₁.released]
    exact (or_iff_right fun h => h (by omega)).symm
  obtain ⟨s₂, hraw, hc₂, hleft₂⟩ :=
    recvAllShared_takes (hleft₁.fluent hs) (Nat.le_of_not_lt htype)
  have hlen₂ : (Arrival.content s₂.coming).length = (Arrival.content s₁.coming).length - 1 := by
    rw [hc₂, List.length_drop]
  have hleft : s.Left s₂ := hleft₁.trans hleft₂
  rw [hraw.ends_bind_iff]
  by_cases hpos : totalLen - 1 > 0
  · rw [if_pos hpos]
    by_cases hpay : (Arrival.content s₂.coming).length < totalLen - 1
    · rw [ends_recvAllShared_bind (hleft.fluent hs) hpay, hleft.released]
      exact (or_iff_right fun h => h (by omega)).symm
    · obtain ⟨s₃, hpayload, -⟩ := recvAllShared_takes (hleft.fluent hs) (Nat.le_of_not_lt hpay)
      rw [hpayload.ends_bind_iff]
      exact iff_of_true (Looping.ends_pure _ s₃) (Or.inl (by omega))
  · rw [if_neg hpos]
    exact iff_of_true (Looping.ends_pure _ s₂) (Or.inl (by omega))

/-- One byte has come, and then the socket is closed by another thread. -/
theorem readPacketShared_ends_oneByte :
    ¬ readPacketShared.Ends ⟨[.segment [0] (by decide), .wouldBlock], .closed, false⟩ := by
  have h := readPacketShared_ends_iff
    ⟨[.segment [0] (by decide), .wouldBlock], .closed, false⟩ (by simp)
  rw [h]
  simp [Truncated, Arrival.content]

end

/-! ## Sending -/

/-- A round of the loop around `Send`, with its variables. -/
def sendSharedTurn (x : SendVars) (s : Shared Departure) :
    Looping.Turn SendVars (Shared Departure) Bool :=
  if x.bytesLeft ≤ 0 then .leave (some true) s
  else match s.coming, s.ending with
    | [], .silent => .again x { s with wouldBlock := true }
    -- `send` is not called
    | [], .closed => if s.wouldBlock = true then .again x s else .leave (some false) s
    | [], .broken => .leave (some false) { s with wouldBlock := false }
    | .taken n :: rest, _ => .again (x.advance n) { s with coming := rest }
    | .wouldBlock :: rest, _ => .again x { s with coming := rest, wouldBlock := true }

/-- The loop around `Send`, as it stands in `TcpSocket::SendAll` and `ClientSession::SendPacket`.
It is the loop of `ReplicationManager` and of the heartbeats too while the peer keeps its socket. -/
def sendAllShared (buffer : Bytes) : Looping (Shared Departure) Bool :=
  .loop sendSharedTurn (.start buffer)

/-- How many bytes a socket takes. -/
def capacity : List Departure → Nat
  | [] => 0
  | .taken n :: s => n + capacity s
  | .wouldBlock :: s => capacity s

section

variable {x : SendVars} {s : Shared Departure}

/-- The loop has something to send when the socket takes nothing more. -/
theorem sendShared_at_end (hx : 0 < x.bytesLeft) (hs : s.coming = []) :
    (Looping.loop sendSharedTurn x).Ends s ↔ s.Released .wouldBlock := by
  obtain ⟨coming, ending, wouldBlock⟩ := s
  subst hs
  have hblocked : (Shared.mk ([] : List Departure) ending wouldBlock).Blocked .wouldBlock ↔
      wouldBlock = true := by simp [Shared.Blocked]
  have hpos : ¬ x.bytesLeft ≤ 0 := not_le.mpr hx
  have hhangs (he : ending = .silent ∨ ending = .closed ∧ wouldBlock = true) :
      ¬ (Looping.loop sendSharedTurn x).Ends ⟨[], ending, wouldBlock⟩ := by
    refine Looping.not_ends_loop (I := fun y s => y = x ∧ s.coming = [] ∧
      (s.ending = .silent ∨ s.ending = .closed ∧ s.wouldBlock = true)) ?_ ⟨rfl, rfl, he⟩
    rintro y ⟨coming, ending, wouldBlock⟩ ⟨rfl, hcoming, hend⟩
    dsimp only at hcoming hend
    subst hcoming
    rcases hend with rfl | ⟨rfl, rfl⟩
    · exact ⟨y, ⟨[], .silent, true⟩, by simp [sendSharedTurn, hpos], rfl, rfl, Or.inl rfl⟩
    · exact ⟨y, ⟨[], .closed, true⟩, by simp [sendSharedTurn, hpos], rfl, rfl, Or.inr ⟨rfl, rfl⟩⟩
  rw [Shared.Released, hblocked]
  cases ending with
  | silent => exact iff_of_false (hhangs (Or.inl rfl)) (by simp)
  | closed =>
      cases wouldBlock with
      | true => exact iff_of_false (hhangs (Or.inr ⟨rfl, rfl⟩)) (by simp)
      | false =>
          refine iff_of_true ⟨_, Looping.returns_loop_of_leave (t := ⟨[], .closed, false⟩)
            (a := some false) ?_⟩ (by simp)
          simp [sendSharedTurn, hpos]
  | broken =>
      refine iff_of_true ⟨_, Looping.returns_loop_of_leave (t := ⟨[], .broken, false⟩)
        (a := some false) ?_⟩ (by simp)
      simp [sendSharedTurn, hpos]

/-- **Closing frees no sender.**  The loop around `Send` ends if and only if the socket takes all
the bytes, or the connection breaks, or another thread closes the socket and the sender never meets
`WSAEWOULDBLOCK` and has not met it before. -/
theorem sendShared_ends_iff (buffer : Bytes) (s : Shared Departure) :
    (sendAllShared buffer).Ends s ↔ narrow buffer.length ≤ capacity s.coming ∨ s.ending = .broken ∨
      s.ending = .closed ∧ s.wouldBlock = false ∧ .wouldBlock ∉ s.coming := by
  have hreleased : s.Released .wouldBlock ↔ s.ending = .broken ∨
      s.ending = .closed ∧ s.wouldBlock = false ∧ .wouldBlock ∉ s.coming := by
    simp [Shared.Released, Shared.Blocked]
  rw [← hreleased, sendAllShared]
  clear hreleased
  have hstart : narrow buffer.length = (SendVars.start buffer).bytesLeft := rfl
  rw [hstart]
  generalize SendVars.start buffer = x
  generalize hcoming : s.coming = coming
  induction coming generalizing s x with
  | nil =>
      by_cases hx : 0 < x.bytesLeft
      · rw [sendShared_at_end hx hcoming, capacity]
        exact (or_iff_right (by omega)).symm
      · refine iff_of_true ⟨_, Looping.returns_loop_of_leave (a := some true) (t := s) ?_⟩
          (Or.inl (by rw [capacity]; omega))
        rw [sendSharedTurn, if_pos (not_lt.mp hx)]
  | cons d rest ih =>
      obtain ⟨coming, ending, wouldBlock⟩ := s
      dsimp only at hcoming
      subst hcoming
      by_cases hx : 0 < x.bytesLeft
      · have hpos : ¬ x.bytesLeft ≤ 0 := not_le.mpr hx
        cases d with
        | taken n =>
            have hturn : sendSharedTurn x ⟨.taken n :: rest, ending, wouldBlock⟩ =
                .again (x.advance n) ⟨rest, ending, wouldBlock⟩ := by simp [sendSharedTurn, hpos]
            have hends := exists_congr fun r =>
              Looping.returns_loop_iff_of_again (r := r) hturn
            refine Iff.trans hends ((ih ⟨rest, ending, wouldBlock⟩ (x.advance n) rfl).trans ?_)
            have hleft : (x.advance n).bytesLeft = x.bytesLeft - min (n : Nat) x.bytesLeft.toNat :=
              rfl
            refine or_congr ?_ (by simp [Shared.Released, Shared.Blocked])
            rw [hleft, capacity]
            omega
        | wouldBlock =>
            have hturn : sendSharedTurn x ⟨.wouldBlock :: rest, ending, wouldBlock⟩ =
                .again x ⟨rest, ending, true⟩ := by simp [sendSharedTurn, hpos]
            have hends := exists_congr fun r =>
              Looping.returns_loop_iff_of_again (r := r) hturn
            refine Iff.trans hends ((ih ⟨rest, ending, true⟩ x rfl).trans ?_)
            exact or_congr (by rw [capacity]) (by simp [Shared.Released, Shared.Blocked])
      · refine iff_of_true ⟨_, Looping.returns_loop_of_leave (a := some true)
          (t := ⟨d :: rest, ending, wouldBlock⟩) ?_⟩ (Or.inl (by omega))
        rw [sendSharedTurn, if_pos (not_lt.mp hx)]

end

end DistributedChat
