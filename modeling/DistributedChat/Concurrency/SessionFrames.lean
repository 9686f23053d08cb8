import DistributedChat.Core.SendLoop
import DistributedChat.Logic.Runs
import DistributedChat.Protocol.Lengths

/-!
# Frames to a client session

`ClientSession::SendPacket` takes the mutex of the session, serializes, and holds the
mutex until its send loop has ended.  Any number of threads may call it.  A `Send` takes
a part of the bytes left or reports `WSAEWOULDBLOCK`; once one fails, all fail.

So the stream of a session consists of whole frames, in the order in which their calls
took the mutex, and of a part of one more at most (`session_frames_whole`).
-/

namespace DistributedChat

/-- The calls of `SendPacket` on one session. -/
structure SessionSends (ι : Type) where
  /-- `m_socket` is not null. -/
  hasSocket : Bool := true
  /-- The bytes on the stream. -/
  stream : Bytes := []
  /-- A `Send` has failed. -/
  broken : Bool := false
  /-- The call that holds `m_sessionMutex`, and the variables of its loop. -/
  holder : Option (ι × SendVars) := none
  /-- The calls that have taken the mutex, oldest first. -/
  order : List ι := []
  /-- What the calls have returned. -/
  returned : ι → Option Bool := fun _ => none

/-- What happens. -/
inductive SendAction (ι : Type) where
  /-- A call takes the mutex. -/
  | acquire (i : ι)
  /-- The `Send` of the holder takes up to so many bytes. -/
  | taken (n : ℕ+)
  /-- It reports `WSAEWOULDBLOCK`. -/
  | wouldBlock
  /-- It fails, and the call returns `false`. -/
  | fail
  /-- The loop of the holder has ended, and the call returns `true`. -/
  | finish
deriving DecidableEq

namespace SessionSends

variable {ι : Type} [DecidableEq ι]

/-- A call returns and gives back the mutex. -/
def returns (c : SessionSends ι) (i : ι) (result : Bool) : SessionSends ι :=
  { c with holder := none, returned := Function.update c.returned i (some result) }

/-- A call has the mutex and begins its loop. -/
def enters (c : SessionSends ι) (i : ι) (buffer : Bytes) : SessionSends ι :=
  { c with order := c.order ++ [i], holder := some (i, .start buffer) }

/-- One action.  Each call is made once. -/
def next (frame : ι → Bytes) (c : SessionSends ι) : SendAction ι → Option (SessionSends ι)
  | .acquire i =>
      if c.holder.isNone = true ∧ i ∉ c.order then
        some (if c.hasSocket = true then c.enters i (frame i)
          else (c.enters i (frame i)).returns i false)
      else none
  | .taken n =>
      match c.holder with
      | some (i, x) =>
          if c.broken = false ∧ 0 < x.bytesLeft then
            some { c with stream := c.stream ++ x.taken n, holder := some (i, x.advance n) }
          else none
      | none => none
  | .wouldBlock =>
      match c.holder with
      | some (_, x) => if c.broken = false ∧ 0 < x.bytesLeft then some c else none
      | none => none
  | .fail =>
      match c.holder with
      | some (i, x) =>
          if 0 < x.bytesLeft then some { c.returns i false with broken := true } else none
      | none => none
  | .finish =>
      match c.holder with
      | some (i, x) => if x.bytesLeft ≤ 0 then some (c.returns i true) else none
      | none => none

/-- The calls that have returned `true`, in the order in which they took the mutex. -/
def delivered (c : SessionSends ι) : List ι := c.order.filter fun i => c.returned i = some true

/-! ## What one action does -/

section

variable {frame : ι → Bytes} {c c' : SessionSends ι} {i : ι} {n : ℕ+}

theorem next_acquire (h : c.next frame (.acquire i) = some c') :
    c.holder = none ∧ i ∉ c.order ∧
      ((c.hasSocket = true ∧ c' = { c with
          order := c.order ++ [i], holder := some (i, .start (frame i)) }) ∨
        (c.hasSocket = false ∧ c' = { c with
          order := c.order ++ [i], returned := Function.update c.returned i (some false) })) := by
  obtain ⟨⟨hfree, hi⟩, heq⟩ := Option.ite_none_right_eq_some.mp h
  have hnone : c.holder = none := Option.isNone_iff_eq_none.mp hfree
  refine ⟨hnone, hi, ?_⟩
  cases heq
  by_cases hs : c.hasSocket = true
  · exact Or.inl ⟨hs, if_pos hs⟩
  · refine Or.inr ⟨Bool.eq_false_iff.mpr hs, (if_neg hs).trans ?_⟩
    rw [returns, enters, ← hnone]

theorem next_taken (h : c.next frame (.taken n) = some c') :
    ∃ i x, c.holder = some (i, x) ∧ c.broken = false ∧ 0 < x.bytesLeft ∧
      c' = { c with stream := c.stream ++ x.taken n, holder := some (i, x.advance n) } := by
  rw [next] at h
  split at h
  next i x hh =>
    obtain ⟨⟨hb, hpos⟩, heq⟩ := Option.ite_none_right_eq_some.mp h
    cases heq
    exact ⟨i, x, hh, hb, hpos, rfl⟩
  next => cases h

theorem next_wouldBlock (h : c.next frame .wouldBlock = some c') : c' = c := by
  rw [next] at h
  split at h
  next =>
    obtain ⟨-, heq⟩ := Option.ite_none_right_eq_some.mp h
    cases heq
    rfl
  next => cases h

theorem next_fail (h : c.next frame .fail = some c') :
    ∃ i x, c.holder = some (i, x) ∧ 0 < x.bytesLeft ∧
      c' = { c.returns i false with broken := true } := by
  rw [next] at h
  split at h
  next i x hh =>
    obtain ⟨hpos, heq⟩ := Option.ite_none_right_eq_some.mp h
    cases heq
    exact ⟨i, x, hh, hpos, rfl⟩
  next => cases h

theorem next_finish (h : c.next frame .finish = some c') :
    ∃ i x, c.holder = some (i, x) ∧ x.bytesLeft ≤ 0 ∧ c' = c.returns i true := by
  rw [next] at h
  split at h
  next i x hh =>
    obtain ⟨hdone, heq⟩ := Option.ite_none_right_eq_some.mp h
    cases heq
    exact ⟨i, x, hh, hdone, rfl⟩
  next => cases h

end

/-! ## The stream -/

/-- The stream ends in a part of the frame of a call that has returned `false`. -/
def EndsTorn (frame : ι → Bytes) (c : SessionSends ι) (tail : Bytes) : Prop :=
  ∃ i, c.returned i = some false ∧ tail <+: frame i ∧ tail ≠ frame i

/-- What stands behind the whole frames. -/
inductive Tail (frame : ι → Bytes) (c : SessionSends ι) : Bytes → Prop where
  /-- Nothing, while nobody sends. -/
  | idle (hb : c.broken = false) (hh : c.holder = none) : Tail frame c []
  /-- What the holder has sent. -/
  | sending {i : ι} {x : SendVars} {tail : Bytes} (hb : c.broken = false)
      (hh : c.holder = some (i, x)) (ht : tail ++ x.ptr = frame i) : Tail frame c tail
  /-- What was sent before a `Send` failed; whoever holds the mutex then has sent nothing. -/
  | torn {tail : Bytes} (hb : c.broken = true) (ht : EndsTorn frame c tail)
      (hh : ∀ i x, c.holder = some (i, x) → x.ptr = frame i) : Tail frame c tail

/-- What holds of the calls at any time. -/
structure Sound (frame : ι → Bytes) (c : SessionSends ι) : Prop where
  nodup : c.order.Nodup
  /-- A call that has returned has had the mutex. -/
  mem_order : ∀ {i b}, c.returned i = some b → i ∈ c.order
  /-- The holder is the last that took the mutex, has not returned, and counts right. -/
  held : ∀ {i x}, c.holder = some (i, x) →
    (∃ pre, c.order = pre ++ [i]) ∧ c.returned i = none ∧ x.Exact
  stream : ∃ tail, c.stream = c.delivered.flatMap frame ++ tail ∧ Tail frame c tail

omit [DecidableEq ι] in
theorem sound_start (frame : ι → Bytes) (hasSocket : Bool) :
    Sound frame ({ hasSocket } : SessionSends ι) where
  nodup := .nil
  mem_order h := nomatch h
  held h := nomatch h
  stream := ⟨[], rfl, .idle rfl rfl⟩

section

variable {frame : ι → Bytes} {c : SessionSends ι} {i : ι} {x : SendVars}

/-- A call that has not returned is not among the delivered ones, and returning `false` does not
change that. -/
theorem delivered_of_false (hi : c.returned i ≠ some true) (order : List ι) :
    (order.filter fun j => Function.update c.returned i (some false) j = some true) =
      order.filter fun j => c.returned j = some true := by
  refine List.filter_congr fun j _ => ?_
  by_cases hj : j = i
  · subst hj
    simp [hi]
  · rw [Function.update_of_ne hj]

omit [DecidableEq ι] in
/-- A call that has not taken the mutex has not returned. -/
theorem Sound.returned_eq_none (h : Sound frame c) (hi : i ∉ c.order) : c.returned i = none := by
  cases hr : c.returned i with
  | none => rfl
  | some b => exact absurd (h.mem_order hr) hi

/-- A tear stays where it is when another call returns. -/
theorem EndsTorn.update {tail : Bytes} (h : EndsTorn frame c tail) (hi : c.returned i = none)
    {c' : SessionSends ι} {b : Bool} (hr : c'.returned = Function.update c.returned i (some b)) :
    EndsTorn frame c' tail := by
  obtain ⟨j, hj, hpre, hne⟩ := h
  refine ⟨j, ?_, hpre, hne⟩
  rw [hr, Function.update_of_ne, hj]
  rintro rfl
  rw [hi] at hj
  cases hj

omit [DecidableEq ι] in
theorem Sound.acquire (h : Sound frame c) (hfree : c.holder = none) (hi : i ∉ c.order)
    (hsize : (frame i).length < 2 ^ 31) :
    Sound frame { c with order := c.order ++ [i], holder := some (i, .start (frame i)) } where
  nodup := List.nodup_append.mpr ⟨h.nodup, List.nodup_singleton i, fun j hj k hk he =>
    hi (List.mem_singleton.mp hk ▸ he ▸ hj)⟩
  mem_order hr := List.mem_append_left _ (h.mem_order hr)
  held := by
    intro j x hx
    cases hx
    exact ⟨⟨_, rfl⟩, h.returned_eq_none hi, SendVars.exact_start hsize⟩
  stream := by
    obtain ⟨tail, hs, ht⟩ := h.stream
    have hdelivered : (c.order ++ [i]).filter (fun j => c.returned j = some true) = c.delivered := by
      rw [List.filter_append, List.filter_singleton, h.returned_eq_none hi]
      simp [delivered]
    refine ⟨tail, ?_, ?_⟩
    · rw [hs]
      exact congrArg (fun l : List ι => l.flatMap frame ++ tail) hdelivered.symm
    · cases ht with
      | idle hb _ => exact .sending hb rfl rfl
      | sending hb hh _ =>
          rw [hfree] at hh
          cases hh
      | torn hb ht _ =>
          refine .torn hb ht fun j x hx => ?_
          cases hx
          rfl

theorem Sound.refused (h : Sound frame c) (hfree : c.holder = none) (hi : i ∉ c.order) :
    Sound frame { c with
      order := c.order ++ [i], returned := Function.update c.returned i (some false) } where
  nodup := List.nodup_append.mpr ⟨h.nodup, List.nodup_singleton i, fun j hj k hk he =>
    hi (List.mem_singleton.mp hk ▸ he ▸ hj)⟩
  mem_order := by
    intro j b hj
    by_cases hji : j = i
    · exact List.mem_append_right _ (by simp [hji])
    · change Function.update c.returned i (some false) j = some b at hj
      rw [Function.update_of_ne hji] at hj
      exact List.mem_append_left _ (h.mem_order hj)
  held hx := by
    change c.holder = some _ at hx
    rw [hfree] at hx
    cases hx
  stream := by
    obtain ⟨tail, hs, ht⟩ := h.stream
    have hnone := h.returned_eq_none hi
    have hdelivered : (c.order ++ [i]).filter
        (fun j => Function.update c.returned i (some false) j = some true) = c.delivered := by
      rw [delivered_of_false (by rw [hnone]; simp), List.filter_append, List.filter_singleton, hnone]
      simp [delivered]
    refine ⟨tail, ?_, ?_⟩
    · rw [hs]
      exact congrArg (fun l : List ι => l.flatMap frame ++ tail) hdelivered.symm
    · cases ht with
      | idle hb hh => exact .idle hb hh
      | sending hb hh ht => exact .sending hb hh ht
      | torn hb ht hh => exact .torn hb (ht.update hnone rfl) hh

omit [DecidableEq ι] in
theorem Sound.taken (h : Sound frame c) {n : ℕ+} (hh : c.holder = some (i, x))
    (hb : c.broken = false) (hpos : 0 < x.bytesLeft) :
    Sound frame { c with stream := c.stream ++ x.taken n, holder := some (i, x.advance n) } where
  nodup := h.nodup
  mem_order := h.mem_order
  held := by
    intro j y hy
    cases hy
    obtain ⟨horder, hr, hx⟩ := h.held hh
    exact ⟨horder, hr, hx.advance hpos⟩
  stream := by
    obtain ⟨tail, hs, ht⟩ := h.stream
    refine ⟨tail ++ x.taken n, ?_, ?_⟩
    · rw [hs, List.append_assoc]
      rfl
    · cases ht with
      | idle _ hnone =>
          rw [hnone] at hh
          cases hh
      | sending _ hh' ht =>
          cases hh.symm.trans hh'
          refine .sending hb rfl ?_
          rw [List.append_assoc, x.taken_append_advance, ht]
      | torn hb' _ _ =>
          rw [hb] at hb'
          cases hb'

/-- The holder has had the mutex when it returns. -/
theorem Sound.mem_order_returns (h : Sound frame c) (hh : c.holder = some (i, x)) {j : ι}
    {r b : Bool} (hj : Function.update c.returned i (some r) j = some b) : j ∈ c.order := by
  by_cases hji : j = i
  · obtain ⟨⟨pre, hpre⟩, -⟩ := h.held hh
    rw [hpre, hji]
    simp
  · rw [Function.update_of_ne hji] at hj
    exact h.mem_order hj

omit [DecidableEq ι] in
/-- The loop has something left to send. -/
theorem Sound.ptr_ne_nil (h : Sound frame c) (hh : c.holder = some (i, x)) (hpos : 0 < x.bytesLeft) :
    x.ptr ≠ [] := by
  intro hnil
  have hx := (h.held hh).2.2
  rw [SendVars.Exact, hnil, List.length_nil] at hx
  omega

theorem Sound.fail (h : Sound frame c) (hh : c.holder = some (i, x)) (hpos : 0 < x.bytesLeft) :
    Sound frame { c.returns i false with broken := true } where
  nodup := h.nodup
  mem_order hj := h.mem_order_returns hh hj
  held hx := nomatch hx
  stream := by
    obtain ⟨tail, hs, ht⟩ := h.stream
    have hnone := (h.held hh).2.1
    refine ⟨tail, ?_, .torn rfl ?_ nofun⟩
    · refine hs.trans (congrArg (fun l : List ι => l.flatMap frame ++ tail) ?_)
      exact (delivered_of_false (by rw [hnone]; simp) c.order).symm
    · cases ht with
      | idle _ hfree =>
          rw [hfree] at hh
          cases hh
      | sending _ hh' ht =>
          cases hh.symm.trans hh'
          refine ⟨i, Function.update_self .., ⟨_, ht⟩, fun he => h.ptr_ne_nil hh hpos ?_⟩
          rw [← ht] at he
          exact List.append_right_eq_self.mp he.symm
      | torn _ ht _ => exact ht.update hnone rfl

theorem Sound.finish (h : Sound frame c) (hne : frame i ≠ []) (hh : c.holder = some (i, x))
    (hdone : x.bytesLeft ≤ 0) : Sound frame (c.returns i true) where
  nodup := h.nodup
  mem_order hj := h.mem_order_returns hh hj
  held hx := nomatch hx
  stream := by
    obtain ⟨tail, hs, ht⟩ := h.stream
    obtain ⟨⟨pre, hpre⟩, hnone, hx⟩ := h.held hh
    have hnil : x.ptr = [] := by
      rw [SendVars.Exact] at hx
      exact List.length_eq_zero_iff.mp (by omega)
    cases ht with
    | idle _ hfree =>
        rw [hfree] at hh
        cases hh
    | sending hb hh' ht =>
        cases hh.symm.trans hh'
        rw [hnil, List.append_nil] at ht
        have hnot : i ∉ pre := fun hi => by
          have hnodup := h.nodup
          rw [hpre] at hnodup
          exact (List.nodup_append.mp hnodup).2.2 i hi i (List.mem_singleton_self i) rfl
        -- the holder comes last, so its frame stands behind those delivered before
        have hdelivered : (c.returns i true).delivered = c.delivered ++ [i] := by
          show c.order.filter (fun j => Function.update c.returned i (some true) j = some true) =
            c.order.filter (fun j => c.returned j = some true) ++ [i]
          have hbefore : (pre.filter fun j => Function.update c.returned i (some true) j = some true) =
              pre.filter fun j => c.returned j = some true :=
            List.filter_congr fun j hj => by
              have hji : j ≠ i := fun he => hnot (he ▸ hj)
              rw [Function.update_of_ne hji]
          rw [hpre, List.filter_append, List.filter_append, hbefore]
          simp [hnone]
        refine ⟨[], ?_, .idle hb rfl⟩
        rw [hdelivered, List.flatMap_append, List.flatMap_singleton, List.append_nil, ← ht]
        exact hs
    | torn _ _ hptr => exact absurd ((hptr i x hh).symm.trans hnil) hne

end

section

variable {frame : ι → Bytes} {c c' : SessionSends ι} {a : SendAction ι}

theorem Sound.next (hsize : ∀ i, (frame i).length < 2 ^ 31) (hne : ∀ i, frame i ≠ [])
    (h : Sound frame c) (hn : c.next frame a = some c') : Sound frame c' := by
  cases a with
  | acquire i =>
      obtain ⟨hfree, hi, ⟨-, rfl⟩ | ⟨-, rfl⟩⟩ := next_acquire hn
      · exact h.acquire hfree hi (hsize i)
      · exact h.refused hfree hi
  | taken n =>
      obtain ⟨i, x, hh, hb, hpos, rfl⟩ := next_taken hn
      exact h.taken hh hb hpos
  | wouldBlock =>
      rw [next_wouldBlock hn]
      exact h
  | fail =>
      obtain ⟨i, x, hh, hpos, rfl⟩ := next_fail hn
      exact h.fail hh hpos
  | finish =>
      obtain ⟨i, x, hh, hdone, rfl⟩ := next_finish hn
      exact h.finish (hne i) hh hdone

end

/-! ## Whole runs -/

/-- The calls that take the mutex in a run, oldest first. -/
def acquired : List (SendAction ι) → List ι
  | [] => []
  | .acquire i :: as => i :: acquired as
  | _ :: as => acquired as

theorem order_of_exec {frame : ι → Bytes} {c c' : SessionSends ι} {as : List (SendAction ι)}
    (h : exec (next frame) c as = some c') : c'.order = c.order ++ acquired as := by
  induction as generalizing c with
  | nil =>
      cases h
      exact (List.append_nil _).symm
  | cons a as ih =>
      obtain ⟨d, hd, h⟩ := exec_cons_eq_some.mp h
      rw [ih h]
      cases a with
      | acquire i =>
          obtain ⟨-, -, ⟨-, rfl⟩ | ⟨-, rfl⟩⟩ := next_acquire hd
          · simp [acquired]
          · simp [acquired]
      | taken n =>
          obtain ⟨i, x, -, -, -, rfl⟩ := next_taken hd
          rfl
      | wouldBlock =>
          rw [next_wouldBlock hd]
          rfl
      | fail =>
          obtain ⟨i, x, -, -, rfl⟩ := next_fail hd
          rfl
      | finish =>
          obtain ⟨i, x, -, -, rfl⟩ := next_finish hd
          rfl

/-- **Frames of a session.**  In every run of any number of calls, when nobody holds the mutex, the
stream consists of the frames of the calls that returned `true`, each once and in the order in
which they took the mutex, and of a proper part of the frame of a call that returned `false`, if
of anything more. -/
theorem session_frames_whole {call : ι → RawPacket} {hasSocket : Bool}
    {run : List (SendAction ι)} {c : SessionSends ι}
    (hsize : ∀ i, (call i).frame.length < 2 ^ 31)
    (hrun : exec (next fun i => (call i).frame) { hasSocket } run = some c)
    (hfree : c.holder = none) :
    (acquired run).Nodup ∧ ∃ tail, c.stream =
        ((acquired run).filter fun i => c.returned i = some true).flatMap
          (fun i => (call i).frame) ++ tail ∧
      (tail = [] ∨
        ∃ i, c.returned i = some false ∧ tail <+: (call i).frame ∧ tail ≠ (call i).frame) := by
  have hne : ∀ i, (call i).frame ≠ [] := fun i => nofun
  have hsound : Sound (fun i => (call i).frame) c :=
    exec_invariant (I := Sound fun i => (call i).frame) (fun h hn => h.next hsize hne hn)
      (sound_start _ hasSocket) hrun
  have horder : c.order = acquired run := order_of_exec hrun
  obtain ⟨tail, hstream, htail⟩ := hsound.stream
  rw [delivered, horder] at hstream
  refine ⟨horder ▸ hsound.nodup, tail, hstream, ?_⟩
  cases htail with
  | idle => exact Or.inl rfl
  | sending _ hh _ =>
      rw [hfree] at hh
      cases hh
  | torn _ ht _ => exact Or.inr ht

/-- Two calls; the second one fails after two bytes. -/
def twoCalls : Bool → RawPacket
  | true => ⟨.loginResp, [49]⟩
  | false => ⟨.statusUpdate, [50]⟩

theorem session_frames_whole_two :
    let run : List (SendAction Bool) :=
      [.acquire true, .taken 3, .wouldBlock, .taken 9, .finish, .acquire false, .taken 2, .fail]
    ∃ c, exec (next fun i => (twoCalls i).frame) { hasSocket := true } run = some c ∧
      (acquired run).Nodup ∧ ∃ tail, c.stream =
        ((acquired run).filter fun i => c.returned i = some true).flatMap
          (fun i => (twoCalls i).frame) ++ tail ∧
        (tail = [] ∨ ∃ i, c.returned i = some false ∧ tail <+: (twoCalls i).frame ∧
          tail ≠ (twoCalls i).frame) := by
  intro run
  have hrun : (exec (next fun i => (twoCalls i).frame) { hasSocket := true } run).any
      fun c => decide (c.holder = none) := by decide +kernel
  obtain ⟨c, hc, hfree⟩ := (Option.any_eq_true ..).mp hrun
  exact ⟨c, hc, session_frames_whole (by decide) hc (of_decide_eq_true hfree)⟩

end SessionSends

end DistributedChat
