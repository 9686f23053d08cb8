import DistributedChat.Logic.Prog
import Mathlib.Data.List.Pairwise
import Mathlib.Logic.Function.Basic
import Mathlib.Tactic.Cases

/-!
# Threads that share a state and a queue of tasks

A *pool* is a state shared by threads, each of which runs a program of critical
sections, and a queue of programs that wait for a thread.  `submit` puts a
program into the queue, `take` gives its head to a thread, `launch` gives a
thread a program of its own, `advance` lets a thread perform one section and
`finish` dismisses a program that has ended.  Programs are numbered in the order
in which they were made, and the history lists, section by section, the programs
that updated the state.

`InOrder` says that programs with a common key take effect in the order of their
numbers.  A queue alone does not ensure it, since threads overtake each other;
it holds as long as a program updates the state only while no older one of its
key is running (`Disciplined.advance`).
-/

/-- A program with its number and with what it is about. -/
structure Job (σ ο ω : Type) where
  number : Nat
  label : ω
  /-- What is left of the program. -/
  rest : Prog σ ο Unit

/-- Threads `ι` over a shared state. -/
structure Pool (ι σ ο ω : Type) where
  state : σ
  /-- The outputs so far, oldest first. -/
  out : List ο := []
  queue : List (Job σ ο ω) := []
  running : ι → Option (Job σ ο ω) := fun _ => none
  /-- The number of the next job. -/
  made : Nat := 0
  /-- The updates so far, oldest first. -/
  history : List (Nat × ω) := []

namespace Pool

section

variable {ι σ ο ω κ : Type}

/-- No program is waiting or running. -/
def Idle (P : Pool ι σ ο ω) : Prop := P.queue = [] ∧ ∀ i, P.running i = none

/-- The job is waiting or running. -/
def Pending (P : Pool ι σ ο ω) (j : Job σ ο ω) : Prop :=
  j ∈ P.queue ∨ ∃ i, P.running i = some j

/-- Put a program into the queue. -/
def submit (P : Pool ι σ ο ω) (w : ω) (prog : Prog σ ο Unit) : Pool ι σ ο ω :=
  { P with queue := P.queue ++ [⟨P.made, w, prog⟩], made := P.made + 1 }

variable [DecidableEq ι]

/-- What the thread is running from now on. -/
def assign (P : Pool ι σ ο ω) (i : ι) (j : Option (Job σ ο ω)) : Pool ι σ ο ω :=
  { P with running := Function.update P.running i j }

/-- Thread `i` performs a section of its job. -/
def perform (P : Pool ι σ ο ω) (i : ι) (j : Job σ ο ω) (c : Prog.Section σ ο Unit) :
    Pool ι σ ο ω :=
  { P with
    state := c.state
    out := P.out ++ c.out
    running := Function.update P.running i (some { j with rest := c.rest })
    history := if c.isUpdate = true then P.history ++ [(j.number, j.label)] else P.history }

/-- Thread `i` starts a program of its own, if it is not busy. -/
def launch (P : Pool ι σ ο ω) (i : ι) (w : ω) (prog : Prog σ ο Unit) : Option (Pool ι σ ο ω) :=
  match P.running i with
  | some _ => none
  | none => some { P.assign i (some ⟨P.made, w, prog⟩) with made := P.made + 1 }

/-- Thread `i` takes the program at the head of the queue, if it is not busy. -/
def take (P : Pool ι σ ο ω) (i : ι) : Option (Pool ι σ ο ω) :=
  match P.running i, P.queue with
  | none, j :: rest => some { P.assign i (some j) with queue := rest }
  | _, _ => none

/-- Thread `i` performs the next section of its program. -/
def advance (P : Pool ι σ ο ω) (i : ι) : Option (Pool ι σ ο ω) :=
  match P.running i with
  | none => none
  | some j => (j.rest.step? P.state).map (P.perform i j)

/-- Thread `i` is done with a program that has ended. -/
def finish (P : Pool ι σ ο ω) (i : ι) : Option (Pool ι σ ο ω) :=
  match P.running i with
  | none => none
  | some j => if (j.rest.step? P.state).isNone then some (P.assign i none) else none

variable {P P' : Pool ι σ ο ω} {i i' : ι} {j j' : Job σ ο ω} {w : ω} {prog : Prog σ ο Unit}

theorem launch_eq_some : P.launch i w prog = some P' ↔
    P.running i = none ∧ P' = { P.assign i (some ⟨P.made, w, prog⟩) with made := P.made + 1 } := by
  rw [launch]
  cases P.running i with
  | none => simp [eq_comm]
  | some j => simp

theorem take_eq_some : P.take i = some P' ↔ ∃ j rest, P.running i = none ∧
    P.queue = j :: rest ∧ P' = { P.assign i (some j) with queue := rest } := by
  rw [take.eq_def]
  split
  next j rest hi hq => simp [hi, hq, eq_comm]
  next hnot =>
    constructor
    · exact fun h => nomatch h
    · rintro ⟨j, rest, hi, hq, -⟩
      exact absurd hq (hnot j rest hi)

theorem advance_eq_some : P.advance i = some P' ↔ ∃ j c, P.running i = some j ∧
    j.rest.step? P.state = some c ∧ P' = P.perform i j c := by
  rw [advance]
  cases P.running i with
  | none => simp
  | some j => simp only [Option.map_eq_some_iff, Option.some.injEq, exists_and_left, exists_eq_left',
      eq_comm (a := P')]

theorem finish_eq_some : P.finish i = some P' ↔ ∃ j, P.running i = some j ∧
    j.rest.step? P.state = none ∧ P' = P.assign i none := by
  rw [finish]
  cases P.running i with
  | none => simp
  | some j =>
      simp only [Option.ite_none_right_eq_some, Option.isNone_iff_eq_none, Option.some.injEq,
        exists_eq_left', eq_comm (a := P')]

/-! ## What is pending after a step -/

theorem running_assign (x : Option (Job σ ο ω)) :
    (P.assign i x).running i' = if i' = i then x else P.running i' :=
  Function.update_apply ..

theorem running_perform (c : Prog.Section σ ο Unit) :
    (P.perform i j c).running i' = if i' = i then some { j with rest := c.rest } else P.running i' :=
  Function.update_apply ..

end

/-! ## Programs with a common key take effect in order -/

section

variable {ι σ ο ω κ : Type} (key : ω → Option κ)

/-- Updates of programs with a common key come in the order of their numbers. -/
def InOrder (P : Pool ι σ ο ω) : Prop :=
  P.history.Pairwise fun e f => ∀ x, key e.2 = some x → key f.2 = some x → e.1 ≤ f.1

instance [DecidableEq κ] (P : Pool ι σ ο ω) : Decidable (P.InOrder key) :=
  inferInstanceAs (Decidable (P.history.Pairwise fun e f =>
    ∀ x ∈ key e.2, key f.2 = some x → e.1 ≤ f.1))

/-- If the next section of thread `i` is an update, no older program of its key
is running. -/
def Waits (P : Pool ι σ ο ω) (i : ι) : Prop :=
  ∀ j ∈ P.running i, ∀ c ∈ j.rest.step? P.state, c.isUpdate = true → ∀ x ∈ key j.label,
    ∀ i', ∀ j' ∈ P.running i', key j'.label = some x → j.number ≤ j'.number

/-- The queue is in the order of the numbers, and what has been taken from it is
older than what is left. -/
structure Queued (P : Pool ι σ ο ω) : Prop where
  sorted : P.queue.Pairwise fun j j' => j.number < j'.number
  below : ∀ j ∈ P.queue, j.number < P.made
  running_below : ∀ i, ∀ j ∈ P.running i, j.number < P.made
  taken : ∀ i, ∀ j ∈ P.running i, (key j.label).isSome → ∀ j' ∈ P.queue, j.number < j'.number

/-- Programs took effect in order, and what is pending is no older than what did. -/
structure Disciplined (P : Pool ι σ ο ω) : Prop extends Queued key P where
  inOrder : P.InOrder key
  past_below : ∀ e ∈ P.history, e.1 < P.made
  later : ∀ e ∈ P.history, ∀ j, P.Pending j → ∀ x, key e.2 = some x → key j.label = some x →
    e.1 ≤ j.number

variable {key} {P P' : Pool ι σ ο ω} {i : ι} {w : ω} {prog : Prog σ ο Unit}

theorem disciplined_init (s : σ) : Disciplined key ({ state := s } : Pool ι σ ο ω) where
  sorted := .nil
  below := fun _ h => absurd h List.not_mem_nil
  running_below := fun _ _ h => nomatch h
  taken := fun _ _ h => nomatch h
  inOrder := .nil
  past_below := fun _ h => absurd h List.not_mem_nil
  later := fun _ h => absurd h List.not_mem_nil

theorem Disciplined.congr (h : Disciplined key P) (hq : P'.queue = P.queue)
    (hr : P'.running = P.running) (hm : P'.made = P.made) (hh : P'.history = P.history) :
    Disciplined key P' := by
  have hpend : ∀ j, P'.Pending j ↔ P.Pending j := by
    intro j
    rw [Pending, Pending, hq, hr]
  constructor
  · constructor
    · exact hq ▸ h.sorted
    · rw [hq, hm]
      exact h.below
    · rw [hr, hm]
      exact h.running_below
    · rw [hr, hq]
      exact h.taken
  · exact show P'.history.Pairwise _ from hh ▸ h.inOrder
  · rw [hh, hm]
    exact h.past_below
  · rw [hh]
    exact fun e he j hj => h.later e he j ((hpend j).mp hj)

theorem Disciplined.submit (h : Disciplined key P) (w : ω) (prog : Prog σ ο Unit) :
    Disciplined key (P.submit w prog) where
  sorted := by
    refine List.pairwise_append.mpr ⟨h.sorted, List.pairwise_singleton .., ?_⟩
    intro j hj j' hj'
    rw [List.mem_singleton.mp hj']
    exact h.below j hj
  below := by
    intro j hj
    rcases List.mem_append.mp hj with hj | hj
    · exact Nat.lt_succ_of_lt (h.below j hj)
    · rw [List.mem_singleton.mp hj]
      exact Nat.lt_succ_self _
  running_below := fun i j hj => Nat.lt_succ_of_lt (h.running_below i j hj)
  taken := by
    intro i j hj hkey j' hj'
    rcases List.mem_append.mp hj' with hj' | hj'
    · exact h.taken i j hj hkey j' hj'
    · rw [List.mem_singleton.mp hj']
      exact h.running_below i j hj
  inOrder := h.inOrder
  past_below := fun e he => Nat.lt_succ_of_lt (h.past_below e he)
  later := by
    intro e he j hj x hx hjx
    rcases hj with hj | hj
    · rcases List.mem_append.mp hj with hj | hj
      · exact h.later e he j (Or.inl hj) x hx hjx
      · rw [List.mem_singleton.mp hj]
        exact Nat.le_of_lt (h.past_below e he)
    · exact h.later e he j (Or.inr hj) x hx hjx

variable [DecidableEq ι]

/-- A thread's own programs have no key. -/
theorem Disciplined.launch (h : Disciplined key P) (hw : key w = none)
    (hP : P.launch i w prog = some P') : Disciplined key P' := by
  obtain ⟨-, rfl⟩ := launch_eq_some.mp hP
  constructor
  · constructor
    · exact h.sorted
    · exact fun j hj => Nat.lt_succ_of_lt (h.below j hj)
    · intro i' j hj
      change (P.assign i _).running i' = some j at hj
      rw [running_assign] at hj
      split at hj
      · cases hj
        exact Nat.lt_succ_self _
      · exact Nat.lt_succ_of_lt (h.running_below i' j hj)
    · intro i' j hj hkey j' hj'
      change (P.assign i _).running i' = some j at hj
      rw [running_assign] at hj
      split at hj
      · cases hj
        rw [hw] at hkey
        cases hkey
      · exact h.taken i' j hj hkey j' hj'
  · exact h.inOrder
  · exact fun e he => Nat.lt_succ_of_lt (h.past_below e he)
  · intro e he j hj x hx hjx
    rcases hj with hj | ⟨i', hj⟩
    · exact h.later e he j (Or.inl hj) x hx hjx
    · change (P.assign i _).running i' = some j at hj
      rw [running_assign] at hj
      split at hj
      · cases hj
        rw [hw] at hjx
        cases hjx
      · exact h.later e he j (Or.inr ⟨i', hj⟩) x hx hjx

theorem Disciplined.take (h : Disciplined key P) (hP : P.take i = some P') :
    Disciplined key P' := by
  obtain ⟨j₀, rest, -, hq, rfl⟩ := take_eq_some.mp hP
  have hsorted := h.sorted
  have hbelow := h.below
  rw [hq] at hsorted hbelow
  obtain ⟨hhead, hrest⟩ := List.pairwise_cons.mp hsorted
  have hold : ∀ j, (∃ i', (P.assign i (some j₀)).running i' = some j) → P.Pending j := by
    rintro j ⟨i', hj⟩
    rw [running_assign] at hj
    split at hj
    · cases hj
      exact Or.inl (hq ▸ List.mem_cons_self ..)
    · exact Or.inr ⟨i', hj⟩
  constructor
  · constructor
    · exact hrest
    · exact fun j hj => hbelow j (List.mem_cons_of_mem _ hj)
    · intro i' j hj
      rcases hold j ⟨i', hj⟩ with hj | ⟨i'', hj⟩
      · exact h.below j hj
      · exact h.running_below i'' j hj
    · intro i' j hj hkey j' hj'
      change (P.assign i _).running i' = some j at hj
      rw [running_assign] at hj
      split at hj
      · cases hj
        exact hhead j' hj'
      · exact h.taken i' j hj hkey j' (hq ▸ List.mem_cons_of_mem _ hj')
  · exact h.inOrder
  · exact h.past_below
  · intro e he j hj
    rcases hj with hj | hj
    · exact h.later e he j (Or.inl (hq ▸ List.mem_cons_of_mem _ hj))
    · exact h.later e he j (hold j hj)

theorem Disciplined.finish (h : Disciplined key P) (hP : P.finish i = some P') :
    Disciplined key P' := by
  obtain ⟨j₀, -, -, rfl⟩ := finish_eq_some.mp hP
  have hold : ∀ i' j, (P.assign i none).running i' = some j → P.running i' = some j := by
    intro i' j hj
    rw [running_assign] at hj
    split at hj
    · cases hj
    · exact hj
  constructor
  · exact ⟨h.sorted, h.below, fun i' j hj => h.running_below i' j (hold i' j hj),
      fun i' j hj => h.taken i' j (hold i' j hj)⟩
  · exact h.inOrder
  · exact h.past_below
  · intro e he j hj
    rcases hj with hj | ⟨i', hj⟩
    · exact h.later e he j (Or.inl hj)
    · exact h.later e he j (Or.inr ⟨i', hold i' j hj⟩)

/-- A thread that waits for the older programs of its key keeps the order. -/
theorem Disciplined.advance (h : Disciplined key P) (hwait : P.Waits key i)
    (hP : P.advance i = some P') : Disciplined key P' := by
  obtain ⟨j₀, c, hi, hc, rfl⟩ := advance_eq_some.mp hP
  -- a running job is the one it was, up to what is left of its program
  have hold : ∀ {i' j}, (P.perform i j₀ c).running i' = some j →
      ∃ j', P.running i' = some j' ∧ j'.number = j.number ∧ j'.label = j.label := by
    intro i' j hj
    rw [running_perform] at hj
    split at hj
    next hii =>
      cases hj
      exact ⟨j₀, hii ▸ hi, rfl, rfl⟩
    · exact ⟨j, hj, rfl, rfl⟩
  constructor
  · constructor
    · exact h.sorted
    · exact h.below
    · intro i' j hj
      obtain ⟨j', hj', hn, -⟩ := hold hj
      exact hn ▸ h.running_below i' j' hj'
    · intro i' j hj hkey j' hj'
      obtain ⟨j'', hj'', hn, hl⟩ := hold hj
      exact hn ▸ h.taken i' j'' hj'' (hl ▸ hkey) j' hj'
  · change (if c.isUpdate = true then P.history ++ [(j₀.number, j₀.label)] else P.history).Pairwise _
    split
    next hup =>
      refine List.pairwise_append.mpr ⟨h.inOrder, List.pairwise_singleton .., ?_⟩
      intro e he f hf x hx hfx
      rw [List.mem_singleton.mp hf] at hfx ⊢
      exact h.later e he j₀ (Or.inr ⟨i, hi⟩) x hx hfx
    · exact h.inOrder
  · intro e he
    change e ∈ (if c.isUpdate = true then P.history ++ [(j₀.number, j₀.label)] else P.history) at he
    split at he
    · rcases List.mem_append.mp he with he | he
      · exact h.past_below e he
      · rw [List.mem_singleton.mp he]
        exact h.running_below i j₀ hi
    · exact h.past_below e he
  · intro e he j hj x hx hjx
    have hjobs : ∀ e ∈ P.history, key e.2 = some x → e.1 ≤ j.number := by
      intro e he hx
      rcases hj with hj | ⟨i', hj⟩
      · exact h.later e he j (Or.inl hj) x hx hjx
      · obtain ⟨j', hj', hn, hl⟩ := hold hj
        exact hn ▸ h.later e he j' (Or.inr ⟨i', hj'⟩) x hx (hl ▸ hjx)
    change e ∈ (if c.isUpdate = true then P.history ++ [(j₀.number, j₀.label)] else P.history) at he
    split at he
    next hup =>
      rcases List.mem_append.mp he with he | he
      · exact hjobs e he hx
      · -- the update is the one just made: what waits is younger, what runs is no older
        rw [List.mem_singleton.mp he] at hx ⊢
        rcases hj with hj | ⟨i', hj⟩
        · exact Nat.le_of_lt (h.taken i j₀ hi (by rw [hx]; rfl) j hj)
        · obtain ⟨j', hj', hn, hl⟩ := hold hj
          exact hn ▸ hwait j₀ hi c hc hup x hx i' j' hj' (hl ▸ hjx)
    · exact hjobs e he hx

end

end Pool
