import Mathlib.Data.Option.Basic

/-!
# Computations that may go round forever

A computation with unbounded loops is known by its approximations: `run n` is its
result if every loop in it ends after at most `n` rounds.  A result with few
rounds is the result with more, so a computation has at most one result
(`Returns.unique`), and none if it hangs.

`returns_bind_iff` decides a sequence from its parts, and
`returns_loop_iff_of_again` a loop from one round.  That a loop hangs is shown
with an invariant of its rounds (`not_ends_loop`).
-/

universe u

/-- A computation on a state that may fail or go round forever. -/
structure Looping (σ α : Type u) where
  /-- The result when every loop is given a number of rounds. -/
  run : Nat → σ → Option (Option α × σ)
  mono : ∀ {n s r}, run n s = some r → run (n + 1) s = some r

namespace Looping

variable {σ α β ρ : Type u}

/-- The computation ends with the result. -/
def Returns (l : Looping σ α) (s : σ) (r : Option α × σ) : Prop := ∃ n, l.run n s = some r

/-- The computation does not go round forever. -/
def Ends (l : Looping σ α) (s : σ) : Prop := ∃ r, l.Returns s r

theorem mono_le (l : Looping σ α) {n m : Nat} {s : σ} {r : Option α × σ} (hle : n ≤ m)
    (h : l.run n s = some r) : l.run m s = some r := by
  induction hle with
  | refl => exact h
  | step _ ih => exact l.mono ih

theorem Returns.unique {l : Looping σ α} {s : σ} {r r' : Option α × σ} (h : l.Returns s r)
    (h' : l.Returns s r') : r = r' := by
  obtain ⟨n, hn⟩ := h
  obtain ⟨m, hm⟩ := h'
  have hl := l.mono_le (Nat.le_max_left n m) hn
  have hr := l.mono_le (Nat.le_max_right n m) hm
  rw [hl] at hr
  exact Option.some.inj hr

/-! ## Sequences -/

/-- The computation ends at once. -/
def done (x : Option α) : Looping σ α where
  run := fun _ s => some (x, s)
  mono := id

/-- The second computation is about what the first one returns. -/
def bind (l : Looping σ α) (k : α → Looping σ β) : Looping σ β where
  run := fun n s =>
    match l.run n s with
    | none => none
    | some (none, t) => some (none, t)
    | some (some x, t) => (k x).run n t
  mono := by
    intro n s r h
    cases hl : l.run n s with
    | none => rw [hl] at h; cases h
    | some q =>
        obtain ⟨x, t⟩ := q
        rw [l.mono hl]
        rw [hl] at h
        cases x with
        | none => exact h
        | some x => exact (k x).mono h

instance : Monad (Looping σ) where
  pure x := done (some x)
  bind := bind

/-- A step that always ends. -/
def act (f : σ → α × σ) : Looping σ α where
  run := fun _ s => some (some (f s).1, (f s).2)
  mono := id

/-- The computation fails. -/
def fail : Looping σ α := done none

theorem returns_pure_iff {x : α} {s : σ} {r : Option α × σ} :
    (pure x : Looping σ α).Returns s r ↔ r = (some x, s) :=
  ⟨fun ⟨_, h⟩ => (Option.some.inj h).symm, fun h => ⟨0, congrArg some h.symm⟩⟩

theorem returns_act (f : σ → α × σ) (s : σ) : (act f).Returns s (some (f s).1, (f s).2) :=
  ⟨0, rfl⟩

theorem returns_fail_iff {s : σ} {r : Option α × σ} :
    (fail : Looping σ α).Returns s r ↔ r = (none, s) :=
  ⟨fun ⟨_, h⟩ => (Option.some.inj h).symm, fun h => ⟨0, congrArg some h.symm⟩⟩

theorem returns_bind_iff {l : Looping σ α} {k : α → Looping σ β} {s : σ} {r : Option β × σ} :
    (l >>= k).Returns s r ↔
      (∃ x t, l.Returns s (some x, t) ∧ (k x).Returns t r) ∨
        ∃ t, l.Returns s (none, t) ∧ r = (none, t) := by
  constructor
  · rintro ⟨n, h⟩
    change (match l.run n s with
      | none => none
      | some (none, t) => some (none, t)
      | some (some x, t) => (k x).run n t) = some r at h
    cases hl : l.run n s with
    | none => rw [hl] at h; cases h
    | some q =>
        obtain ⟨x, t⟩ := q
        rw [hl] at h
        cases x with
        | none => exact Or.inr ⟨t, ⟨n, hl⟩, (Option.some.inj h).symm⟩
        | some x => exact Or.inl ⟨x, t, ⟨n, hl⟩, n, h⟩
  · rintro (⟨x, t, ⟨n, hl⟩, m, hk⟩ | ⟨t, ⟨n, hl⟩, rfl⟩)
    · refine ⟨max n m, ?_⟩
      show (match l.run (max n m) s with
        | none => none
        | some (none, t) => some (none, t)
        | some (some x, t) => (k x).run (max n m) t) = some r
      rw [l.mono_le (Nat.le_max_left n m) hl]
      exact (k x).mono_le (Nat.le_max_right n m) hk
    · refine ⟨n, ?_⟩
      show (match l.run n s with
        | none => none
        | some (none, t) => some (none, t)
        | some (some x, t) => (k x).run n t) = some (none, t)
      rw [hl]

/-- A sequence that gets past its first part. -/
theorem Returns.bind {l : Looping σ α} {k : α → Looping σ β} {s t : σ} {x : α} {r : Option β × σ}
    (hl : l.Returns s (some x, t)) (hk : (k x).Returns t r) : (l >>= k).Returns s r :=
  returns_bind_iff.mpr (Or.inl ⟨x, t, hl, hk⟩)

/-- A sequence hangs if its first part does. -/
theorem not_ends_bind {l : Looping σ α} {k : α → Looping σ β} {s : σ} (hl : ¬ l.Ends s) :
    ¬ (l >>= k).Ends s := by
  rintro ⟨r, h⟩
  rcases returns_bind_iff.mp h with ⟨x, t, hx, -⟩ | ⟨t, ht, -⟩
  · exact hl ⟨_, hx⟩
  · exact hl ⟨_, ht⟩

/-- A sequence that gets past its first part does what its second part does. -/
theorem Returns.bind_iff {l : Looping σ α} {k : α → Looping σ β} {s t : σ} {x : α}
    {r : Option β × σ} (hl : l.Returns s (some x, t)) :
    (l >>= k).Returns s r ↔ (k x).Returns t r := by
  constructor
  · intro h
    rcases returns_bind_iff.mp h with ⟨y, u, hy, hr⟩ | ⟨u, hu, -⟩
    · cases hl.unique hy
      exact hr
    · cases hl.unique hu
  · exact hl.bind

/-- A sequence that gets past its first part ends if its second part does. -/
theorem Returns.ends_bind_iff {l : Looping σ α} {k : α → Looping σ β} {s t : σ} {x : α}
    (hl : l.Returns s (some x, t)) : (l >>= k).Ends s ↔ (k x).Ends t :=
  exists_congr fun _ => hl.bind_iff

theorem ends_pure (x : α) (s : σ) : (pure x : Looping σ α).Ends s :=
  ⟨_, returns_pure_iff.mpr rfl⟩

theorem ends_fail (s : σ) : (fail : Looping σ α).Ends s := ⟨_, returns_fail_iff.mpr rfl⟩

/-! ## Loops -/

/-- The outcome of one round of a loop with the variables `ρ`. -/
inductive Turn (ρ σ α : Type u) where
  | again (x : ρ) (s : σ)
  | leave (a : Option α) (s : σ)

/-- A number of rounds. -/
def rounds (body : ρ → σ → Turn ρ σ α) : Nat → ρ → σ → Option (Option α × σ)
  | 0, _, _ => none
  | n + 1, x, s =>
      match body x s with
      | .again y t => rounds body n y t
      | .leave a t => some (a, t)

theorem rounds_mono (body : ρ → σ → Turn ρ σ α) {n : Nat} {x : ρ} {s : σ} {r : Option α × σ}
    (h : rounds body n x s = some r) : rounds body (n + 1) x s = some r := by
  induction n generalizing x s with
  | zero => cases h
  | succ n ih =>
      rw [rounds] at h ⊢
      cases hb : body x s with
      | again y t =>
          rw [hb] at h
          exact ih h
      | leave a t =>
          rw [hb] at h
          exact h

/-- A loop that is left from within its body. -/
def loop (body : ρ → σ → Turn ρ σ α) (x : ρ) : Looping σ α where
  run := fun n s => rounds body n x s
  mono := rounds_mono body

section

variable {body : ρ → σ → Turn ρ σ α} {x y : ρ} {s t : σ}

theorem returns_loop_of_leave {a : Option α} (hb : body x s = .leave a t) :
    (loop body x).Returns s (a, t) := by
  refine ⟨1, ?_⟩
  show rounds body 1 x s = _
  rw [rounds, hb]

theorem returns_loop_iff_of_again (hb : body x s = .again y t) {r : Option α × σ} :
    (loop body x).Returns s r ↔ (loop body y).Returns t r := by
  have hround : ∀ n, rounds body (n + 1) x s = rounds body n y t := by
    intro n
    rw [rounds, hb]
  constructor
  · rintro ⟨n, h⟩
    cases n with
    | zero => cases h
    | succ n => exact ⟨n, (hround n).symm.trans h⟩
  · rintro ⟨n, h⟩
    exact ⟨n + 1, (hround n).trans h⟩

/-- A loop hangs if an invariant keeps it going round. -/
theorem not_ends_loop {I : ρ → σ → Prop}
    (h : ∀ x s, I x s → ∃ y t, body x s = .again y t ∧ I y t) (hI : I x s) :
    ¬ (loop body x).Ends s := by
  rintro ⟨r, n, hn⟩
  change rounds body n x s = some r at hn
  induction n generalizing x s with
  | zero => cases hn
  | succ n ih =>
      obtain ⟨y, t, hb, hI'⟩ := h x s hI
      rw [rounds, hb] at hn
      exact ih hI' hn

end

end Looping
