import Mathlib.Data.List.Basic

/-!
# Programs made of critical sections

A *program* over a shared state is what one thread does between its start and
its end, cut into the sections that no other thread can interrupt.  A section
either observes the state (`ask`) or updates it and emits outputs (`act`).  The
continuation of a section sees the state before the section's update, which is
how a section returns a value.

A program has two readings.  Run alone, it is a state transformer with outputs
(`run`).  Run among other threads, it is consumed one section at a time
(`step?`), and the state may change between two sections.
-/

/-- A program of critical sections over states `σ`, with outputs `ο` and result `α`. -/
inductive Prog (σ ο α : Type) : Type where
  /-- The program has ended. -/
  | ret (a : α)
  /-- Observe the state. -/
  | ask (k : σ → Prog σ ο α)
  /-- Update the state and emit outputs. -/
  | act (upd : σ → σ) (emit : σ → List ο) (k : σ → Prog σ ο α)

/-- What a program run alone leaves behind. -/
structure Outcome (σ ο α : Type) where
  /-- The result. -/
  value : α
  /-- The final state. -/
  state : σ
  /-- The outputs, oldest first. -/
  out : List ο

namespace Prog

variable {σ ο α β : Type}

/-- Sequencing. -/
def bind : Prog σ ο α → (α → Prog σ ο β) → Prog σ ο β
  | ret a, g => g a
  | ask k, g => ask fun s => (k s).bind g
  | act upd emit k, g => act upd emit fun s => (k s).bind g

instance : Monad (Prog σ ο) where
  pure := ret
  bind := bind

/-- Observe a function of the state. -/
def observe (f : σ → α) : Prog σ ο α := ask fun s => ret (f s)

/-- Update the state. -/
def update (f : σ → σ) : Prog σ ο Unit := act f (fun _ => []) fun _ => ret ()

/-- Run a program on every element of a list, in order. -/
def each : List β → (β → Prog σ ο Unit) → Prog σ ο Unit
  | [], _ => ret ()
  | x :: xs, f => (f x).bind fun _ => each xs f

/-! ## A program run alone -/

/-- Run a program to its end without interference. -/
def run : Prog σ ο α → σ → Outcome σ ο α
  | ret a, s => ⟨a, s, []⟩
  | ask k, s => (k s).run s
  | act upd emit k, s =>
      let r := (k s).run (upd s)
      ⟨r.value, r.state, emit s ++ r.out⟩

@[simp] theorem run_pure (a : α) (s : σ) : (pure a : Prog σ ο α).run s = ⟨a, s, []⟩ := rfl

@[simp] theorem run_observe (f : σ → α) (s : σ) : (observe f : Prog σ ο α).run s = ⟨f s, s, []⟩ := rfl

@[simp] theorem run_update (f : σ → σ) (s : σ) :
    (update f : Prog σ ο Unit).run s = ⟨(), f s, []⟩ := rfl

/-- Running a sequence runs the second program where the first one stopped. -/
@[simp] theorem run_bind (p : Prog σ ο α) (g : α → Prog σ ο β) (s : σ) :
    (p >>= g).run s =
      ⟨((g (p.run s).value).run (p.run s).state).value,
        ((g (p.run s).value).run (p.run s).state).state,
        (p.run s).out ++ ((g (p.run s).value).run (p.run s).state).out⟩ := by
  change (p.bind g).run s = _
  induction p generalizing s with
  | ret a => rfl
  | ask k ih => exact ih s s
  | act upd emit k ih =>
      simp only [bind, run]
      rw [ih s (upd s)]
      simp only [List.append_assoc]

@[simp] theorem run_each_nil (f : β → Prog σ ο Unit) (s : σ) :
    (each [] f).run s = ⟨(), s, []⟩ := rfl

theorem run_each_cons (f : β → Prog σ ο Unit) (x : β) (xs : List β) (s : σ) :
    (each (x :: xs) f).run s =
      ⟨((each xs f).run ((f x).run s).state).value,
        ((each xs f).run ((f x).run s).state).state,
        ((f x).run s).out ++ ((each xs f).run ((f x).run s).state).out⟩ :=
  run_bind (f x) (fun _ => each xs f) s

theorem state_run_each (f : β → Prog σ ο Unit) (xs : List β) (s : σ) :
    ((each xs f).run s).state = xs.foldl (fun s x => ((f x).run s).state) s := by
  induction xs generalizing s with
  | nil => rfl
  | cons x xs ih =>
      rw [run_each_cons, List.foldl_cons, ← ih]

/-- A loop whose body leaves the state alone emits the outputs of its bodies. -/
theorem run_each_of_state_eq {f : β → Prog σ ο Unit} {s : σ} {xs : List β}
    (h : ∀ x ∈ xs, ((f x).run s).state = s) :
    (each xs f).run s = ⟨(), s, xs.flatMap fun x => ((f x).run s).out⟩ := by
  induction xs with
  | nil => rfl
  | cons x xs ih =>
      rw [run_each_cons, h x (List.mem_cons_self ..),
        ih fun y hy => h y (List.mem_cons_of_mem _ hy)]
      rfl

/-- A branch runs as the branch taken. -/
@[simp] theorem run_ite (c : Prop) [Decidable c] (p q : Prog σ ο α) (s : σ) :
    (if c then p else q).run s = if c then p.run s else q.run s := by
  by_cases h : c <;> simp [h]

/-! ## What a program may emit -/

/-- Every output of the program, from any state, satisfies `P`. -/
def Emits (P : ο → Prop) (p : Prog σ ο α) : Prop := ∀ s, ∀ e ∈ (p.run s).out, P e

section

variable {P Q : ο → Prop}

theorem Emits.mono {p : Prog σ ο α} (h : Emits P p) (hPQ : ∀ e, P e → Q e) : Emits Q p :=
  fun s e he => hPQ e (h s e he)

@[simp] theorem emits_pure (a : α) : Emits P (pure a : Prog σ ο α) :=
  fun _ _ he => absurd he List.not_mem_nil

@[simp] theorem emits_observe (f : σ → α) : Emits P (observe f : Prog σ ο α) :=
  fun _ _ he => absurd he List.not_mem_nil

@[simp] theorem emits_update (f : σ → σ) : Emits P (update f : Prog σ ο Unit) :=
  fun _ _ he => absurd he List.not_mem_nil

theorem Emits.bind {p : Prog σ ο α} {g : α → Prog σ ο β} (hp : Emits P p)
    (hg : ∀ a, Emits P (g a)) : Emits P (p >>= g) := by
  intro s e he
  rw [run_bind] at he
  cases List.mem_append.mp he with
  | inl he => exact hp s e he
  | inr he => exact hg _ _ e he

/-- A value read at the start may be fixed. -/
theorem Emits.out_observe_bind {f : σ → α} {g : α → Prog σ ο β} {s : σ} (h : Emits P (g (f s))) :
    ∀ e ∈ ((observe f >>= g).run s).out, P e :=
  h s

theorem Emits.each {f : β → Prog σ ο Unit} (h : ∀ x, Emits P (f x)) (xs : List β) :
    Emits P (each xs f) := by
  induction xs with
  | nil => exact emits_pure ()
  | cons x xs ih => exact Emits.bind (h x) fun _ => ih

theorem Emits.ite {c : Prop} [Decidable c] {p q : Prog σ ο α} (hp : c → Emits P p)
    (hq : ¬ c → Emits P q) : Emits P (if c then p else q) := by
  by_cases hc : c
  · rw [if_pos hc]
    exact hp hc
  · rw [if_neg hc]
    exact hq hc

end

/-- Every output of the program from the state satisfies `P`. -/
def EmitsAt (P : ο → Prop) (p : Prog σ ο α) (s : σ) : Prop := ∀ e ∈ (p.run s).out, P e

section

variable {P : ο → Prop} {s : σ}

theorem emitsAt_pure (a : α) : EmitsAt P (pure a : Prog σ ο α) s :=
  fun _ he => absurd he List.not_mem_nil

theorem emitsAt_bind {p : Prog σ ο α} {g : α → Prog σ ο β} :
    EmitsAt P (p >>= g) s ↔ EmitsAt P p s ∧ EmitsAt P (g (p.run s).value) (p.run s).state := by
  rw [EmitsAt, run_bind]
  exact List.forall_mem_append

@[simp] theorem emitsAt_observe_bind {f : σ → α} {g : α → Prog σ ο β} :
    EmitsAt P (observe f >>= g) s ↔ EmitsAt P (g (f s)) s :=
  emitsAt_bind.trans (and_iff_right (emitsAt_pure (f s)))

@[simp] theorem emitsAt_update_bind {f : σ → σ} {g : Unit → Prog σ ο β} :
    EmitsAt P (update f >>= g) s ↔ EmitsAt P (g ()) (f s) :=
  emitsAt_bind.trans (and_iff_right fun _ he => absurd he List.not_mem_nil)

theorem emitsAt_each_cons {f : β → Prog σ ο Unit} {x : β} {xs : List β} :
    EmitsAt P (each (x :: xs) f) s ↔
      EmitsAt P (f x) s ∧ EmitsAt P (each xs f) ((f x).run s).state :=
  emitsAt_bind

end

/-! ## A program among other threads -/

/-- What one section of a program does: the program left, the new state, the
outputs, and whether the section was an update. -/
structure Section (σ ο α : Type) where
  /-- The rest of the program. -/
  rest : Prog σ ο α
  /-- The state after the section. -/
  state : σ
  /-- The outputs of the section. -/
  out : List ο
  /-- The section updates the state or emits outputs. -/
  isUpdate : Bool

/-- The next section of a program, if it has not ended. -/
def step? : Prog σ ο α → σ → Option (Section σ ο α)
  | ret _, _ => none
  | ask k, s => some ⟨k s, s, [], false⟩
  | act upd emit k, s => some ⟨k s, upd s, emit s, true⟩

end Prog
