import DistributedChat.Logic.Prog

/-!
# Pre- and postconditions with a history

A program run alone is specified by what holds before and after it.  Conditions
speak about the state and about the outputs so far: `Triple J p K` says that the
program `p`, run in a state and after a history that meet `J`, leaves a state and
a history that meet `K` of its result.  A condition on the history is how a
property of everything that was ever emitted becomes an invariant.

The rules follow the ways to make a program.  `Triple.each` is the rule of the
invariant for loops.
-/

namespace Prog

section

variable {σ ο α β : Type}

/-- From `J`, the program run alone leads to `K` of its result. -/
def Triple (J : σ → List ο → Prop) (p : Prog σ ο α) (K : α → σ → List ο → Prop) : Prop :=
  ∀ s h, J s h → K (p.run s).value (p.run s).state (h ++ (p.run s).out)

/-- The program preserves the condition. -/
abbrev Preserves (J : σ → List ο → Prop) (p : Prog σ ο α) : Prop := Triple J p fun _ => J

variable {J : σ → List ο → Prop} {K : α → σ → List ο → Prop} {p : Prog σ ο α}

theorem triple_pure {a : α} (h : ∀ s out, J s out → K a s out) :
    Triple J (pure a : Prog σ ο α) K := by
  intro s out hJ
  rw [run_pure, List.append_nil]
  exact h s out hJ

theorem Triple.bind {L : β → σ → List ο → Prop} {q : α → Prog σ ο β} (hp : Triple J p K)
    (hq : ∀ a, Triple (K a) (q a) L) : Triple J (p >>= q) L := by
  intro s out hJ
  rw [run_bind, ← List.append_assoc]
  exact hq _ _ _ (hp s out hJ)

/-- A stronger precondition. -/
theorem Triple.pre {J' : σ → List ο → Prop} (hp : Triple J p K)
    (h : ∀ s out, J' s out → J s out) : Triple J' p K :=
  fun s out hJ => hp s out (h s out hJ)

/-- A weaker postcondition. -/
theorem Triple.post {K' : α → σ → List ο → Prop} (hp : Triple J p K)
    (h : ∀ a s out, K a s out → K' a s out) : Triple J p K' :=
  fun s out hJ => h _ _ _ (hp s out hJ)

/-- An observation, of whatever value. -/
theorem triple_observe {f : σ → α} {L : β → σ → List ο → Prop} {q : α → Prog σ ο β}
    (h : ∀ a, Triple J (q a) L) : Triple J (observe f >>= q) L :=
  fun s out hJ => h (f s) s out hJ

theorem triple_update {f : σ → σ} {L : Unit → σ → List ο → Prop}
    (h : ∀ s out, J s out → L () (f s) out) : Triple J (update f : Prog σ ο Unit) L := by
  intro s out hJ
  rw [run_update, List.append_nil]
  exact h s out hJ

theorem Triple.ite {c : Prop} [Decidable c] {q : Prog σ ο α} (hp : c → Triple J p K)
    (hq : ¬ c → Triple J q K) : Triple J (if c then p else q) K := by
  split
  next hc => exact hp hc
  next hc => exact hq hc

/-- What every body of a loop preserves, the loop preserves. -/
theorem Triple.each {f : β → Prog σ ο Unit} (h : ∀ x, Preserves J (f x)) (xs : List β) :
    Preserves J (Prog.each xs f) := by
  induction xs with
  | nil => exact triple_pure fun _ _ hJ => hJ
  | cons x xs ih => exact Triple.bind (h x) fun _ => ih

end

end Prog
