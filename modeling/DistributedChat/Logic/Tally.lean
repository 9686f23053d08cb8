import Mathlib.Algebra.BigOperators.Fin
import Mathlib.Data.Fintype.BigOperators

/-!
# How many have a property

In a finite family of processes, `tally p f` is the number of those whose local
state has the property.  When one process changes its state the tally changes by
what that process contributed before and after (`tally_update`).
-/

universe u v

variable {ι : Type u} {β : Type v} [Fintype ι]

/-- The number of members of the family with the property. -/
def tally (p : β → Prop) [DecidablePred p] (f : ι → β) : Nat :=
  (Finset.univ.filter fun i => p (f i)).card

theorem tally_eq_sum (p : β → Prop) [DecidablePred p] (f : ι → β) :
    tally p f = ∑ i, if p (f i) then 1 else 0 :=
  Finset.card_filter ..

/-- What one member contributes is exchanged. -/
theorem tally_update [DecidableEq ι] (p : β → Prop) [DecidablePred p] (f : ι → β) (i : ι) (x : β) :
    tally p (Function.update f i x) + (if p (f i) then 1 else 0) =
      tally p f + if p x then 1 else 0 := by
  let g : β → Nat := fun b => if p b then 1 else 0
  have hsum : ∀ h : ι → β, tally p h = g (h i) + ∑ j ∈ Finset.univ.erase i, g (h j) := by
    intro h
    rw [tally_eq_sum]
    exact (Finset.add_sum_erase _ _ (Finset.mem_univ i)).symm
  have hrest : ∑ j ∈ Finset.univ.erase i, g (Function.update f i x j) =
      ∑ j ∈ Finset.univ.erase i, g (f j) :=
    Finset.sum_congr rfl fun j hj => by rw [Function.update_of_ne (Finset.ne_of_mem_erase hj)]
  show tally p (Function.update f i x) + g (f i) = tally p f + g x
  rw [hsum, hsum f, hrest, Function.update_self]
  omega

theorem tally_congr {p : β → Prop} [DecidablePred p] {f g : ι → β} (h : ∀ i, p (f i) ↔ p (g i)) :
    tally p f = tally p g := by
  rw [tally, tally]
  congr 1
  exact Finset.filter_congr fun i _ => h i

theorem tally_pos_iff {p : β → Prop} [DecidablePred p] {f : ι → β} :
    0 < tally p f ↔ ∃ i, p (f i) := by
  simp [tally, Finset.card_pos, Finset.Nonempty]

theorem tally_eq_zero_iff {p : β → Prop} [DecidablePred p] {f : ι → β} :
    tally p f = 0 ↔ ∀ i, ¬ p (f i) := by
  simp [tally, Finset.filter_eq_empty_iff]
