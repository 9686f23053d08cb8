import Mathlib.Data.List.Basic

/-!
# Bounded buffers

A buffer holds at most as many symbols as its capacity.  It takes a word only as
a whole and only if there is room for it, and gives up symbols at the front.  A
full buffer takes nothing.
-/

/-- A queue of at most `capacity` symbols. -/
structure Buffer (α : Type) (capacity : Nat) where
  /-- The symbols, oldest first. -/
  content : List α := []
  /-- There are not too many. -/
  bounded : content.length ≤ capacity := by exact Nat.zero_le _

namespace Buffer

variable {α : Type} {capacity : Nat}

/-- No symbol fits any more. -/
def Full (b : Buffer α capacity) : Prop := b.content.length = capacity

instance (b : Buffer α capacity) : Decidable b.Full := inferInstanceAs (Decidable (_ = _))

/-- Add a word at the end, if there is room for it. -/
def put? (b : Buffer α capacity) (xs : List α) : Option (Buffer α capacity) :=
  if h : b.content.length + xs.length ≤ capacity then
    some ⟨b.content ++ xs, by rwa [List.length_append]⟩
  else none

/-- Remove symbols at the front. -/
def drop (b : Buffer α capacity) (n : Nat) : Buffer α capacity :=
  ⟨b.content.drop n, by
    have hb := b.bounded
    rw [List.length_drop]
    omega⟩

variable {b b' : Buffer α capacity} {xs : List α} {n : Nat}

theorem put?_eq_some (h : b.put? xs = some b') :
    b.content.length + xs.length ≤ capacity ∧ b'.content = b.content ++ xs := by
  rw [put?] at h
  split at h
  next hle =>
    cases h
    exact ⟨hle, rfl⟩
  next => cases h

/-- A buffer that takes a word was not full, unless the word is empty. -/
theorem not_full_of_put? (hxs : 0 < xs.length) (h : b.put? xs = some b') : ¬ b.Full := by
  have hle := (put?_eq_some h).1
  rw [Full]
  omega

theorem full_put? (h : b.put? xs = some b') :
    b'.Full ↔ b.content.length + xs.length = capacity := by
  rw [Full, (put?_eq_some h).2, List.length_append]

/-- A buffer that gives up a symbol is not full. -/
theorem not_full_drop (hpos : 0 < n) (hle : n ≤ b.content.length) : ¬ (b.drop n).Full := by
  have hb := b.bounded
  rw [Full, drop, List.length_drop]
  omega

end Buffer
