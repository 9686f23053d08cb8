import Mathlib.Data.List.AList
import Mathlib.Data.List.Nodup
import Mathlib.Data.Set.Basic

/-!
# Tables and list sets

A *table* is a finite map that can be listed: Mathlib's association list with
constant value type.  A *list set* is a finite set that can be listed.  Both
carry the absence of duplicates as a field, so a key has one value and an
element is listed once.

A table is an *index* if it leads from a key to the value that has the key
(`Table.Indexes`).

The two operations Mathlib lacks are `Table.filter`, which keeps the entries
that pass a test, and `Table.mapVal`, which rewrites every value.
-/

universe u v

/-- A finite map with a listing of its entries. -/
abbrev Table (κ : Type u) (α : Type v) := AList fun _ : κ => α

namespace Table

variable {κ : Type u} {α : Type v}

/-- The values, in the order of the entries. -/
def values (t : Table κ α) : List α := t.entries.map Sigma.snd

/-- Keep the entries that pass a test. -/
def filter (p : κ → α → Bool) (t : Table κ α) : Table κ α :=
  ⟨t.entries.filter fun e => p e.1 e.2, t.nodupKeys.sublist List.filter_sublist⟩

/-- Rewrite every value. -/
def mapVal (f : α → α) (t : Table κ α) : Table κ α :=
  ⟨t.entries.map fun e => ⟨e.1, f e.2⟩, by
    have h := t.nodupKeys
    rw [List.NodupKeys] at h ⊢
    simpa [List.keys, List.map_map, Function.comp_def] using h⟩

@[simp] theorem values_empty : (∅ : Table κ α).values = [] := rfl

variable [DecidableEq κ]

theorem lookup_eq_some_iff {t : Table κ α} {k : κ} {v : α} :
    t.lookup k = some v ↔ ⟨k, v⟩ ∈ t.entries :=
  AList.mem_lookup_iff

theorem mem_values_iff {t : Table κ α} {v : α} :
    v ∈ t.values ↔ ∃ k, t.lookup k = some v := by
  simp only [values, List.mem_map, lookup_eq_some_iff]
  constructor
  · rintro ⟨⟨k, w⟩, he, rfl⟩
    exact ⟨k, he⟩
  · rintro ⟨k, he⟩
    exact ⟨⟨k, v⟩, he, rfl⟩

@[simp] theorem lookup_empty (k : κ) : (∅ : Table κ α).lookup k = none := rfl

/-- Reading after a write. -/
theorem lookup_insert (t : Table κ α) (k k' : κ) (v : α) :
    (t.insert k v).lookup k' = if k' = k then some v else t.lookup k' := by
  by_cases h : k' = k
  · subst h
    rw [if_pos rfl, AList.lookup_insert]
  · rw [if_neg h, AList.lookup_insert_ne h]

/-- Reading after an erasure. -/
theorem lookup_erase (t : Table κ α) (k k' : κ) :
    (t.erase k).lookup k' = if k' = k then none else t.lookup k' := by
  by_cases h : k' = k
  · subst h
    rw [if_pos rfl, AList.lookup_erase]
  · rw [if_neg h, AList.lookup_erase_ne h]

theorem lookup_filter_eq_some {t : Table κ α} {p : κ → α → Bool} {k : κ} {v : α} :
    (t.filter p).lookup k = some v ↔ t.lookup k = some v ∧ p k v = true := by
  rw [lookup_eq_some_iff, lookup_eq_some_iff]
  exact List.mem_filter

/-- The table leads from a key to the value that has the key, and nowhere else. -/
def Indexes (t : Table κ α) (key : α → Option κ) : Prop :=
  ∀ k v, t.lookup k = some v ↔ key v = some k

theorem indexes_empty : (∅ : Table κ α).Indexes fun _ => none := fun _ _ =>
  ⟨fun h => Option.noConfusion rfl (heq_of_eq h), fun h => Option.noConfusion rfl (heq_of_eq h)⟩

/-- A value gets a key that no other value has: the table still leads to it, unless it is left with
another key of the value. -/
theorem Indexes.insert_iff [DecidableEq α] {t : Table κ α} {key : α → Option κ} {k : κ} {v : α}
    (h : t.Indexes key) (hfree : ∀ w, w ≠ v → key w ≠ some k) :
    Indexes (t.insert k v) (Function.update key v (some k)) ↔ ∀ k', key v = some k' → k' = k := by
  constructor
  · intro hnew k' hk'
    by_contra hne
    have hstale : (t.insert k v).lookup k' = some v := by
      rw [lookup_insert, if_neg hne]
      exact (h k' v).mpr hk'
    have hkey := (hnew k' v).mp hstale
    rw [Function.update_self] at hkey
    exact hne (Option.some.inj hkey).symm
  · intro hold k' w
    rw [lookup_insert]
    by_cases hw : w = v
    · subst hw
      rw [Function.update_self]
      by_cases hk : k' = k
      · simp [hk]
      · have hnone : t.lookup k' ≠ some w := fun hl => hk (hold k' ((h k' w).mp hl))
        simp [hk, hnone, Ne.symm hk]
    · rw [Function.update_of_ne hw]
      by_cases hk : k' = k
      · subst hk
        simp [hfree w hw, Ne.symm hw]
      · rw [if_neg hk]
        exact h k' w

/-- Reading after a filter. -/
theorem lookup_filter (t : Table κ α) (p : κ → α → Bool) (k : κ) :
    (t.filter p).lookup k = (t.lookup k).filter (p k) := by
  apply Option.ext
  intro v
  rw [lookup_filter_eq_some, Option.filter_eq_some_iff]

/-- Reading after rewriting the values. -/
theorem lookup_mapVal (t : Table κ α) (f : α → α) (k : κ) :
    (t.mapVal f).lookup k = (t.lookup k).map f := by
  apply Option.ext
  intro v
  rw [lookup_eq_some_iff, Option.map_eq_some_iff]
  simp only [mapVal, List.mem_map, lookup_eq_some_iff]
  constructor
  · rintro ⟨⟨k', w⟩, he, heq⟩
    cases heq
    exact ⟨w, he, rfl⟩
  · rintro ⟨w, he, rfl⟩
    exact ⟨⟨k, w⟩, he, rfl⟩

end Table

/-- A finite set with a listing of its elements. -/
structure ListSet (α : Type u) where
  /-- The elements. -/
  elems : List α
  /-- No element is listed twice. -/
  nodup : elems.Nodup

namespace ListSet

variable {α : Type u}

instance : EmptyCollection (ListSet α) := ⟨⟨[], List.nodup_nil⟩⟩

instance : Inhabited (ListSet α) := ⟨∅⟩

instance : Membership α (ListSet α) := ⟨fun s a => a ∈ s.elems⟩

theorem mem_def {s : ListSet α} {a : α} : a ∈ s ↔ a ∈ s.elems := Iff.rfl

@[simp] theorem notMem_empty (a : α) : a ∉ (∅ : ListSet α) := List.not_mem_nil

@[simp] theorem elems_empty : (∅ : ListSet α).elems = [] := rfl

variable [DecidableEq α]

instance (a : α) (s : ListSet α) : Decidable (a ∈ s) :=
  inferInstanceAs (Decidable (a ∈ s.elems))

/-- Add an element. -/
def insert (s : ListSet α) (a : α) : ListSet α := ⟨s.elems.insert a, s.nodup.insert⟩

/-- Remove an element. -/
def erase (s : ListSet α) (a : α) : ListSet α := ⟨s.elems.erase a, s.nodup.erase a⟩

@[simp] theorem mem_insert {s : ListSet α} {a b : α} : b ∈ s.insert a ↔ b = a ∨ b ∈ s :=
  List.mem_insert_iff

@[simp] theorem mem_erase {s : ListSet α} {a b : α} : b ∈ s.erase a ↔ b ≠ a ∧ b ∈ s :=
  s.nodup.mem_erase_iff

end ListSet
