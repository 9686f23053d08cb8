import Mathlib.Data.List.Basic
import Mathlib.Logic.Function.Basic

/-!
# Mirrored sets

A writer owns a set and announces every change of it on a first-in first-out
link; a reader applies the announcements, in order, to a copy.  `settle q S` is
what the copy `S` becomes once the messages `q` under way are applied.  The
mirror is faithful when `settle q S` is the writer's set: the writer extends `q`
at the end, the reader consumes it at the front, and both keep that equation
(`settle_append`, `settle_cons`).  With nothing under way the copy is
the set.
-/

universe u v

namespace Mirror

section

variable {μ : Type u} {κ : Type v}

/-- Apply one message to a copy.  `read` gives the element a message is about
and whether it is now in; `none` is a message about something else. -/
def announce [DecidableEq κ] (read : μ → Option (κ × Bool)) (S : κ → Prop) (m : μ) : κ → Prop :=
  match read m with
  | none => S
  | some (x, present) => Function.update S x (present = true)

/-- The copy once the messages under way are applied. -/
def settle [DecidableEq κ] (read : μ → Option (κ × Bool)) (q : List μ) (S : κ → Prop) : κ → Prop :=
  q.foldl (announce read) S

variable [DecidableEq κ] {read : μ → Option (κ × Bool)} {S T : κ → Prop} {m : μ} {q : List μ}

@[simp] theorem settle_nil : settle read [] S = S := rfl

/-- The reader's side. -/
theorem settle_cons : settle read (m :: q) S = settle read q (announce read S m) := rfl

theorem settle_append (q' : List μ) : settle read (q ++ q') S = settle read q' (settle read q S) :=
  List.foldl_append ..

theorem announce_of_none (h : read m = none) : announce read S m = S := by
  rw [announce, h]

theorem announce_of_some {x : κ} {present : Bool} (h : read m = some (x, present)) (y : κ) :
    announce read S m y ↔ if y = x then present = true else S y := by
  rw [announce, h]
  change Function.update S x (present = true) y ↔ _
  rw [Function.update_apply]

/-- Messages about something else do not change the copy. -/
theorem settle_of_none (h : ∀ m ∈ q, read m = none) : settle read q S = S := by
  induction q generalizing S with
  | nil => rfl
  | cons m q ih =>
      rw [settle_cons, announce_of_none (h m (List.mem_cons_self ..))]
      exact ih fun m' hm' => h m' (List.mem_cons_of_mem _ hm')

/-- A message about something else, sent or not. -/
theorem settle_ite_of_none {p : Prop} [Decidable p] (h : p → read m = none) :
    settle read (if p then [m] else []) S = S := by
  split
  next hp => exact announce_of_none (h hp)
  · rfl

/-- One message. -/
theorem settle_singleton {x : κ} {present : Bool} (h : read m = some (x, present)) (y : κ) :
    settle read [m] S y ↔ if y = x then present = true else S y :=
  announce_of_some h y

/-- Part of the set is kept like the set itself, if the message puts nothing in that is not to be
in the part. -/
theorem settle_ite_and {p : Prop} [Decidable p] {Q : κ → Prop}
    (h : p → ∀ x, read m = some (x, true) → Q x) :
    settle read (if p then [m] else []) (fun x => S x ∧ Q x) =
      fun x => settle read (if p then [m] else []) S x ∧ Q x := by
  by_cases hp : p
  · rw [if_pos hp]
    cases hm : read m with
    | none => rw [settle_cons, settle_nil, announce_of_none hm, settle_cons, settle_nil,
        announce_of_none hm]
    | some e =>
        obtain ⟨x, present⟩ := e
        funext y
        rw [settle_singleton hm, settle_singleton hm]
        split
        next hy =>
          refine propext ⟨fun hpresent => ⟨hpresent, ?_⟩, And.left⟩
          exact hy ▸ h hp x (hpresent ▸ hm)
        · rfl
  · rw [if_neg hp]
    rfl

/-- A faithful mirror stays one when the writer announces `sent`, the reader
applies `got`, and nothing else changes the set or the copy. -/
theorem settle_step {sent got q' : List μ} {S' T' : κ → Prop} (hq : q ++ sent = got ++ q')
    (hT : T' = settle read sent T) (hS : S' = settle read got S) (h : settle read q S = T) :
    settle read q' S' = T' := by
  rw [hS, ← settle_append, ← hq, settle_append, h, hT]

end

end Mirror
