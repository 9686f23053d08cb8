import Mathlib.Data.List.Basic
import Mathlib.Tactic.Cases

/-!
# Readers of a stream

A stream is known by its *content*, the symbols it has still to give.  How it
gives them, in which pieces and with what pauses, is the business of its states;
it may also break off, and a state is *fluent* if it will not.  A reader takes
a word off the stream or fails.

`Reads` is the one law for success: off every fluent stream that starts with the
word the reader takes exactly the word.  `Consumes` is the law for soundness:
whatever the reader takes is the word of what it returns.  Both pass to the
repetition of a reader, so reading one frame decides the reading of a sequence
of frames.
-/

universe u v w

/-- A type of streams. -/
structure Source (σ : Type u) (α : Type v) where
  /-- What the stream has still to give. -/
  content : σ → List α
  /-- The stream does not break off. -/
  Fluent : σ → Prop

namespace Source

variable {σ : Type u} {α : Type v} {β γ : Type u} (S : Source σ α)

/-- The reader takes the word off every fluent stream and returns the value. -/
def Reads (m : StateT σ Option γ) (word : List α) (x : γ) : Prop :=
  ∀ s rest, S.Fluent s → S.content s = word ++ rest →
    ∃ s', m.run s = some (x, s') ∧ S.content s' = rest ∧ S.Fluent s'

/-- What the reader takes is the word of what it returns. -/
def Consumes (m : StateT σ Option γ) (word : γ → List α) : Prop :=
  ∀ s x s', m.run s = some (x, s') → S.content s = word x ++ S.content s'

/-- Read a number of words. -/
def many (m : StateT σ Option γ) : Nat → StateT σ Option (List γ)
  | 0 => pure []
  | n + 1 => do
      let x ← m
      let xs ← many m n
      pure (x :: xs)

variable {S} {m : StateT σ Option β} {k : β → StateT σ Option γ}

theorem Reads.pure (x : γ) : S.Reads (pure x) [] x :=
  fun s _ hs hrest => ⟨s, rfl, hrest, hs⟩

theorem Reads.bind {word word' : List α} {x : β} {y : γ} (hm : S.Reads m word x)
    (hk : S.Reads (k x) word' y) : S.Reads (m >>= k) (word ++ word') y := by
  intro s rest hs hc
  obtain ⟨s₁, hrun₁, hc₁, hs₁⟩ := hm s (word' ++ rest) hs (by rw [hc, List.append_assoc])
  obtain ⟨s₂, hrun₂, hc₂, hs₂⟩ := hk s₁ rest hs₁ hc₁
  refine ⟨s₂, ?_, hc₂, hs₂⟩
  rw [StateT.run_bind, hrun₁]
  exact hrun₂

theorem Reads.map {word : List α} {x : β} (h : S.Reads m word x) (f : β → γ) :
    S.Reads (m >>= fun x => Pure.pure (f x)) word (f x) := by
  rw [← List.append_nil word]
  exact h.bind (Reads.pure (f x))

/-- The words of a list of values are read one after the other. -/
theorem Reads.many {m : StateT σ Option γ} {word : γ → List α} {xs : List γ}
    (h : ∀ x ∈ xs, S.Reads m (word x) x) :
    S.Reads (many m xs.length) (xs.flatMap word) xs := by
  induction xs with
  | nil => exact Reads.pure []
  | cons x xs ih =>
      have hhead := h x (List.mem_cons_self ..)
      have htail := ih fun y hy => h y (List.mem_cons_of_mem _ hy)
      rw [List.flatMap_cons]
      exact hhead.bind (htail.map fun xs => x :: xs)

theorem run_bind_eq_some {s s' : σ} {y : γ} :
    (m >>= k).run s = some (y, s') ↔
      ∃ x s₁, m.run s = some (x, s₁) ∧ (k x).run s₁ = some (y, s') := by
  rw [StateT.run_bind]
  constructor
  · intro h
    obtain ⟨⟨x, s₁⟩, hm, hk⟩ := Option.bind_eq_some_iff.mp h
    exact ⟨x, s₁, hm, hk⟩
  · rintro ⟨x, s₁, hm, hk⟩
    exact Option.bind_eq_some_iff.mpr ⟨(x, s₁), hm, hk⟩

end Source
