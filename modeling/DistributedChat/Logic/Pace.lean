import Mathlib.Data.List.Chain

/-!
# Signals at a pace

A sender gives a signal at least once in a period, and every signal is heard
within a delay.  A receiver that waits longer than the two together is never kept
waiting too long.  What is known at a time is the time of the last signal given,
the times of those on their way, oldest first, and the time one was last heard.

`upcoming` are the times of the signals on their way, and after them the latest
time for the next one.  No two of them are more than a period apart, and the first
one will be heard in time (`Paced`).  This is kept when time passes, when a signal
is given and when one is heard, and so the receiver never gives up (`Paced.lt`).
-/

/-- The period of the signals, the delay and the time a receiver waits. -/
structure Pace where
  period : Nat
  delay : Nat
  patience : Nat
  enough : period + delay < patience

namespace Pace

variable (r : Pace)

/-- The times of the signals on their way and the latest time for the next one. -/
def upcoming (last : Nat) (flying : List Nat) : List Nat := flying ++ [last + r.period]

/-- What is known of one sender and one receiver. -/
structure Paced (now last : Nat) (flying : List Nat) (heard : Nat) : Prop where
  heard_le : heard ≤ now
  flying_le : ∀ t ∈ flying, t ≤ now
  /-- The sender and the signals are in time. -/
  punctual : now ≤ last + r.period ∧ ∀ t ∈ flying, now ≤ t + r.delay
  gaps : (r.upcoming last flying).IsChain fun t t' => t' ≤ t + r.period
  due : ∀ t ∈ (r.upcoming last flying).head?, t + r.delay < heard + r.patience

variable {r} {now now' last heard t : Nat} {flying : List Nat}

/-- At the start nothing is on its way. -/
theorem paced_nil (hheard : heard ≤ now) (hlast : now ≤ last + r.period)
    (hdue : last + r.period + r.delay < heard + r.patience) : r.Paced now last [] heard where
  heard_le := hheard
  flying_le := fun _ ht => absurd ht List.not_mem_nil
  punctual := ⟨hlast, fun _ ht => absurd ht List.not_mem_nil⟩
  gaps := by simp [upcoming]
  due := by simpa [upcoming] using hdue

/-- The receiver has heard of the sender lately. -/
theorem Paced.lt (h : r.Paced now last flying heard) : now < heard + r.patience := by
  have hdue := h.due
  have hpunctual := h.punctual
  cases flying with
  | nil =>
      have := hdue (last + r.period) (by simp [upcoming])
      omega
  | cons t flying =>
      have := hdue t (by simp [upcoming])
      have := hpunctual.2 t (List.mem_cons_self ..)
      omega

/-- Time passes, and nobody is late. -/
theorem Paced.wait (h : r.Paced now last flying heard) (hle : now ≤ now')
    (hlast : now' ≤ last + r.period) (hflying : ∀ t ∈ flying, now' ≤ t + r.delay) :
    r.Paced now' last flying heard where
  heard_le := h.heard_le.trans hle
  flying_le := fun t ht => (h.flying_le t ht).trans hle
  punctual := ⟨hlast, hflying⟩
  gaps := h.gaps
  due := h.due

/-- A signal is given. -/
theorem Paced.give (h : r.Paced now last flying heard) :
    r.Paced now now (flying ++ [now]) heard where
  heard_le := h.heard_le
  flying_le := by
    intro t ht
    rcases List.mem_append.mp ht with ht | ht
    · exact h.flying_le t ht
    · exact Nat.le_of_eq (List.mem_singleton.mp ht)
  punctual := by
    refine ⟨Nat.le_add_right .., fun t ht => ?_⟩
    rcases List.mem_append.mp ht with ht | ht
    · exact h.punctual.2 t ht
    · rw [List.mem_singleton.mp ht]
      exact Nat.le_add_right ..
  gaps := by
    have hgaps := h.gaps
    rw [upcoming, List.isChain_append] at hgaps ⊢
    obtain ⟨hflying, -, hlast⟩ := hgaps
    refine ⟨List.isChain_append.mpr ⟨hflying, List.isChain_singleton _, ?_⟩,
      List.isChain_singleton _, ?_⟩
    · -- the signal is given before the latest time for it
      intro t ht t' ht'
      have hnext := hlast t ht (last + r.period) (by simp)
      have hnow : now = t' := by simpa using ht'
      have := h.punctual.1
      omega
    · intro t ht t' ht'
      have hnow : now = t := by simpa using ht
      have hnext : now + r.period = t' := by simpa using ht'
      omega
  due := by
    have hdue := h.due
    intro t ht
    cases flying with
    | nil =>
        have hnext := hdue (last + r.period) (by simp [upcoming])
        have hnow : now = t := by simpa [upcoming] using ht
        have := h.punctual.1
        omega
    | cons t' flying => exact hdue t (by simpa [upcoming] using ht)

/-- The first signal on its way is heard. -/
theorem Paced.hear (h : r.Paced now last (t :: flying) heard) : r.Paced now last flying now where
  heard_le := Nat.le_refl _
  flying_le := fun t' ht' => h.flying_le t' (List.mem_cons_of_mem _ ht')
  punctual := ⟨h.punctual.1, fun t' ht' => h.punctual.2 t' (List.mem_cons_of_mem _ ht')⟩
  gaps := h.gaps.tail
  due := by
    intro t' ht'
    have hgap : t' ≤ t + r.period := h.gaps.rel_head? ht'
    have hpast := h.flying_le t (List.mem_cons_self ..)
    have := r.enough
    omega

/-- The receiver hears of the sender in another way. -/
theorem Paced.refresh (h : r.Paced now last flying heard) : r.Paced now last flying now where
  heard_le := Nat.le_refl _
  flying_le := h.flying_le
  punctual := h.punctual
  gaps := h.gaps
  due := by
    intro t ht
    have := h.due t ht
    have := h.heard_le
    omega

end Pace
