import DistributedChat.Logic.Runs

/-!
# Traces without end

What must happen is said of traces that go on for ever.  At each time a trace
takes an action or rests.  `LeadsTo P Q` says that whenever `P` holds `Q` holds
then or later.  It comes from fairness: if a thread that stays ready acts in the
end, and its action brings about `Q`, then whatever keeps it ready leads to `Q`
(`leadsTo_of_fair`).  Such steps are chained, and repeated along a measure
(`leadsTo_of_measure`).
-/

universe u v

section

variable {σ : Type u} {α : Type v} {next : σ → α → Option σ}

/-- What happens to a system for ever. -/
structure Trace (next : σ → α → Option σ) where
  state : Nat → σ
  /-- The action taken at a time, if any. -/
  act : Nat → Option α
  step : ∀ k, match act k with
    | none => state (k + 1) = state k
    | some a => next (state k) a = some (state (k + 1))

namespace Trace

variable (T : Trace next)

/-- Whenever `P` holds, `Q` holds then or later. -/
def LeadsTo (P Q : σ → Prop) : Prop := ∀ k, P (T.state k) → ∃ m, k ≤ m ∧ Q (T.state m)

/-- Who stays ready acts. -/
def Fair (ready : σ → Prop) (acts : α → Prop) : Prop :=
  ∀ k, (∀ m, k ≤ m → ready (T.state m)) → ∃ m a, k ≤ m ∧ T.act m = some a ∧ acts a

variable {T} {P Q R : σ → Prop}

/-- What every action keeps holds from some time on. -/
theorem always_from {k : Nat} (keep : ∀ m, k ≤ m → P (T.state m) → ∀ a,
    T.act m = some a → next (T.state m) a = some (T.state (m + 1)) → P (T.state (m + 1)))
    (hk : P (T.state k)) {m : Nat} (hm : k ≤ m) : P (T.state m) := by
  induction hm with
  | refl => exact hk
  | @step m hm ih =>
      have hstep := T.step m
      cases ha : T.act m with
      | none =>
          rw [ha] at hstep
          exact hstep ▸ ih
      | some a =>
          rw [ha] at hstep
          exact keep m hm ih a ha hstep

/-- The invariant rule. -/
theorem always {I : σ → Prop} (keep : ∀ {s a s'}, I s → next s a = some s' → I s')
    (h₀ : I (T.state 0)) (k : Nat) : I (T.state k) :=
  always_from (fun _ _ hI _ _ hn => keep hI hn) h₀ (Nat.zero_le k)

theorem LeadsTo.of_imp (h : ∀ k, P (T.state k) → Q (T.state k)) : T.LeadsTo P Q :=
  fun k hP => ⟨k, Nat.le_refl k, h k hP⟩

theorem LeadsTo.trans (hPQ : T.LeadsTo P Q) (hQR : T.LeadsTo Q R) : T.LeadsTo P R := by
  intro k hP
  obtain ⟨m, hkm, hQ⟩ := hPQ k hP
  obtain ⟨l, hml, hR⟩ := hQR m hQ
  exact ⟨l, Nat.le_trans hkm hml, hR⟩

theorem LeadsTo.or (hP : T.LeadsTo P R) (hQ : T.LeadsTo Q R) :
    T.LeadsTo (fun s => P s ∨ Q s) R := by
  intro k h
  rcases h with h | h
  · exact hP k h
  · exact hQ k h

theorem LeadsTo.exists {ι : Type*} {P : ι → σ → Prop} (h : ∀ i, T.LeadsTo (P i) Q) :
    T.LeadsTo (fun s => ∃ i, P i s) Q :=
  fun k ⟨i, hP⟩ => h i k hP

/-- What keeps a thread ready until `Q` leads to `Q`, if the thread's own action does. -/
theorem leadsTo_of_fair {ready : σ → Prop} {acts : α → Prop} (hfair : T.Fair ready acts)
    (hready : ∀ k, P (T.state k) → ready (T.state k))
    (hkeep : ∀ k a, next (T.state k) a = some (T.state (k + 1)) → P (T.state k) →
      P (T.state (k + 1)) ∨ Q (T.state (k + 1)))
    (hacts : ∀ k a, next (T.state k) a = some (T.state (k + 1)) → acts a → P (T.state k) →
      Q (T.state (k + 1))) : T.LeadsTo P Q := by
  intro k hP
  by_contra hnever
  have hnot : ∀ m, k ≤ m → ¬ Q (T.state m) := fun m hm hQ => hnever ⟨m, hm, hQ⟩
  have hstays : ∀ m, k ≤ m → P (T.state m) := fun m hm =>
    always_from (fun l hl hPl a _ hn => (hkeep l a hn hPl).resolve_right
      (hnot (l + 1) (Nat.le_succ_of_le hl))) hP hm
  obtain ⟨m, a, hm, ha, hact⟩ := hfair k fun m hm => hready m (hstays m hm)
  have hn := T.step m
  rw [ha] at hn
  exact hnot (m + 1) (Nat.le_succ_of_le hm) (hacts m a hn hact (hstays m hm))

/-- Leading to less of a measure again and again. -/
theorem leadsTo_of_measure (f : σ → Nat)
    (h : ∀ n, T.LeadsTo (fun s => P s ∧ f s = n) fun s => P s ∧ f s < n ∨ Q s) :
    T.LeadsTo P Q := by
  intro k hP
  generalize hn : f (T.state k) = n
  induction n using Nat.strongRecOn generalizing k with
  | _ n ih =>
      obtain ⟨m, hkm, hm⟩ := h n k ⟨hP, hn⟩
      rcases hm with ⟨hPm, hlt⟩ | hQ
      · obtain ⟨l, hml, hQ⟩ := ih _ hlt m hPm rfl
        exact ⟨l, Nat.le_trans hkm hml, hQ⟩
      · exact ⟨m, hkm, hQ⟩

/-- A run that rests when it is at its end. -/
def ofRun {s t : σ} (as : List α) (h : exec next s as = some t) : Trace next where
  state := fun k => (exec next s (as.take k)).getD s
  act := fun k => as[k]?
  step := by
    intro k
    cases ha : as[k]? with
    | none =>
        have hlen := List.getElem?_eq_none_iff.mp ha
        show (exec next s (as.take (k + 1))).getD s = (exec next s (as.take k)).getD s
        rw [List.take_of_length_le hlen, List.take_of_length_le (Nat.le_succ_of_le hlen)]
    | some a =>
        have htake : as.take (k + 1) = as.take k ++ [a] := by
          rw [List.take_add_one, ha, Option.toList_some]
        have hsplit : as = as.take (k + 1) ++ as.drop (k + 1) := (List.take_append_drop ..).symm
        rw [hsplit] at h
        obtain ⟨u, hu, -⟩ := exec_append_eq_some.mp h
        have hu' := hu
        rw [htake] at hu'
        obtain ⟨w, hw, hlast⟩ := exec_append_eq_some.mp hu'
        obtain ⟨u', hn, hnil⟩ := exec_cons_eq_some.mp hlast
        cases hnil
        show next ((exec next s (as.take k)).getD s) a = some ((exec next s (as.take (k + 1))).getD s)
        rw [hu, hw]
        exact hn

theorem state_ofRun {s t : σ} {as : List α} (h : exec next s as = some t) {k : Nat}
    (hk : as.length ≤ k) : (ofRun as h).state k = t := by
  show (exec next s (as.take k)).getD s = t
  rw [List.take_of_length_le hk, h]
  rfl

/-- Who is not ready at the end of the run has nothing to do. -/
theorem fair_ofRun {s t : σ} {as : List α} (h : exec next s as = some t) {ready : σ → Prop}
    {acts : α → Prop} (hend : ¬ ready t) : (ofRun as h).Fair ready acts := by
  intro k hready
  have hlast := hready (max k as.length) (Nat.le_max_left ..)
  rw [state_ofRun h (Nat.le_max_right ..)] at hlast
  exact absurd hlast hend

end Trace

end
