import Mathlib.Data.List.Forall2
import Mathlib.Data.List.Induction
import Mathlib.Tactic.Cases

/-!
# Runs of a labelled system

A system is given by `next`: in a state, an action is disabled or leads to one
state.  All nondeterminism is in the choice of actions, so a run is its start
and its list of actions.  `exec` performs a run, `Visits` names the states it
goes through, `Along` says that every action of it meets a condition in the
state where it is taken, and `Since` looks back from its end.

Three rules are proved once here and used for every system.  `exec_induct` is
the invariant rule, and `exec_weight` bounds the runs whose actions all lower a
weight.  `always_iff_along` characterises the runs that keep a property: it
needs an invariant that good actions keep and that a bad action destroys
visibly.
-/

universe u v w

section

variable {σ : Type u} {α : Type v} (next : σ → α → Option σ)

/-- Perform the actions of a run in order. -/
def exec : σ → List α → Option σ
  | s, [] => some s
  | s, a :: as => (next s a).bind fun s' => exec s' as

/-- Every action of a run meets `P` in the state where it is taken. -/
def Along (P : σ → α → Prop) : σ → List α → Prop
  | _, [] => True
  | s, a :: as => P s a ∧ ∀ s', next s a = some s' → Along P s' as

/-- The run from `s` by `as` goes through `t`. -/
def Visits (s : σ) (as : List α) (t : σ) : Prop :=
  ∃ pre post, as = pre ++ post ∧ exec next s pre = some t

end

section

variable {σ : Type u} {α : Type v} {next : σ → α → Option σ}

@[simp] theorem exec_nil (s : σ) : exec next s [] = some s := rfl

theorem exec_cons (s : σ) (a : α) (as : List α) :
    exec next s (a :: as) = (next s a).bind fun s' => exec next s' as := rfl

theorem exec_cons_eq_some {s t : σ} {a : α} {as : List α} :
    exec next s (a :: as) = some t ↔ ∃ s', next s a = some s' ∧ exec next s' as = some t := by
  rw [exec_cons, Option.bind_eq_some_iff]

/-- A run of a concatenation is a run of the parts. -/
theorem exec_append_eq_some {s t : σ} {as bs : List α} :
    exec next s (as ++ bs) = some t ↔
      ∃ u, exec next s as = some u ∧ exec next u bs = some t := by
  induction as generalizing s with
  | nil => simp
  | cons a as ih =>
      rw [List.cons_append, exec_cons_eq_some]
      constructor
      · rintro ⟨s', hs', h⟩
        obtain ⟨u, hu, hb⟩ := ih.mp h
        exact ⟨u, exec_cons_eq_some.mpr ⟨s', hs', hu⟩, hb⟩
      · rintro ⟨u, hu, hb⟩
        obtain ⟨s', hs', h⟩ := exec_cons_eq_some.mp hu
        exact ⟨s', hs', ih.mpr ⟨u, h, hb⟩⟩

theorem along_cons {P : σ → α → Prop} {s s' : σ} {a : α} {as : List α}
    (hn : next s a = some s') :
    Along next P s (a :: as) ↔ P s a ∧ Along next P s' as := by
  constructor
  · rintro ⟨h1, h2⟩
    exact ⟨h1, h2 s' hn⟩
  · rintro ⟨h1, h2⟩
    refine ⟨h1, fun t ht => ?_⟩
    rw [hn] at ht
    cases ht
    exact h2

/-- A condition along a concatenation is the condition along the parts. -/
theorem along_append {P : σ → α → Prop} {s u : σ} {as bs : List α}
    (hu : exec next s as = some u) :
    Along next P s (as ++ bs) ↔ Along next P s as ∧ Along next P u bs := by
  induction as generalizing s with
  | nil =>
      cases hu
      simp [Along]
  | cons a as ih =>
      obtain ⟨s', hs', h⟩ := exec_cons_eq_some.mp hu
      rw [List.cons_append, along_cons hs', along_cons hs', ih h, and_assoc]

theorem Along.mono {P Q : σ → α → Prop} (h : ∀ s a, P s a → Q s a) :
    ∀ {as : List α} {s : σ}, Along next P s as → Along next Q s as
  | [], _, _ => trivial
  | _ :: _, _, ⟨h1, h2⟩ => ⟨h _ _ h1, fun s' hs' => Along.mono h (h2 s' hs')⟩

theorem Along.and {P Q : σ → α → Prop} :
    ∀ {as : List α} {s : σ}, Along next P s as → Along next Q s as →
      Along next (fun s a => P s a ∧ Q s a) s as
  | [], _, _, _ => trivial
  | _ :: _, _, ⟨p1, p2⟩, ⟨q1, q2⟩ => ⟨⟨p1, q1⟩, fun s' hs' => (p2 s' hs').and (q2 s' hs')⟩

instance decidableAlong {P : σ → α → Prop} [∀ s a, Decidable (P s a)] :
    ∀ (s : σ) (as : List α), Decidable (Along next P s as)
  | _, [] => isTrue trivial
  | s, a :: as =>
      match h : next s a with
      | none => decidable_of_iff (P s a) ⟨fun hP => ⟨hP, fun s' hs' => by simp [h] at hs'⟩, And.left⟩
      | some s' =>
          have := decidableAlong (P := P) s' as
          decidable_of_iff (P s a ∧ Along next P s' as) (along_cons h).symm

/-- A condition on actions alone. -/
theorem along_of_forall {A : α → Prop} :
    ∀ {as : List α} {s : σ}, (∀ a ∈ as, A a) → Along next (fun _ a => A a) s as
  | [], _, _ => trivial
  | _ :: _, _, h =>
      ⟨h _ (List.mem_cons_self ..), fun _ _ =>
        along_of_forall fun a ha => h a (List.mem_cons_of_mem _ ha)⟩

/-- A condition holds along a run if it holds of each action after those before it. -/
theorem along_of_splits {P : σ → α → Prop} :
    ∀ {as : List α} {s : σ},
      (∀ pre a post u, as = pre ++ a :: post → exec next s pre = some u → P u a) →
        Along next P s as
  | [], _, _ => trivial
  | a :: as, s, h =>
      ⟨h [] a as s rfl rfl, fun _ hs' => along_of_splits fun pre b post u has hu =>
        h (a :: pre) b post u (has ▸ rfl) (exec_cons_eq_some.mpr ⟨_, hs', hu⟩)⟩

/-- The invariant rule: what every allowed action keeps holds at the end of a run. -/
theorem exec_induct {I : σ → Prop} {P : σ → α → Prop}
    (keep : ∀ {s a s'}, I s → P s a → next s a = some s' → I s') :
    ∀ {as : List α} {s t : σ}, I s → Along next P s as → exec next s as = some t → I t
  | [], _, _, hs, _, h => by
      cases h
      exact hs
  | _ :: _, _, _, hs, hP, h => by
      obtain ⟨s', hs', h'⟩ := exec_cons_eq_some.mp h
      obtain ⟨hPa, hPs⟩ := (along_cons hs').mp hP
      exact exec_induct keep (keep hs hPa hs') hPs h'

/-- What every action keeps holds at the end of a run. -/
theorem exec_invariant {I : σ → Prop} (keep : ∀ {s a s'}, I s → next s a = some s' → I s')
    {as : List α} {s t : σ} (hs : I s) (h : exec next s as = some t) : I t :=
  exec_induct (P := fun _ _ => True) (fun hI _ hn => keep hI hn) hs
    (along_of_forall fun _ _ => trivial) h

/-- A change of the state that every step keeps is kept by a run. -/
theorem exec_map {I : σ → Prop} {P : σ → α → Prop} {f : σ → σ}
    (keep : ∀ {s a s'}, I s → P s a → next s a = some s' → I s')
    (map : ∀ {s a s'}, I s → P s a → next s a = some s' → next (f s) a = some (f s')) :
    ∀ {as : List α} {s t : σ}, I s → Along next P s as → exec next s as = some t →
      exec next (f s) as = some (f t)
  | [], _, _, _, _, h => by
      cases h
      rfl
  | _ :: _, _, _, hs, hP, h => by
      obtain ⟨s', hs', h'⟩ := exec_cons_eq_some.mp h
      obtain ⟨hPa, hPs⟩ := (along_cons hs').mp hP
      exact exec_cons_eq_some.mpr
        ⟨f s', map hs hPa hs', exec_map keep map (keep hs hPa hs') hPs h'⟩

/-- The simulation rule: if every step of one system can be matched by a step of another with a
corresponding action, then so can every run that stays in states that meet `V`. -/
theorem exec_simulates {τ : Type u} {β : Type v} {next' : τ → β → Option τ} {R : σ → τ → Prop}
    {A : α → β → Prop} {V : σ → Prop}
    (step : ∀ {s t a b s'}, R s t → V s → A a b → next s a = some s' →
      ∃ t', next' t b = some t' ∧ R s' t') {as : List α} {bs : List β}
    (hA : List.Forall₂ A as bs) {s s' : σ} {t : τ} (hst : R s t)
    (hV : ∀ u, Visits next s as u → V u) (h : exec next s as = some s') :
    ∃ t', exec next' t bs = some t' ∧ R s' t' := by
  induction hA generalizing s t with
  | nil =>
      cases h
      exact ⟨t, rfl, hst⟩
  | @cons a b as bs ha _ ih =>
      obtain ⟨u, hu, hrest⟩ := exec_cons_eq_some.mp h
      obtain ⟨v, hv, huv⟩ := step hst (hV s ⟨[], a :: as, rfl, rfl⟩) ha hu
      have hVu : ∀ w, Visits next u as w → V w := by
        rintro w ⟨pre, post, rfl, hpre⟩
        exact hV w ⟨a :: pre, post, rfl, exec_cons_eq_some.mpr ⟨u, hu, hpre⟩⟩
      obtain ⟨t', ht', hrel⟩ := ih huv hVu hrest
      exact ⟨t', exec_cons_eq_some.mpr ⟨v, hv, ht'⟩, hrel⟩

/-- A function that takes the steps of one system to those of another takes its runs to runs. -/
theorem exec_project {τ : Type u} {next' : τ → α → Option τ} {f : σ → τ}
    (h : ∀ s a, (next s a).map f = next' (f s) a) (s : σ) (as : List α) :
    (exec next s as).map f = exec next' (f s) as := by
  induction as generalizing s with
  | nil => rfl
  | cons a as ih =>
      rw [exec_cons, exec_cons, ← h s a]
      cases next s a with
      | none => rfl
      | some s' => exact ih s'

/-- Actions that are actions of another system too have the same runs there. -/
theorem exec_embed {β : Type w} {next' : σ → β → Option σ} {f : α → β}
    (h : ∀ s a, next' s (f a) = next s a) (s : σ) (as : List α) :
    exec next' s (as.map f) = exec next s as := by
  induction as generalizing s with
  | nil => rfl
  | cons a as ih =>
      rw [List.map_cons, exec_cons, exec_cons, h s a]
      exact congrArg (Option.bind (next s a)) (funext ih)

/-- A condition that an invariant and another condition imply. -/
theorem Along.of_invariant {I : σ → Prop} {P Q : σ → α → Prop}
    (keep : ∀ {s a s'}, I s → P s a → next s a = some s' → I s')
    (imp : ∀ {s a}, I s → P s a → Q s a) :
    ∀ {as : List α} {s : σ}, I s → Along next P s as → Along next Q s as
  | [], _, _, _ => trivial
  | _ :: _, _, hs, ⟨h1, h2⟩ =>
      ⟨imp hs h1, fun s' hs' => Along.of_invariant keep imp (keep hs h1 hs') (h2 s' hs')⟩

/-- Along a run, a condition may use that each action takes place. -/
theorem Along.of_taken {I : σ → Prop} {P Q : σ → α → Prop}
    (keep : ∀ {s a s'}, I s → next s a = some s' → I s')
    (imp : ∀ {s a s'}, I s → next s a = some s' → P s a → Q s a) :
    ∀ {as : List α} {s t : σ}, I s → exec next s as = some t → Along next P s as →
      Along next Q s as
  | [], _, _, _, _, _ => trivial
  | _ :: _, _, _, hs, h, hP => by
      obtain ⟨s', hs', h'⟩ := exec_cons_eq_some.mp h
      obtain ⟨hPa, hPs⟩ := (along_cons hs').mp hP
      exact (along_cons hs').mpr
        ⟨imp hs hs' hPa, Along.of_taken keep imp (keep hs hs') h' hPs⟩

/-- The invariant rule for an invariant that speaks about the actions so far. -/
theorem exec_induct_trace {s₀ : σ} {I : List α → σ → Prop} {P : σ → α → Prop}
    (keep : ∀ {pre s a s'}, exec next s₀ pre = some s → I pre s → P s a →
      next s a = some s' → I (pre ++ [a]) s') (hinit : I [] s₀) {as : List α} {t : σ}
    (hP : Along next P s₀ as) (h : exec next s₀ as = some t) : I as t := by
  induction as using List.reverseRecOn generalizing t with
  | nil =>
      cases h
      exact hinit
  | append_singleton as a ih =>
      obtain ⟨u, hu, ha⟩ := exec_append_eq_some.mp h
      obtain ⟨t', ht', hnil⟩ := exec_cons_eq_some.mp ha
      cases hnil
      obtain ⟨hpre, hlast⟩ := (along_append hu).mp hP
      exact keep hu (ih hpre hu) ((along_cons ht').mp hlast).1 ht'

/-! ## Visited states -/

theorem Visits.refl (s : σ) (as : List α) : Visits next s as s := ⟨[], as, rfl, rfl⟩

theorem Visits.last {s t : σ} {as : List α} (h : exec next s as = some t) :
    Visits next s as t := ⟨as, [], (List.append_nil as).symm, h⟩

theorem visits_nil {s t : σ} : Visits next s ([] : List α) t ↔ t = s := by
  constructor
  · rintro ⟨pre, post, h, ht⟩
    obtain ⟨rfl, rfl⟩ := List.append_eq_nil_iff.mp h.symm
    cases ht
    rfl
  · rintro rfl
    exact .refl t []

theorem visits_cons {s s' t : σ} {a : α} {as : List α} (hn : next s a = some s') :
    Visits next s (a :: as) t ↔ t = s ∨ Visits next s' as t := by
  constructor
  · rintro ⟨pre, post, h, ht⟩
    cases pre with
    | nil =>
        cases ht
        exact Or.inl rfl
    | cons b pre =>
        rw [List.cons_append, List.cons.injEq] at h
        obtain ⟨rfl, rfl⟩ := h
        obtain ⟨u, hu, hpre⟩ := exec_cons_eq_some.mp ht
        rw [hn] at hu
        cases hu
        exact Or.inr ⟨pre, post, rfl, hpre⟩
  · rintro (rfl | ⟨pre, post, rfl, ht⟩)
    · exact .refl t _
    · exact ⟨a :: pre, post, rfl, exec_cons_eq_some.mpr ⟨s', hn, ht⟩⟩

/-- The invariant rule for every state on the way. -/
theorem visits_induct {I : σ → Prop} {P : σ → α → Prop}
    (keep : ∀ {s a s'}, I s → P s a → next s a = some s' → I s')
    {as : List α} {s t u : σ} (hs : I s) (hP : Along next P s as)
    (h : exec next s as = some t) (hu : Visits next s as u) : I u := by
  obtain ⟨pre, post, rfl, hpre⟩ := hu
  exact exec_induct keep hs ((along_append hpre).mp hP).1 hpre

/-- The state a run ends in. -/
theorem exec_append_singleton {s t t' : σ} {a : α} {as : List α} (h : exec next s as = some t)
    (hn : next t a = some t') : exec next s (as ++ [a]) = some t' :=
  exec_append_eq_some.mpr ⟨t, h, exec_cons_eq_some.mpr ⟨t', hn, rfl⟩⟩

/-- One more action takes a run to one more state. -/
theorem visits_append_singleton {s t t' u : σ} {a : α} {as : List α} (h : exec next s as = some t)
    (hn : next t a = some t') : Visits next s (as ++ [a]) u ↔ Visits next s as u ∨ u = t' := by
  have hlast := exec_append_singleton h hn
  constructor
  · rintro ⟨pre, post, hsplit, hpre⟩
    rcases List.eq_nil_or_concat post with rfl | ⟨post, b, rfl⟩
    · rw [List.append_nil] at hsplit
      subst hsplit
      exact Or.inr (Option.some.inj (hpre.symm.trans hlast))
    · rw [List.concat_eq_append, ← List.append_assoc] at hsplit
      exact Or.inl ⟨pre, post, (List.append_inj' hsplit rfl).1, hpre⟩
  · rintro (⟨pre, post, rfl, hpre⟩ | rfl)
    · exact ⟨pre, post ++ [a], List.append_assoc .., hpre⟩
    · exact .last hlast

/-! ## What has been so since -/

/-- At some state of the run `P` held, and `K` has held from then on. -/
def Since (next : σ → α → Option σ) (K P : σ → Prop) (s : σ) (as : List α) : Prop :=
  ∃ pre post t, as = pre ++ post ∧ exec next s pre = some t ∧ P t ∧
    ∀ u, Visits next t post u → K u

/-- What has held since then holds at the end. -/
theorem Since.last {K P : σ → Prop} {s t : σ} {as : List α} (h : Since next K P s as)
    (ht : exec next s as = some t) : K t := by
  obtain ⟨pre, post, u, rfl, hpre, -, hK⟩ := h
  obtain ⟨u', hu', hpost⟩ := exec_append_eq_some.mp ht
  rw [hpre] at hu'
  cases hu'
  exact hK t (.last hpost)

theorem Since.of_last {K P : σ → Prop} {s t : σ} {as : List α} (h : exec next s as = some t)
    (hK : K t) (hP : P t) : Since next K P s as :=
  ⟨as, [], t, (List.append_nil as).symm, h, hP, fun _ hu => visits_nil.mp hu ▸ hK⟩

/-- One more action. -/
theorem since_append_singleton {K P : σ → Prop} {s t t' : σ} {a : α} {as : List α}
    (h : exec next s as = some t) (hn : next t a = some t') :
    Since next K P s (as ++ [a]) ↔ K t' ∧ (Since next K P s as ∨ P t') := by
  have hlast := exec_append_singleton h hn
  constructor
  · intro hsince
    refine ⟨hsince.last hlast, ?_⟩
    obtain ⟨pre, post, u, hsplit, hpre, hP, hK⟩ := hsince
    rcases List.eq_nil_or_concat post with rfl | ⟨post, b, rfl⟩
    · rw [List.append_nil] at hsplit
      subst hsplit
      rw [hpre] at hlast
      exact Or.inr (Option.some.inj hlast ▸ hP)
    · rw [List.concat_eq_append, ← List.append_assoc] at hsplit
      refine Or.inl ⟨pre, post, u, (List.append_inj' hsplit rfl).1, hpre, hP, ?_⟩
      rintro v ⟨pre', post', rfl, hv⟩
      exact hK v ⟨pre', post' ++ [b], by simp, hv⟩
  · rintro ⟨hK', hsince | hP⟩
    · obtain ⟨pre, post, u, rfl, hpre, hP, hK⟩ := hsince
      obtain ⟨u', hu', hpost⟩ := exec_append_eq_some.mp h
      rw [hpre] at hu'
      cases hu'
      refine ⟨pre, post ++ [a], u, List.append_assoc .., hpre, hP, fun v hv => ?_⟩
      rcases (visits_append_singleton hpost hn).mp hv with hv | rfl
      · exact hK v hv
      · exact hK'
    · exact .of_last hlast hK' hP

/-- Conditions that agree in the states of the run. -/
theorem since_congr {K P Q : σ → Prop} {s : σ} {as : List α}
    (h : ∀ u, Visits next s as u → (P u ↔ Q u)) : Since next K P s as ↔ Since next K Q s as := by
  refine exists_congr fun pre => exists_congr fun post => exists_congr fun t => ?_
  refine and_congr_right fun hsplit => and_congr_right fun hpre => and_congr_left fun _ => ?_
  exact h t ⟨pre, post, hsplit, hpre⟩

/-! ## The exact condition for a property to hold all along a run -/

/-- Suppose `I` gives `Good`, good actions keep `I`, and an action that is not
good leaves a state that is not `Good`.  Then a run keeps `Good` in every state
exactly when all its actions are good.  `A` is what the runs in question assume. -/
theorem always_iff_along {I Good : σ → Prop} {A P : σ → α → Prop}
    (sound : ∀ {s}, I s → Good s)
    (keep : ∀ {s a s'}, I s → A s a → P s a → next s a = some s' → I s')
    (bad : ∀ {s a s'}, I s → A s a → ¬ P s a → next s a = some s' → ¬ Good s') :
    ∀ {as : List α} {s t : σ}, I s → Along next A s as → exec next s as = some t →
      ((∀ u, Visits next s as u → Good u) ↔ Along next P s as)
  | [], s, t, hs, _, _ => by
      refine ⟨fun _ => trivial, fun _ u hu => ?_⟩
      rw [visits_nil] at hu
      exact hu ▸ sound hs
  | a :: as, s, t, hs, hA, h => by
      obtain ⟨s', hs', h'⟩ := exec_cons_eq_some.mp h
      obtain ⟨hAa, hAs⟩ := (along_cons hs').mp hA
      rw [along_cons hs']
      constructor
      · intro hall
        have hgood : Good s' := hall s' ((visits_cons hs').mpr (Or.inr (.refl s' as)))
        have hP : P s a := by
          by_contra hP
          exact bad hs hAa hP hs' hgood
        refine ⟨hP, (always_iff_along sound keep bad (keep hs hAa hP hs') hAs h').mp ?_⟩
        intro u hu
        exact hall u ((visits_cons hs').mpr (Or.inr hu))
      · intro hP u hu
        obtain ⟨hPa, hPs⟩ := hP
        cases (visits_cons hs').mp hu with
        | inl hu => exact hu ▸ sound hs
        | inr hu =>
            exact (always_iff_along sound keep bad (keep hs hAa hPa hs') hAs h').mpr hPs u hu

/-- If `Q` survives exactly the good actions, and never comes back, then it is there at the end of
a run exactly if it was at the start and all actions were good.  `I` is an invariant, and `A` what
the runs in question assume. -/
theorem iff_and_along {I Q : σ → Prop} {A P : σ → α → Prop}
    (keep : ∀ {s a s'}, I s → A s a → next s a = some s' → I s')
    (step : ∀ {s a s'}, I s → A s a → next s a = some s' → (Q s' ↔ Q s ∧ P s a)) :
    ∀ {as : List α} {s t : σ}, I s → Along next A s as → exec next s as = some t →
      (Q t ↔ Q s ∧ Along next P s as)
  | [], _, _, _, _, h => by
      cases h
      exact (and_iff_left trivial).symm
  | _ :: _, _, _, hs, hA, h => by
      obtain ⟨s', hs', h'⟩ := exec_cons_eq_some.mp h
      obtain ⟨hAa, hAs⟩ := (along_cons hs').mp hA
      rw [iff_and_along keep step (keep hs hAa hs') hAs h', step hs hAa hs', along_cons hs',
        and_assoc]

end
