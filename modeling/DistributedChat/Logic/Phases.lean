import DistributedChat.Logic.Prog

/-!
# Programs that follow an automaton

Among other threads a program is known by the state alone between two of its
sections, and what matters is how far it has come.  `Follows δ Q p g` says that
the program, with its thread in phase `g`, goes through the phases of the
automaton `δ`: every section, from any state, is a transition of `δ`, and the
program ends in a phase that meets `Q`.  A property of threads is then a property
of the automaton, however long the program is.

The rules compose programs.  `Calm` is the common case of a program that stays in
its phase.
-/

universe u

namespace Prog

section

variable {σ ο α β : Type} {γ : Type u}

/-- Every section of the program is a transition of the automaton, and the
program ends in a phase that meets `Q`. -/
def Follows (δ : γ → σ → List ο → σ → γ → Prop) (Q : α → γ → Prop) : Prog σ ο α → γ → Prop
  | ret a, g => Q a g
  | ask k, g => ∀ s, ∃ g', δ g s [] s g' ∧ Follows δ Q (k s) g'
  | act upd emit k, g => ∀ s, ∃ g', δ g s (emit s) (upd s) g' ∧ Follows δ Q (k s) g'

/-- The program stays in its phase. -/
abbrev Calm (δ : γ → σ → List ο → σ → γ → Prop) (g : γ) (p : Prog σ ο α) : Prop :=
  p.Follows δ (fun _ g' => g' = g) g

variable {δ : γ → σ → List ο → σ → γ → Prop} {Q : α → γ → Prop} {g : γ} {p : Prog σ ο α}

/-- A thread that performs a section makes a transition. -/
theorem Follows.section {s : σ} {c : Section σ ο α} (h : p.Follows δ Q g)
    (hc : p.step? s = some c) : ∃ g', δ g s c.out c.state g' ∧ c.rest.Follows δ Q g' := by
  cases p with
  | ret a => cases hc
  | ask k =>
      cases hc
      exact h s
  | act upd emit k =>
      cases hc
      exact h s

/-- A program that has ended ended in the right phase. -/
theorem Follows.ended {s : σ} (h : p.Follows δ Q g) (hc : p.step? s = none) : ∃ a, Q a g := by
  cases p with
  | ret a => exact ⟨a, h⟩
  | ask k => cases hc
  | act upd emit k => cases hc

theorem Follows.mono {Q' : α → γ → Prop} (h : p.Follows δ Q g) (hQ : ∀ a g', Q a g' → Q' a g') :
    p.Follows δ Q' g := by
  induction p generalizing g with
  | ret a => exact hQ a g h
  | ask k ih =>
      intro s
      obtain ⟨g', hg', hk⟩ := h s
      exact ⟨g', hg', ih s hk⟩
  | act upd emit k ih =>
      intro s
      obtain ⟨g', hg', hk⟩ := h s
      exact ⟨g', hg', ih s hk⟩

theorem Follows.bind {R : β → γ → Prop} {q : α → Prog σ ο β}
    (h : p.Follows δ (fun a g' => (q a).Follows δ R g') g) : (p >>= q).Follows δ R g := by
  change (p.bind q).Follows δ R g
  induction p generalizing g with
  | ret a => exact h
  | ask k ih =>
      intro s
      obtain ⟨g', hg', hk⟩ := h s
      exact ⟨g', hg', ih s hk⟩
  | act upd emit k ih =>
      intro s
      obtain ⟨g', hg', hk⟩ := h s
      exact ⟨g', hg', ih s hk⟩

/-- An observation, and what follows it. -/
theorem follows_observe_bind {f : σ → α} {q : α → Prog σ ο β} {R : β → γ → Prop}
    (h : ∀ s, ∃ g', δ g s [] s g' ∧ (q (f s)).Follows δ R g') :
    ((observe f : Prog σ ο α) >>= q).Follows δ R g := h

/-- An update, and what follows it. -/
theorem follows_update_bind {f : σ → σ} {q : Unit → Prog σ ο β} {R : β → γ → Prop}
    (h : ∀ s, ∃ g', δ g s [] (f s) g' ∧ (q ()).Follows δ R g') :
    ((update f : Prog σ ο Unit) >>= q).Follows δ R g := h

theorem follows_update {f : σ → σ} {R : Unit → γ → Prop}
    (h : ∀ s, ∃ g', δ g s [] (f s) g' ∧ R () g') : (update f : Prog σ ο Unit).Follows δ R g := h

/-- A program that stays in its phase, and what follows it. -/
theorem Calm.then {R : β → γ → Prop} {q : α → Prog σ ο β} (hp : p.Calm δ g)
    (hq : ∀ a, (q a).Follows δ R g) : (p >>= q).Follows δ R g := by
  refine Follows.bind (hp.mono fun a g' hg => ?_)
  rw [hg]
  exact hq a

/-- A loop whose bodies stay in their phase stays in it. -/
theorem Calm.each {f : β → Prog σ ο Unit} {xs : List β} (h : ∀ x ∈ xs, (f x).Calm δ g) :
    (Prog.each xs f).Calm δ g := by
  induction xs with
  | nil => exact rfl
  | cons x xs ih =>
      exact Calm.then (h x (List.mem_cons_self ..))
        fun _ => ih fun y hy => h y (List.mem_cons_of_mem _ hy)

theorem Follows.ite {c : Prop} [Decidable c] {q : Prog σ ο α} (hp : c → p.Follows δ Q g)
    (hq : ¬ c → q.Follows δ Q g) : (if c then p else q).Follows δ Q g := by
  split
  next hc => exact hp hc
  next hc => exact hq hc

/-- A relation between phases and states that every transition preserves holds at the end of a
program run alone. -/
theorem Follows.run {I : γ → σ → Prop} (h : p.Follows δ Q g)
    (hstep : ∀ {g s out s' g'}, δ g s out s' g' → I g s → I g' s') {s : σ} (hI : I g s) :
    ∃ g', I g' (p.run s).state := by
  induction p generalizing g s with
  | ret a => exact ⟨g, hI⟩
  | ask k ih =>
      obtain ⟨g', hg', hk⟩ := h s
      exact ih s hk (hstep hg' hI)
  | act upd emit k ih =>
      obtain ⟨g', hg', hk⟩ := h s
      exact ih s hk (hstep hg' hI)

end

end Prog
