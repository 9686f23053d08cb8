import DistributedChat.Logic.Pool
import Mathlib.Data.List.Forall2
import Mathlib.Data.Option.Basic

/-!
# Programs that differ in what they emit

Two programs are *alike* if section for section they update the state in the same
way and emit outputs that correspond.  The values a section observes may steer the
rest of the program, but the same way in both.  So what tells the two programs
apart, such as an argument they were given, has no influence on the state, and it
goes nowhere but where corresponding outputs may differ.

`Alike I R` may rely on an invariant `I` of the states in which sections take
place.  If all programs of two pools are alike, then whatever the threads of one
pool do, those of the other can do too, and the pools stay alike
(`Pool.Alike.advance` and the lemmas beside it).
-/

namespace Prog

section

variable {σ ο α β : Type}

/-- In states that meet `I` the programs do the same, up to outputs that correspond. -/
def Alike (I : σ → Prop) (R : ο → ο → Prop) : Prog σ ο α → Prog σ ο α → Prop
  | ret a, ret a' => a = a'
  | ask k, ask k' => ∀ s, I s → Alike I R (k s) (k' s)
  | act upd emit k, act upd' emit' k' => ∀ s, I s →
      upd s = upd' s ∧ List.Forall₂ R (emit s) (emit' s) ∧ Alike I R (k s) (k' s)
  | _, _ => False

variable {I : σ → Prop} {R : ο → ο → Prop} {p p' : Prog σ ο α}

/-- A program is like itself. -/
theorem Alike.refl (hR : ∀ e, R e e) (p : Prog σ ο α) : p.Alike I R p := by
  induction p with
  | ret a => exact rfl
  | ask k ih => exact fun s _ => ih s
  | act upd emit k ih => exact fun s _ => ⟨rfl, List.forall₂_same.mpr fun e _ => hR e, ih s⟩

theorem Alike.bind {q q' : α → Prog σ ο β} (hp : p.Alike I R p')
    (hq : ∀ a, (q a).Alike I R (q' a)) : (p >>= q).Alike I R (p' >>= q') := by
  change (p.bind q).Alike I R (p'.bind q')
  induction p generalizing p' with
  | ret a =>
      cases p' with
      | ret a' =>
          cases hp
          exact hq a
      | ask _ => cases hp
      | act _ _ _ => cases hp
  | ask k ih =>
      cases p' with
      | ask k' => exact fun s hs => ih s (hp s hs)
      | ret _ => cases hp
      | act _ _ _ => cases hp
  | act upd emit k ih =>
      cases p' with
      | act upd' emit' k' =>
          intro s hs
          obtain ⟨hupd, hout, hk⟩ := hp s hs
          exact ⟨hupd, hout, ih s hk⟩
      | ret _ => cases hp
      | ask _ => cases hp

/-- Both programs observe the same value, of a state that meets the invariant. -/
theorem alike_observe_bind {f : σ → α} {q q' : α → Prog σ ο β}
    (h : ∀ s, I s → (q (f s)).Alike I R (q' (f s))) :
    ((observe f : Prog σ ο α) >>= q).Alike I R (observe f >>= q') := h

theorem Alike.each {f f' : β → Prog σ ο Unit} {xs : List β}
    (h : ∀ x ∈ xs, (f x).Alike I R (f' x)) : (Prog.each xs f).Alike I R (Prog.each xs f') := by
  induction xs with
  | nil => exact rfl
  | cons x xs ih =>
      exact Alike.bind (h x (List.mem_cons_self ..)) fun _ =>
        ih fun y hy => h y (List.mem_cons_of_mem _ hy)

theorem Alike.ite {c : Prop} [Decidable c] {q q' : Prog σ ο α} (hp : c → p.Alike I R p')
    (hq : ¬ c → q.Alike I R q') :
    (if c then p else q).Alike I R (if c then p' else q') := by
  split
  next hc => exact hp hc
  next hc => exact hq hc

/-- A section of one program is a section of the other. -/
theorem Alike.section {s : σ} {c : Section σ ο α} (h : p.Alike I R p') (hI : I s)
    (hc : p.step? s = some c) : ∃ c', p'.step? s = some c' ∧ c.state = c'.state ∧
      c.isUpdate = c'.isUpdate ∧ List.Forall₂ R c.out c'.out ∧ c.rest.Alike I R c'.rest := by
  cases p with
  | ret a => cases hc
  | ask k =>
      cases p' with
      | ask k' =>
          cases hc
          exact ⟨_, rfl, rfl, rfl, .nil, h s hI⟩
      | ret _ => cases h
      | act _ _ _ => cases h
  | act upd emit k =>
      cases p' with
      | act upd' emit' k' =>
          cases hc
          obtain ⟨hupd, hout, hk⟩ := h s hI
          exact ⟨_, rfl, hupd, rfl, hout, hk⟩
      | ret _ => cases h
      | ask _ => cases h

/-- Programs that are alike end together. -/
theorem Alike.ended {s : σ} (h : p.Alike I R p') (hc : p.step? s = none) :
    p'.step? s = none := by
  cases p with
  | ret a =>
      cases p' with
      | ret a' => rfl
      | ask _ => cases h
      | act _ _ _ => cases h
  | ask k => cases hc
  | act upd emit k => cases hc

end

end Prog

/-! ## Pools -/

/-- The jobs have the same number and alike programs, and are about corresponding things. -/
structure Job.Alike {σ ο ω : Type} (I : σ → Prop) (R : ο → ο → Prop) (S : ω → ω → Prop)
    (j j' : Job σ ο ω) : Prop where
  number : j.number = j'.number
  label : S j.label j'.label
  rest : j.rest.Alike I R j'.rest

namespace Pool

section

variable {ι σ ο ω : Type}

/-- The pools are in the same state, have emitted corresponding outputs, and the programs that
wait or run are alike. -/
structure Alike (I : σ → Prop) (R : ο → ο → Prop) (S : ω → ω → Prop) (P Q : Pool ι σ ο ω) :
    Prop where
  state : P.state = Q.state
  out : List.Forall₂ R P.out Q.out
  queue : List.Forall₂ (Job.Alike I R S) P.queue Q.queue
  running : ∀ i, Option.Rel (Job.Alike I R S) (P.running i) (Q.running i)
  made : P.made = Q.made

variable {I : σ → Prop} {R : ο → ο → Prop} {S : ω → ω → Prop} {P P' Q : Pool ι σ ο ω} {i : ι}
  {w w' : ω} {prog prog' : Prog σ ο Unit}

/-- Pools in which nothing is going on. -/
theorem alike_init (s : σ) : Alike I R S ({ state := s } : Pool ι σ ο ω) { state := s } :=
  ⟨rfl, .nil, .nil, fun _ => .none, rfl⟩

theorem Alike.submit (h : Alike I R S P Q) (hw : S w w') (hp : prog.Alike I R prog') :
    Alike I R S (P.submit w prog) (Q.submit w' prog') where
  state := h.state
  out := h.out
  queue := List.rel_append h.queue (.cons ⟨h.made, hw, hp⟩ .nil)
  running := h.running
  made := congrArg (· + 1) h.made

theorem Alike.idle (h : Alike I R S P Q) (hi : P.running i = none) : Q.running i = none := by
  have hrel := h.running i
  rw [hi] at hrel
  generalize Q.running i = x at hrel
  cases hrel
  rfl

theorem Alike.busy (h : Alike I R S P Q) {j : Job σ ο ω} (hi : P.running i = some j) :
    ∃ j', Q.running i = some j' ∧ j.Alike I R S j' := by
  have hrel := h.running i
  rw [hi] at hrel
  generalize Q.running i = x at hrel
  cases hrel with
  | some hj => exact ⟨_, rfl, hj⟩

variable [DecidableEq ι]

theorem Alike.assign (h : Alike I R S P Q) {x x' : Option (Job σ ο ω)}
    (hx : Option.Rel (Job.Alike I R S) x x') : Alike I R S (P.assign i x) (Q.assign i x') where
  state := h.state
  out := h.out
  queue := h.queue
  running := by
    intro i'
    rw [running_assign, running_assign]
    split
    · exact hx
    · exact h.running i'
  made := h.made

theorem Alike.launch (h : Alike I R S P Q) (hw : S w w') (hp : prog.Alike I R prog')
    (hP : P.launch i w prog = some P') :
    ∃ Q', Q.launch i w' prog' = some Q' ∧ Alike I R S P' Q' := by
  obtain ⟨hi, rfl⟩ := launch_eq_some.mp hP
  refine ⟨_, launch_eq_some.mpr ⟨h.idle hi, rfl⟩, ?_⟩
  have hjob : Job.Alike I R S ⟨P.made, w, prog⟩ ⟨Q.made, w', prog'⟩ := ⟨h.made, hw, hp⟩
  have hassign := h.assign (i := i) (.some hjob)
  exact ⟨hassign.state, hassign.out, hassign.queue, hassign.running, congrArg (· + 1) h.made⟩

theorem Alike.take (h : Alike I R S P Q) (hP : P.take i = some P') :
    ∃ Q', Q.take i = some Q' ∧ Alike I R S P' Q' := by
  obtain ⟨j, rest, hi, hq, rfl⟩ := take_eq_some.mp hP
  have hqueue := h.queue
  rw [hq, List.forall₂_cons_left_iff] at hqueue
  obtain ⟨j', rest', hj, hrest, hq'⟩ := hqueue
  refine ⟨_, take_eq_some.mpr ⟨j', rest', h.idle hi, hq', rfl⟩, ?_⟩
  have hassign := h.assign (i := i) (.some hj)
  exact ⟨hassign.state, hassign.out, hrest, hassign.running, hassign.made⟩

theorem Alike.finish (h : Alike I R S P Q) (hP : P.finish i = some P') :
    ∃ Q', Q.finish i = some Q' ∧ Alike I R S P' Q' := by
  obtain ⟨j, hi, hend, rfl⟩ := finish_eq_some.mp hP
  obtain ⟨j', hi', hj⟩ := h.busy hi
  refine ⟨_, finish_eq_some.mpr ⟨j', hi', ?_, rfl⟩, h.assign .none⟩
  rw [← h.state]
  exact hj.rest.ended hend

/-- A thread that performs a section in a state that meets the invariant. -/
theorem Alike.advance (h : Alike I R S P Q) (hI : I P.state) (hP : P.advance i = some P') :
    ∃ Q', Q.advance i = some Q' ∧ Alike I R S P' Q' := by
  obtain ⟨j, c, hi, hc, rfl⟩ := advance_eq_some.mp hP
  obtain ⟨j', hi', hj⟩ := h.busy hi
  obtain ⟨c', hc', hstate, -, hout, hrest⟩ := hj.rest.section hI hc
  refine ⟨_, advance_eq_some.mpr ⟨j', c', hi', h.state ▸ hc', rfl⟩, ?_⟩
  have hjob : Job.Alike I R S { j with rest := c.rest } { j' with rest := c'.rest } :=
    ⟨hj.number, hj.label, hrest⟩
  have hassign := h.assign (i := i) (.some hjob)
  exact ⟨hstate, List.rel_append h.out hout, h.queue, hassign.running, h.made⟩

end

end Pool
