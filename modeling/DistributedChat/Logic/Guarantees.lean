import DistributedChat.Logic.Pool

/-!
# What programs uphold among each other

`Upholds I P p` says what the program `p` relies on and what it guarantees, in
any interleaving.  It relies on an invariant `I` of the states in which its
sections take place, and guarantees that each of its sections keeps the invariant
and emits only outputs that meet `P`.

What a program may emit can depend on what it has read.  `Accounts I P p seen`
is the same with a requirement `P` about the outputs together with the states in
which the sections so far took place; these are `seen`, and every section adds
its own.  A program that upholds a fixed requirement accounts for its outputs
whatever it has seen (`Upholds.accounts`).

If every program of a pool accounts for its outputs under the same invariant,
then the invariant holds in every run, and so do the guarantees
(`Pool.Accounting`).  The states that the programs have seen are recorded beside
the pool.
-/

namespace Prog

section

variable {σ ο α β : Type}

/-- In states that meet `I`, every section keeps `I` and emits outputs that meet `P`, given the
states in which the sections before it took place. -/
def Accounts (I : σ → Prop) (P : List σ → ο → Prop) : Prog σ ο α → List σ → Prop
  | ret _, _ => True
  | ask k, seen => ∀ s, I s → Accounts I P (k s) (seen ++ [s])
  | act upd emit k, seen => ∀ s, I s →
      I (upd s) ∧ (∀ e ∈ emit s, P seen e) ∧ Accounts I P (k s) (seen ++ [s])

/-- Every section keeps `I` and emits outputs that meet `P`, whatever was seen. -/
def Upholds (I : σ → Prop) (P : ο → Prop) : Prog σ ο α → Prop
  | ret _ => True
  | ask k => ∀ s, I s → Upholds I P (k s)
  | act upd emit k => ∀ s, I s → I (upd s) ∧ (∀ e ∈ emit s, P e) ∧ Upholds I P (k s)

variable {I : σ → Prop} {p : Prog σ ο α}

section

variable {P : ο → Prop}

theorem upholds_pure (a : α) : (pure a : Prog σ ο α).Upholds I P := trivial

theorem upholds_update {f : σ → σ} (h : ∀ s, I s → I (f s)) :
    (update f : Prog σ ο Unit).Upholds I P :=
  fun s hI => ⟨h s hI, fun _ he => absurd he List.not_mem_nil, trivial⟩

theorem Upholds.bind {q : α → Prog σ ο β} (hp : p.Upholds I P) (hq : ∀ a, (q a).Upholds I P) :
    (p >>= q).Upholds I P := by
  change (p.bind q).Upholds I P
  induction p with
  | ret a => exact hq a
  | ask k ih => exact fun s hI => ih s (hp s hI)
  | act upd emit k ih =>
      intro s hI
      obtain ⟨hkeep, hout, hk⟩ := hp s hI
      exact ⟨hkeep, hout, ih s hk⟩

/-- The value observed is one of a state that meets `I`. -/
theorem upholds_observe_bind {f : σ → α} {q : α → Prog σ ο β}
    (h : ∀ s, I s → (q (f s)).Upholds I P) : ((observe f : Prog σ ο α) >>= q).Upholds I P := h

theorem Upholds.each {f : β → Prog σ ο Unit} (h : ∀ x, (f x).Upholds I P) (xs : List β) :
    (Prog.each xs f).Upholds I P := by
  induction xs with
  | nil => exact trivial
  | cons x xs ih => exact Upholds.bind (h x) fun _ => ih

theorem Upholds.ite {c : Prop} [Decidable c] {q : Prog σ ο α} (hp : c → p.Upholds I P)
    (hq : ¬ c → q.Upholds I P) : (if c then p else q).Upholds I P := by
  split
  next hc => exact hp hc
  next hc => exact hq hc

end

section

variable {P : List σ → ο → Prop} {seen : List σ}

/-- A program with a requirement that implies the one about what was seen, and about whatever is
seen after it. -/
theorem Upholds.accounts {P₀ : ο → Prop} (h : p.Upholds I P₀)
    (hP : ∀ more e, P₀ e → P (seen ++ more) e) : p.Accounts I P seen := by
  induction p generalizing seen with
  | ret a => exact trivial
  | ask k ih =>
      refine fun s hI => ih s (h s hI) fun more e he => ?_
      rw [List.append_assoc]
      exact hP _ e he
  | act upd emit k ih =>
      intro s hI
      obtain ⟨hkeep, hout, hk⟩ := h s hI
      refine ⟨hkeep, fun e he => ?_, ih s hk fun more e he => ?_⟩
      · have hnow := hP [] e (hout e he)
        rwa [List.append_nil] at hnow
      · rw [List.append_assoc]
        exact hP _ e he

/-- The value observed is one of a state that meets `I`, and this state has been seen. -/
theorem accounts_observe_bind {f : σ → α} {q : α → Prog σ ο β}
    (h : ∀ s, I s → (q (f s)).Accounts I P (seen ++ [s])) :
    ((observe f : Prog σ ο α) >>= q).Accounts I P seen := h

theorem Accounts.ite {c : Prop} [Decidable c] {q : Prog σ ο α} (hp : c → p.Accounts I P seen)
    (hq : ¬ c → q.Accounts I P seen) : (if c then p else q).Accounts I P seen := by
  split
  next hc => exact hp hc
  next hc => exact hq hc

/-- A section in a state that meets `I`. -/
theorem Accounts.section {s : σ} {c : Section σ ο α} (h : p.Accounts I P seen) (hI : I s)
    (hc : p.step? s = some c) :
    I c.state ∧ (∀ e ∈ c.out, P seen e) ∧ c.rest.Accounts I P (seen ++ [s]) := by
  cases p with
  | ret a => cases hc
  | ask k =>
      cases hc
      exact ⟨hI, fun _ he => absurd he List.not_mem_nil, h s hI⟩
  | act upd emit k =>
      cases hc
      exact h s hI

end

end

end Prog

namespace Pool

section

variable {ι σ ο ω : Type}

/-- The invariant holds, and every program that waits or runs accounts for its outputs.  What a
program may emit depends on what it is about and on what it has seen. -/
structure Accounting (I : σ → Prop) (P : ω → List σ → ο → Prop) (seen : ι → List σ)
    (Q : Pool ι σ ο ω) : Prop where
  inv : I Q.state
  queue : ∀ j ∈ Q.queue, j.rest.Accounts I (P j.label) []
  running : ∀ i, ∀ j ∈ Q.running i, j.rest.Accounts I (P j.label) (seen i)

variable {I : σ → Prop} {P : ω → List σ → ο → Prop} {seen : ι → List σ} {Q Q' : Pool ι σ ο ω}
  {i : ι} {w : ω} {prog : Prog σ ο Unit}

theorem Accounting.submit (h : Accounting I P seen Q) (hp : prog.Accounts I (P w) []) :
    Accounting I P seen (Q.submit w prog) where
  inv := h.inv
  queue := by
    intro j hj
    rcases List.mem_append.mp hj with hj | hj
    · exact h.queue j hj
    · rw [List.mem_singleton.mp hj]
      exact hp
  running := h.running

/-- What the next section of a thread emits. -/
theorem Accounting.out (h : Accounting I P seen Q) {j : Job σ ο ω} (hj : Q.running i = some j)
    {c : Prog.Section σ ο Unit} (hc : j.rest.step? Q.state = some c) :
    ∀ e ∈ c.out, P j.label (seen i) e :=
  ((h.running i j hj).section h.inv hc).2.1

variable [DecidableEq ι]

/-- Giving a thread a program, which has seen nothing. -/
theorem Accounting.assign (h : Accounting I P seen Q) {x : Option (Job σ ο ω)}
    (hx : ∀ j ∈ x, j.rest.Accounts I (P j.label) []) :
    Accounting I P (Function.update seen i []) (Q.assign i x) where
  inv := h.inv
  queue := h.queue
  running := by
    intro i' j hj
    rw [running_assign] at hj
    rw [Function.update_apply]
    split at hj
    next hi =>
      rw [if_pos hi]
      exact hx j hj
    next hi =>
      rw [if_neg hi]
      exact h.running i' j hj

theorem Accounting.launch (h : Accounting I P seen Q) (hp : prog.Accounts I (P w) [])
    (hQ : Q.launch i w prog = some Q') : Accounting I P (Function.update seen i []) Q' := by
  obtain ⟨-, rfl⟩ := launch_eq_some.mp hQ
  have hassign : Accounting I P (Function.update seen i [])
      (Q.assign i (some ⟨Q.made, w, prog⟩)) := by
    refine h.assign fun j hj => ?_
    cases hj
    exact hp
  exact ⟨hassign.inv, hassign.queue, hassign.running⟩

theorem Accounting.take (h : Accounting I P seen Q) (hQ : Q.take i = some Q') :
    Accounting I P (Function.update seen i []) Q' := by
  obtain ⟨j₀, rest, -, hq, rfl⟩ := take_eq_some.mp hQ
  have hassign : Accounting I P (Function.update seen i []) (Q.assign i (some j₀)) := by
    refine h.assign fun j hj => ?_
    cases hj
    exact h.queue j₀ (hq ▸ List.mem_cons_self ..)
  exact ⟨hassign.inv, fun j hj => h.queue j (hq ▸ List.mem_cons_of_mem _ hj), hassign.running⟩

theorem Accounting.finish (h : Accounting I P seen Q) (hQ : Q.finish i = some Q') :
    Accounting I P seen Q' := by
  obtain ⟨j, -, -, rfl⟩ := finish_eq_some.mp hQ
  refine ⟨h.inv, h.queue, fun i' j' hj' => ?_⟩
  rw [running_assign] at hj'
  split at hj'
  next => cases hj'
  next => exact h.running i' j' hj'

/-- A thread that performs a section has seen the state it did so in. -/
theorem Accounting.advance (h : Accounting I P seen Q) (hQ : Q.advance i = some Q') :
    Accounting I P (Function.update seen i (seen i ++ [Q.state])) Q' := by
  obtain ⟨j, c, hj, hc, rfl⟩ := advance_eq_some.mp hQ
  obtain ⟨hkeep, -, hrest⟩ := (h.running i j hj).section h.inv hc
  refine ⟨hkeep, h.queue, fun i' j' hj' => ?_⟩
  rw [running_perform] at hj'
  rw [Function.update_apply]
  split at hj'
  next hi =>
    cases hj'
    rw [if_pos hi]
    exact hrest
  next hi =>
    rw [if_neg hi]
    exact h.running i' j' hj'

end

end Pool
