import DistributedChat.Logic.Tally
import DistributedChat.Logic.Runs

/-!
# The thread pool

Workers, threads that call `Enqueue` and the destructor take turns in critical
sections on the queue.  A worker that finds the queue empty sleeps in
`m_condition.wait`; `notify_one`, called after the lock has been released, wakes
one that sleeps.  A worker may also wake by itself, and always looks at the
queue again.

No wakeup is lost because of a count.  While some worker sleeps, there are no
more tasks in the queue than there are calls of `notify_one` still to come and
workers that are about to look at the queue (`Sound.wakeup`).

This module has the pool, what one step does (`next_step`) and the invariants of
all runs (`Sound`).
-/

namespace DistributedChat

/-- A task, by the number of the call of `Enqueue` that made it. -/
abbrev TaskRef := Nat

/-- Where a worker is. -/
inductive Worker where
  /-- About to lock the queue and look at it. -/
  | awake
  /-- In `m_condition.wait`. -/
  | asleep
  /-- About to execute a task it has taken. -/
  | running (t : TaskRef)
  /-- Returned. -/
  | exited
deriving DecidableEq, Repr

/-- Where a thread that calls `Enqueue` is. -/
inductive Caller where
  | idle
  /-- `Enqueue` has made its task and not yet locked the queue. -/
  | calling (t : TaskRef)
  /-- `Enqueue` has released the lock and not yet called `notify_one`. -/
  | notifying (t : TaskRef)
deriving DecidableEq, Repr

def Caller.isNotifying : Caller → Bool
  | notifying _ => true
  | _ => false

@[simp] theorem Caller.isNotifying_idle : idle.isNotifying = false := rfl

@[simp] theorem Caller.isNotifying_calling (t : TaskRef) : (calling t).isNotifying = false := rfl

@[simp] theorem Caller.isNotifying_notifying (t : TaskRef) : (notifying t).isNotifying = true := rfl

/-- Where the destructor is. -/
inductive Destructor where
  | uncalled
  /-- It has set `m_stop` and not yet called `notify_all`. -/
  | stopping
  /-- It waits for the workers to return. -/
  | joining
  | returned
deriving DecidableEq, Repr

/-- A pool with `n` workers and `m` threads that call `Enqueue`. -/
structure ThreadPool (n m : Nat) where
  /-- `m_tasks`. -/
  tasks : List TaskRef := []
  /-- `m_stop`. -/
  stop : Bool := false
  workers : Fin n → Worker := fun _ => .awake
  callers : Fin m → Caller := fun _ => .idle
  destructor : Destructor := .uncalled
  /-- How many tasks were made. -/
  made : Nat := 0
  /-- The tasks that were added to the queue, in order. -/
  added : List TaskRef := []
  /-- The tasks that workers have taken, in order. -/
  taken : List TaskRef := []
  /-- The tasks that were executed. -/
  executed : List TaskRef := []
  /-- The tasks whose `Enqueue` returned. -/
  returned : List TaskRef := []
  /-- The tasks whose `Enqueue` threw. -/
  refused : List TaskRef := []

/-- What the threads do. -/
inductive PoolAction (n m : Nat) where
  /-- `Enqueue` is called and makes its task. -/
  | call (e : Fin m)
  /-- The critical section of `Enqueue`. -/
  | enter (e : Fin m)
  /-- `notify_one` wakes a worker, or finds none that sleeps. -/
  | notify (e : Fin m) (i : Option (Fin n))
  /-- The critical section of a worker, from the lock to the end of the block or to `wait`. -/
  | lock (i : Fin n)
  /-- A worker executes its task. -/
  | execute (i : Fin n)
  /-- A worker wakes without a notification. -/
  | wake (i : Fin n)
  /-- The critical section of the destructor. -/
  | setStop
  /-- The destructor calls `notify_all`. -/
  | notifyAll
  /-- The destructor has joined all workers. -/
  | join
deriving DecidableEq, Repr

namespace ThreadPool

variable {n m : Nat}

def setWorker (c : ThreadPool n m) (i : Fin n) (w : Worker) : ThreadPool n m :=
  { c with workers := Function.update c.workers i w }

def setCaller (c : ThreadPool n m) (e : Fin m) (w : Caller) : ThreadPool n m :=
  { c with callers := Function.update c.callers e w }

/-- `ThreadPool::Enqueue`, the critical section. -/
def enqueue (c : ThreadPool n m) (e : Fin m) (t : TaskRef) : ThreadPool n m :=
  if c.stop = true then { c.setCaller e .idle with refused := c.refused ++ [t] }
  else { c.setCaller e (.notifying t) with tasks := c.tasks ++ [t], added := c.added ++ [t] }

/-- The block of a worker's loop that holds the lock. -/
def workerBlock (c : ThreadPool n m) (i : Fin n) : ThreadPool n m :=
  -- the predicate of `wait` is `m_stop || !m_tasks.empty()`
  if c.stop = true ∨ c.tasks ≠ [] then
    if c.stop = true ∧ c.tasks = [] then c.setWorker i .exited
    else match c.tasks with
      | [] => c
      | t :: rest => { c.setWorker i (.running t) with tasks := rest, taken := c.taken ++ [t] }
  else c.setWorker i .asleep

/-- `notify_one`: a worker that sleeps is woken, if there is one. -/
def notifyOne (c : ThreadPool n m) : Option (Fin n) → Option (ThreadPool n m)
  | some i => if c.workers i = .asleep then some (c.setWorker i .awake) else none
  | none => if ∀ i, c.workers i ≠ .asleep then some c else none

def next (c : ThreadPool n m) : PoolAction n m → Option (ThreadPool n m)
  | .call e =>
      if c.callers e = .idle then some { c.setCaller e (.calling c.made) with made := c.made + 1 }
      else none
  | .enter e =>
      match c.callers e with
      | .calling t => some (c.enqueue e t)
      | _ => none
  | .notify e i =>
      match c.callers e with
      | .notifying t => (c.notifyOne i).map fun c =>
          { c.setCaller e .idle with returned := c.returned ++ [t] }
      | _ => none
  | .lock i => if c.workers i = .awake then some (c.workerBlock i) else none
  | .execute i =>
      match c.workers i with
      | .running t => some { c.setWorker i .awake with executed := c.executed ++ [t] }
      | _ => none
  | .wake i => if c.workers i = .asleep then some (c.setWorker i .awake) else none
  | .setStop =>
      if c.destructor = .uncalled then some { c with stop := true, destructor := .stopping }
      else none
  | .notifyAll =>
      if c.destructor = .stopping then
        some { c with
          destructor := .joining
          workers := fun i => if c.workers i = .asleep then .awake else c.workers i }
      else none
  | .join =>
      if c.destructor = .joining ∧ ∀ i, c.workers i = .exited then
        some { c with destructor := .returned }
      else none

/-- What an action does. -/
inductive Step (c : ThreadPool n m) : PoolAction n m → ThreadPool n m → Prop where
  | call (e : Fin m) (he : c.callers e = .idle) :
      Step c (.call e) { c.setCaller e (.calling c.made) with made := c.made + 1 }
  | refuse (e : Fin m) (t : TaskRef) (he : c.callers e = .calling t) (hs : c.stop = true) :
      Step c (.enter e) { c.setCaller e .idle with refused := c.refused ++ [t] }
  | add (e : Fin m) (t : TaskRef) (he : c.callers e = .calling t) (hs : c.stop = false) :
      Step c (.enter e)
        { c.setCaller e (.notifying t) with tasks := c.tasks ++ [t], added := c.added ++ [t] }
  | notify (e : Fin m) (t : TaskRef) (i : Fin n) (he : c.callers e = .notifying t)
      (hi : c.workers i = .asleep) :
      Step c (.notify e (some i))
        { (c.setWorker i .awake).setCaller e .idle with returned := c.returned ++ [t] }
  | notifyNobody (e : Fin m) (t : TaskRef) (he : c.callers e = .notifying t)
      (hnone : ∀ i, c.workers i ≠ .asleep) :
      Step c (.notify e none) { c.setCaller e .idle with returned := c.returned ++ [t] }
  | take (i : Fin n) (t : TaskRef) (rest : List TaskRef) (hi : c.workers i = .awake)
      (ht : c.tasks = t :: rest) :
      Step c (.lock i)
        { c.setWorker i (.running t) with tasks := rest, taken := c.taken ++ [t] }
  | exit (i : Fin n) (hi : c.workers i = .awake) (ht : c.tasks = []) (hs : c.stop = true) :
      Step c (.lock i) (c.setWorker i .exited)
  | sleep (i : Fin n) (hi : c.workers i = .awake) (ht : c.tasks = []) (hs : c.stop = false) :
      Step c (.lock i) (c.setWorker i .asleep)
  | execute (i : Fin n) (t : TaskRef) (hi : c.workers i = .running t) :
      Step c (.execute i) { c.setWorker i .awake with executed := c.executed ++ [t] }
  | wake (i : Fin n) (hi : c.workers i = .asleep) : Step c (.wake i) (c.setWorker i .awake)
  | setStop (hd : c.destructor = .uncalled) :
      Step c .setStop { c with stop := true, destructor := .stopping }
  | notifyAll (hd : c.destructor = .stopping) :
      Step c .notifyAll
        { c with
          destructor := .joining
          workers := fun i => if c.workers i = .asleep then .awake else c.workers i }
  | join (hd : c.destructor = .joining) (hw : ∀ i, c.workers i = .exited) :
      Step c .join { c with destructor := .returned }

section

variable {c c' : ThreadPool n m} {a : PoolAction n m}

theorem next_step (h : c.next a = some c') : Step c a c' := by
  cases a with
  | call e =>
      obtain ⟨he, heq⟩ := Option.ite_none_right_eq_some.mp h
      cases heq
      exact .call e he
  | enter e =>
      rw [next] at h
      cases he : c.callers e with
      | calling t =>
          rw [he] at h
          cases h
          rw [enqueue]
          cases hs : c.stop with
          | true => exact .refuse e t he hs
          | false => exact .add e t he hs
      | _ => rw [he] at h; cases h
  | notify e i =>
      rw [next] at h
      cases he : c.callers e with
      | notifying t =>
          rw [he] at h
          obtain ⟨d, hd, rfl⟩ := Option.map_eq_some_iff.mp h
          cases i with
          | some i =>
              obtain ⟨hi, heq⟩ := Option.ite_none_right_eq_some.mp hd
              cases heq
              exact .notify e t i he hi
          | none =>
              obtain ⟨hnone, heq⟩ := Option.ite_none_right_eq_some.mp hd
              cases heq
              exact .notifyNobody e t he hnone
      | _ => rw [he] at h; cases h
  | lock i =>
      obtain ⟨hi, heq⟩ := Option.ite_none_right_eq_some.mp h
      cases heq
      cases ht : c.tasks with
      | cons t rest =>
          simp only [workerBlock, ht]
          simpa using Step.take i t rest hi ht
      | nil =>
          cases hs : c.stop with
          | true => simpa [workerBlock, ht, hs] using Step.exit i hi ht hs
          | false => simpa [workerBlock, ht, hs] using Step.sleep i hi ht hs
  | execute i =>
      rw [next] at h
      cases hi : c.workers i with
      | running t =>
          rw [hi] at h
          cases h
          exact .execute i t hi
      | _ => rw [hi] at h; cases h
  | wake i =>
      obtain ⟨hi, heq⟩ := Option.ite_none_right_eq_some.mp h
      cases heq
      exact .wake i hi
  | setStop =>
      obtain ⟨hd, heq⟩ := Option.ite_none_right_eq_some.mp h
      cases heq
      exact .setStop hd
  | notifyAll =>
      obtain ⟨hd, heq⟩ := Option.ite_none_right_eq_some.mp h
      cases heq
      exact .notifyAll hd
  | join =>
      obtain ⟨⟨hd, hw⟩, heq⟩ := Option.ite_none_right_eq_some.mp h
      cases heq
      exact .join hd hw

/-- One caller is where it was put, and the others are where they were. -/
theorem callers_setCaller_eq {e e' : Fin m} {w x : Caller} :
    (c.setCaller e w).callers e' = x ↔ e' = e ∧ w = x ∨ e' ≠ e ∧ c.callers e' = x := by
  show Function.update c.callers e w e' = x ↔ _
  rw [Function.update_apply]
  split
  next he => simp [he]
  next he => simp [he]

/-- One worker is where it was put, and the others are where they were. -/
theorem workers_setWorker_eq {i i' : Fin n} {w x : Worker} :
    (c.setWorker i w).workers i' = x ↔ i' = i ∧ w = x ∨ i' ≠ i ∧ c.workers i' = x := by
  show Function.update c.workers i w i' = x ↔ _
  rw [Function.update_apply]
  split
  next hi => simp [hi]
  next hi => simp [hi]

/-! ## Tasks -/

/-- Every task that was made is with its caller, has been refused or has been added to the queue,
once; and tasks are taken in the order in which they were added. -/
structure Filed (c : ThreadPool n m) : Prop where
  order : c.added = c.taken ++ c.tasks
  nodup : c.added.Nodup
  added_lt : ∀ t ∈ c.added, t < c.made
  calling : ∀ e t, c.callers e = .calling t → t < c.made ∧ t ∉ c.added
  calling_inj : ∀ e e' t, c.callers e = .calling t → c.callers e' = .calling t → e = e'
  notifying : ∀ e t, c.callers e = .notifying t → t ∈ c.added
  returned : ∀ t ∈ c.returned, t ∈ c.added
  made : ∀ t < c.made, t ∈ c.added ∨ t ∈ c.refused ∨ ∃ e, c.callers e = .calling t

/-- The steps of workers and of the destructor leave the callers alone. -/
theorem Filed.congr (h : c.Filed) (horder : c'.taken ++ c'.tasks = c.taken ++ c.tasks)
    (hcallers : c'.callers = c.callers) (hmade : c'.made = c.made) (hadded : c'.added = c.added)
    (hreturned : c'.returned = c.returned) (hrefused : c'.refused = c.refused) : c'.Filed := by
  obtain ⟨h₁, h₂, h₃, h₄, h₅, h₆, h₇, h₈⟩ := h
  constructor
  · rw [hadded, horder, h₁]
  · rwa [hadded]
  · rwa [hadded, hmade]
  · rwa [hcallers, hmade, hadded]
  · rwa [hcallers]
  · rwa [hcallers, hadded]
  · rwa [hreturned, hadded]
  · rwa [hmade, hadded, hrefused, hcallers]

/-- A caller whose task is filed elsewhere no longer has it. -/
theorem Filed.leave (h : c.Filed) {e : Fin m} {w : Caller} (hw : ∀ t, w ≠ .calling t)
    (hwn : ∀ t, w = .notifying t → t ∈ c'.added) (hcallers : c'.callers = (c.setCaller e w).callers)
    (hmade : c'.made = c.made) (horder : c'.added = c'.taken ++ c'.tasks) (hnodup : c'.added.Nodup)
    (hadded : ∀ t ∈ c'.added, t ∈ c.added ∨ c.callers e = .calling t)
    (hmore : ∀ t ∈ c.added, t ∈ c'.added)
    (hreturned : ∀ t ∈ c'.returned, t ∈ c'.added)
    (hleft : ∀ t, t ∈ c.refused ∨ c.callers e = .calling t → t ∈ c'.refused ∨ t ∈ c'.added) :
    c'.Filed where
  order := horder
  nodup := hnodup
  added_lt := by
    intro t ht
    rw [hmade]
    rcases hadded t ht with ht | ht
    · exact h.added_lt t ht
    · exact (h.calling e t ht).1
  calling := by
    intro e' t he'
    rw [hcallers] at he'
    rcases callers_setCaller_eq.mp he' with ⟨-, he'⟩ | ⟨hne, he'⟩
    · exact absurd he' (hw t)
    · obtain ⟨hlt, hnew⟩ := h.calling e' t he'
      refine ⟨hmade ▸ hlt, fun ht => ?_⟩
      rcases hadded t ht with ht | ht
      · exact hnew ht
      · exact hne (h.calling_inj e' e t he' ht)
  calling_inj := by
    intro e₁ e₂ t h₁ h₂
    rw [hcallers] at h₁ h₂
    rcases callers_setCaller_eq.mp h₁ with ⟨-, h₁⟩ | ⟨-, h₁⟩
    · exact absurd h₁ (hw t)
    rcases callers_setCaller_eq.mp h₂ with ⟨-, h₂⟩ | ⟨-, h₂⟩
    · exact absurd h₂ (hw t)
    exact h.calling_inj e₁ e₂ t h₁ h₂
  notifying := by
    intro e' t he'
    rw [hcallers] at he'
    rcases callers_setCaller_eq.mp he' with ⟨-, he'⟩ | ⟨-, he'⟩
    · exact hwn t he'
    · exact hmore t (h.notifying e' t he')
  returned := hreturned
  made := by
    intro t ht
    rw [hmade] at ht
    have hor : t ∈ c'.refused ∨ t ∈ c'.added →
        t ∈ c'.added ∨ t ∈ c'.refused ∨ ∃ e, c'.callers e = .calling t := by
      rintro (hr | ha)
      · exact Or.inr (Or.inl hr)
      · exact Or.inl ha
    rcases h.made t ht with ha | hr | ⟨e', he'⟩
    · exact Or.inl (hmore t ha)
    · exact hor (hleft t (Or.inl hr))
    · by_cases he : e' = e
      · exact hor (hleft t (Or.inr (he ▸ he')))
      · refine Or.inr (Or.inr ⟨e', ?_⟩)
        rw [hcallers]
        exact callers_setCaller_eq.mpr (Or.inr ⟨he, he'⟩)

/-- A call makes a task that is filed nowhere else. -/
theorem Filed.call (h : c.Filed) {e : Fin m} (he : c.callers e = .idle) :
    Filed { c.setCaller e (.calling c.made) with made := c.made + 1 } where
  order := h.order
  nodup := h.nodup
  added_lt := fun t ht => Nat.lt_succ_of_lt (h.added_lt t ht)
  calling := by
    intro e' t he'
    rcases callers_setCaller_eq.mp he' with ⟨-, he'⟩ | ⟨-, he'⟩
    · cases he'
      exact ⟨Nat.lt_succ_self _, fun ht => Nat.lt_irrefl _ (h.added_lt _ ht)⟩
    · obtain ⟨hlt, hnew⟩ := h.calling e' t he'
      exact ⟨Nat.lt_succ_of_lt hlt, hnew⟩
  calling_inj := by
    intro e₁ e₂ t h₁ h₂
    rcases callers_setCaller_eq.mp h₁ with ⟨he₁, h₁⟩ | ⟨-, h₁⟩ <;>
      rcases callers_setCaller_eq.mp h₂ with ⟨he₂, h₂⟩ | ⟨-, h₂⟩
    · exact he₁.trans he₂.symm
    · cases h₁
      exact absurd (h.calling e₂ _ h₂).1 (Nat.lt_irrefl _)
    · cases h₂
      exact absurd (h.calling e₁ _ h₁).1 (Nat.lt_irrefl _)
    · exact h.calling_inj e₁ e₂ t h₁ h₂
  notifying := by
    intro e' t he'
    rcases callers_setCaller_eq.mp he' with ⟨-, he'⟩ | ⟨-, he'⟩
    · cases he'
    · exact h.notifying e' t he'
  returned := h.returned
  made := by
    intro t ht
    rcases Nat.lt_succ_iff_lt_or_eq.mp ht with ht | rfl
    · rcases h.made t ht with ha | hr | ⟨e', he'⟩
      · exact Or.inl ha
      · exact Or.inr (Or.inl hr)
      · have hne : e' ≠ e := fun heq => by rw [heq, he] at he'; cases he'
        exact Or.inr (Or.inr ⟨e', callers_setCaller_eq.mpr (Or.inr ⟨hne, he'⟩)⟩)
    · exact Or.inr (Or.inr ⟨e, callers_setCaller_eq.mpr (Or.inl ⟨rfl, rfl⟩)⟩)

theorem Filed.step (h : c.Filed) (hs : Step c a c') : c'.Filed := by
  -- a caller that was about to notify had its task added before
  have hback : ∀ {e t}, c.callers e = .notifying t →
      (∀ t' ∈ c.returned ++ [t], t' ∈ c.added) ∧
        ∀ t', t' ∈ c.refused ∨ c.callers e = .calling t' → t' ∈ c.refused ∨ t' ∈ c.added := by
    intro e t he
    constructor
    · intro t' ht'
      rcases List.mem_append.mp ht' with ht' | ht'
      · exact h.returned t' ht'
      · exact List.mem_singleton.mp ht' ▸ h.notifying e t he
    · rintro t' (hr | he')
      · exact Or.inl hr
      · rw [he] at he'
        cases he'
  cases hs with
  | call e he => exact h.call he
  | refuse e t he hs =>
      refine h.leave (w := .idle) (fun _ => Caller.noConfusion) (fun _ hw => nomatch hw) rfl rfl
        h.order h.nodup (fun _ => Or.inl) (fun _ => id) h.returned ?_
      rintro t' (hr | he')
      · exact Or.inl (List.mem_append_left _ hr)
      · rw [he] at he'
        cases he'
        exact Or.inl (List.mem_append_right _ (List.mem_singleton_self t))
  | add e t he hs =>
      have hlast : t ∈ c.added ++ [t] := List.mem_append_right _ (List.mem_singleton_self t)
      refine h.leave (w := .notifying t) (fun _ => Caller.noConfusion) ?_ rfl rfl ?_ ?_ ?_
        (fun _ => List.mem_append_left _) (fun t' ht' => List.mem_append_left _ (h.returned t' ht')) ?_
      · intro t' hw
        cases hw
        exact hlast
      · show c.added ++ [t] = c.taken ++ (c.tasks ++ [t])
        rw [h.order, List.append_assoc]
      · refine List.nodup_append'.mpr ⟨h.nodup, List.nodup_singleton t, ?_⟩
        exact List.disjoint_singleton.mpr (h.calling e t he).2
      · intro t' ht'
        rcases List.mem_append.mp ht' with ht' | ht'
        · exact Or.inl ht'
        · exact Or.inr (List.mem_singleton.mp ht' ▸ he)
      · rintro t' (hr | he')
        · exact Or.inl hr
        · rw [he] at he'
          cases he'
          exact Or.inr hlast
  | notify e t i he hi =>
      exact h.leave (w := .idle) (fun _ => Caller.noConfusion) (fun _ hw => nomatch hw) rfl rfl
        h.order h.nodup (fun _ => Or.inl) (fun _ => id) (hback he).1 (hback he).2
  | notifyNobody e t he hnone =>
      exact h.leave (w := .idle) (fun _ => Caller.noConfusion) (fun _ hw => nomatch hw) rfl rfl
        h.order h.nodup (fun _ => Or.inl) (fun _ => id) (hback he).1 (hback he).2
  | take i t rest hi ht =>
      refine h.congr ?_ rfl rfl rfl rfl rfl
      show (c.taken ++ [t]) ++ rest = _
      rw [ht, List.append_assoc]
      rfl
  | _ => exact h.congr rfl rfl rfl rfl rfl rfl

/-! ## Workers -/

/-- What was taken is executed or in the hands of one worker, workers return when the pool is
stopped and nothing is left, and no wakeup is lost. -/
structure Staffed (c : ThreadPool n m) : Prop where
  executed : ∀ t, c.taken.count t = c.executed.count t + tally (· = .running t) c.workers
  exited : ∀ i, c.workers i = .exited → c.stop = true ∧ c.tasks = []
  wakeup : ∀ i, c.workers i = .asleep →
    c.tasks.length ≤ tally (·.isNotifying = true) c.callers + tally (· = .awake) c.workers
  ended : c.destructor = .returned → ∀ i, c.workers i = .exited

theorem tally_setWorker (p : Worker → Prop) [DecidablePred p] (c : ThreadPool n m) (i : Fin n)
    (w : Worker) : tally p (c.setWorker i w).workers + (if p (c.workers i) then 1 else 0) =
      tally p c.workers + if p w then 1 else 0 :=
  tally_update p c.workers i w

theorem tally_setWorker_of_not {p : Worker → Prop} [DecidablePred p] {i : Fin n} {w : Worker}
    (hi : ¬ p (c.workers i)) (hw : ¬ p w) : tally p (c.setWorker i w).workers = tally p c.workers := by
  have htally := tally_setWorker p c i w
  rw [if_neg hi, if_neg hw] at htally
  exact htally

theorem tally_setCaller (p : Caller → Prop) [DecidablePred p] (c : ThreadPool n m) (e : Fin m)
    (w : Caller) : tally p (c.setCaller e w).callers + (if p (c.callers e) then 1 else 0) =
      tally p c.callers + if p w then 1 else 0 :=
  tally_update p c.callers e w

/-- The end of a task, and of nothing else, is its execution. -/
theorem Staffed.executed_step (h : c.Staffed) (hs : Step c a c') (t : TaskRef) :
    c'.taken.count t = c'.executed.count t + tally (· = .running t) c'.workers := by
  have ht := h.executed t
  cases hs with
  | take i u rest hi hu =>
      have htally := tally_setWorker (· = .running t) c i (.running u)
      show (c.taken ++ [u]).count t = c.executed.count t + tally _ (c.setWorker i _).workers
      rw [List.count_append, List.count_singleton]
      simp only [hi, reduceCtorEq, if_false, Worker.running.injEq] at htally
      by_cases hut : u = t
      · simp only [hut, beq_self_eq_true, if_true] at htally ⊢
        omega
      · simp only [hut, beq_iff_eq, if_false] at htally ⊢
        omega
  | execute i u hi =>
      have htally := tally_setWorker (· = .running t) c i .awake
      show c.taken.count t = (c.executed ++ [u]).count t + tally _ (c.setWorker i _).workers
      rw [List.count_append, List.count_singleton]
      simp only [hi, reduceCtorEq, if_false, Worker.running.injEq] at htally
      by_cases hut : u = t
      · simp only [hut, beq_self_eq_true, if_true] at htally ⊢
        omega
      · simp only [hut, beq_iff_eq, if_false] at htally ⊢
        omega
  | exit i hi | sleep i hi | wake i hi | notify e u i he hi =>
      refine ht.trans (congrArg _ (tally_setWorker_of_not ?_ Worker.noConfusion).symm)
      rw [hi]
      exact Worker.noConfusion
  | notifyAll hd =>
      rw [ht]
      refine congrArg _ (tally_congr fun i => ?_)
      show c.workers i = _ ↔ (if _ then _ else _) = _
      split
      next hi => simp [hi]
      next => exact Iff.rfl
  | _ => exact ht

/-- A worker that sleeps after a step and did not go to sleep in it slept before. -/
theorem Step.slept (hs : Step c a c') {i : Fin n} (hi : c'.workers i = .asleep) :
    c.workers i = .asleep ∨ c'.tasks = [] := by
  cases hs with
  | take j t rest hj ht | exit j hj ht hs | execute j t hj | wake j hj | notify e t j he hj =>
      rcases workers_setWorker_eq.mp hi with ⟨-, hw⟩ | ⟨-, hi⟩
      · cases hw
      · exact Or.inl hi
  | sleep j hj ht hs => exact Or.inr ht
  | notifyAll hd =>
      change (if c.workers i = .asleep then Worker.awake else c.workers i) = .asleep at hi
      split at hi
      · cases hi
      · exact Or.inl hi
  | _ => exact Or.inl hi

/-- While some worker sleeps, what is in the queue is matched by notifications to come and by
workers that are about to look. -/
theorem Staffed.wakeup_step (h : c.Staffed) (hs : Step c a c') (i : Fin n)
    (hi : c'.workers i = .asleep) : c'.tasks.length ≤
      tally (·.isNotifying = true) c'.callers + tally (· = .awake) c'.workers := by
  rcases hs.slept hi with hslept | hempty
  · have hle := h.wakeup i hslept
    cases hs with
    | call e he =>
        have hcallers := tally_setCaller (·.isNotifying = true) c e (.calling c.made)
        simp [he] at hcallers
        show c.tasks.length ≤ tally _ (c.setCaller e _).callers + tally _ c.workers
        omega
    | refuse e t he =>
        have hcallers := tally_setCaller (·.isNotifying = true) c e .idle
        simp [he] at hcallers
        show c.tasks.length ≤ tally _ (c.setCaller e _).callers + tally _ c.workers
        omega
    | add e t he hs =>
        have hcallers := tally_setCaller (·.isNotifying = true) c e (.notifying t)
        simp [he] at hcallers
        show (c.tasks ++ [t]).length ≤ tally _ (c.setCaller e _).callers + tally _ c.workers
        rw [List.length_append, List.length_singleton]
        omega
    | notify e t j he hj =>
        have hcallers := tally_setCaller (·.isNotifying = true) c e .idle
        have hworkers := tally_setWorker (· = .awake) c j .awake
        simp [he] at hcallers
        simp only [hj, reduceCtorEq, if_false, if_true] at hworkers
        show c.tasks.length ≤ tally _ (c.setCaller e _).callers + tally _ (c.setWorker j _).workers
        omega
    | notifyNobody e t he hnone => exact absurd hslept (hnone i)
    | take j t rest hj ht =>
        have hworkers := tally_setWorker (· = .awake) c j (.running t)
        simp only [hj, reduceCtorEq, if_false, if_true] at hworkers
        rw [ht, List.length_cons] at hle
        show rest.length ≤ tally _ c.callers + tally _ (c.setWorker j _).workers
        omega
    | exit j hj ht | sleep j hj ht =>
        show c.tasks.length ≤ _
        rw [ht]
        exact Nat.zero_le _
    | execute j t hj | wake j hj =>
        have hworkers := tally_setWorker (· = .awake) c j .awake
        simp only [hj, reduceCtorEq, if_false, if_true] at hworkers
        show c.tasks.length ≤ tally _ c.callers + tally _ (c.setWorker j _).workers
        omega
    | notifyAll hd =>
        change (if c.workers i = .asleep then Worker.awake else c.workers i) = .asleep at hi
        rw [if_pos hslept] at hi
        cases hi
    | _ => exact hle
  · rw [hempty]
    exact Nat.zero_le _

theorem Staffed.exited_step (h : c.Staffed) (hs : Step c a c') (i : Fin n)
    (hi : c'.workers i = .exited) : c'.stop = true ∧ c'.tasks = [] := by
  have hold : c.workers i = .exited → c.stop = true ∧ c.tasks = [] := h.exited i
  cases hs with
  | add e t he hs =>
      obtain ⟨hstop, -⟩ := hold hi
      rw [hs] at hstop
      cases hstop
  | take j t rest hj ht =>
      rcases workers_setWorker_eq.mp hi with ⟨-, hw⟩ | ⟨-, hi⟩
      · cases hw
      · obtain ⟨-, hempty⟩ := hold hi
        rw [ht] at hempty
        cases hempty
  | exit j hj ht hs => exact ⟨hs, ht⟩
  | sleep j hj ht hs =>
      rcases workers_setWorker_eq.mp hi with ⟨-, hw⟩ | ⟨-, hi⟩
      · cases hw
      · exact hold hi
  | execute j t hj | wake j hj | notify e t j he hj =>
      rcases workers_setWorker_eq.mp hi with ⟨-, hw⟩ | ⟨-, hi⟩
      · cases hw
      · exact hold hi
  | setStop hd => exact ⟨rfl, (hold hi).2⟩
  | notifyAll hd =>
      change (if c.workers i = .asleep then Worker.awake else c.workers i) = .exited at hi
      split at hi
      · cases hi
      · exact hold hi
  | _ => exact hold hi

/-- The destructor returns after all workers. -/
theorem Staffed.ended_step (h : c.Staffed) (hs : Step c a c') (hd : c'.destructor = .returned)
    (i : Fin n) : c'.workers i = .exited := by
  have hold : c.destructor = .returned → ∀ j, c.workers j = .exited := h.ended
  have hbusy : ∀ {j w}, c.destructor = .returned → c.workers j = w → w = .exited :=
    fun hd hj => hj.symm.trans (hold hd _)
  cases hs with
  | take j t rest hj | exit j hj | sleep j hj | execute j t hj | wake j hj | notify e t j he hj =>
      cases hbusy hd hj
  | setStop | notifyAll => cases hd
  | join hd hw => exact hw i
  | _ => exact hold hd i

theorem Staffed.step (h : c.Staffed) (hs : Step c a c') : c'.Staffed :=
  ⟨h.executed_step hs, h.exited_step hs, h.wakeup_step hs, h.ended_step hs⟩

/-! ## Runs -/

structure Sound (c : ThreadPool n m) : Prop where
  filed : c.Filed
  staffed : c.Staffed

theorem Sound.next (h : c.Sound) (hn : c.next a = some c') : c'.Sound :=
  ⟨h.filed.step (next_step hn), h.staffed.step (next_step hn)⟩

/-- A new pool. -/
theorem sound_new : ({} : ThreadPool n m).Sound where
  filed := ⟨rfl, List.nodup_nil, (fun _ h => nomatch h), (fun _ _ h => nomatch h),
    (fun _ _ _ h => nomatch h), (fun _ _ h => nomatch h), (fun _ h => nomatch h),
    (fun _ h => nomatch h)⟩
  staffed := by
    have hidle : ∀ t, tally (· = Worker.running t) (fun _ : Fin n => Worker.awake) = 0 :=
      fun t => tally_eq_zero_iff.mpr fun _ h => nomatch h
    refine ⟨fun t => ?_, (fun _ h => nomatch h), (fun _ h => nomatch h), (fun h => nomatch h)⟩
    show 0 = 0 + tally _ fun _ : Fin n => Worker.awake
    rw [hidle]

/-- No task is executed twice, or without having been added. -/
theorem Sound.count_le (h : c.Sound) (t : TaskRef) :
    c.executed.count t ≤ c.taken.count t ∧ c.taken.count t ≤ c.added.count t ∧
      c.added.count t ≤ 1 := by
  refine ⟨?_, ?_, List.nodup_iff_count_le_one.mp h.filed.nodup t⟩
  · rw [h.staffed.executed t]
    exact Nat.le_add_right ..
  · rw [h.filed.order, List.count_append]
    exact Nat.le_add_right ..

/-- **No lost wakeup.**  While there is work, some worker is about to look at the queue or
executes a task, or all sleep and a notification is to come. -/
theorem Sound.someone (h : c.Sound) (hn : 0 < n) (ht : c.tasks ≠ []) :
    (∃ i, c.workers i = .awake) ∨ (∃ i t, c.workers i = .running t) ∨
      (∀ i, c.workers i = .asleep) ∧ ∃ e t, c.callers e = .notifying t := by
  by_cases hawake : ∃ i, c.workers i = .awake
  · exact Or.inl hawake
  by_cases hrunning : ∃ i t, c.workers i = .running t
  · exact Or.inr (Or.inl hrunning)
  have hasleep : ∀ i, c.workers i = .asleep := by
    intro i
    cases hi : c.workers i with
    | awake => exact absurd ⟨i, hi⟩ hawake
    | asleep => rfl
    | running t => exact absurd ⟨i, t, hi⟩ hrunning
    | exited => exact absurd (h.staffed.exited i hi).2 ht
  have hle := h.staffed.wakeup ⟨0, hn⟩ (hasleep _)
  have hnone : tally (· = .awake) c.workers = 0 :=
    tally_eq_zero_iff.mpr fun i hi => hawake ⟨i, hi⟩
  have hlen := List.length_pos_iff.mpr ht
  obtain ⟨e, he⟩ := tally_pos_iff.mp (by omega : 0 < tally (·.isNotifying = true) c.callers)
  refine Or.inr (Or.inr ⟨hasleep, e, ?_⟩)
  cases hc : c.callers e with
  | notifying t => exact ⟨t, rfl⟩
  | _ => rw [hc] at he; cases he

/-- When the destructor has returned, everything that was added has been executed. -/
theorem Sound.count_of_ended (h : c.Sound) (hn : 0 < n) (hd : c.destructor = .returned)
    {t : TaskRef} (ht : t ∈ c.added) : c.executed.count t = 1 := by
  have hexited := h.staffed.ended hd
  have hempty := (h.staffed.exited ⟨0, hn⟩ (hexited _)).2
  have hidle : tally (· = .running t) c.workers = 0 :=
    tally_eq_zero_iff.mpr fun i hi => by rw [hexited i] at hi; cases hi
  have hcount := h.staffed.executed t
  have htaken : c.taken = c.added := by rw [h.filed.order, hempty, List.append_nil]
  rw [hidle, htaken, List.count_eq_one_of_mem h.filed.nodup ht] at hcount
  omega

end

end ThreadPool

end DistributedChat
