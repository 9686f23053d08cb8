import DistributedChat.Core.ThreadPool
import DistributedChat.Logic.Traces

/-!
# Every task is executed exactly once

A task moves forward in the queue whenever a worker takes the one in front, so
it is taken in the end if somebody always comes for the head of the queue.  A
worker that is awake does; a worker that executes a task will be awake again; and
if all sleep, the notification that is to come wakes one (`Sound.someone`).  Each
of these is a step along a fair trace, and the position in the queue is what
gets smaller (`taken_of_tasks`).

With the invariants of all runs this gives the guarantees of the pool
(`thread_pool_lossless`).
-/

namespace DistributedChat

namespace ThreadPool

section

variable {n m : Nat} {c c' : ThreadPool n m} {a : PoolAction n m}

/-! ## Traces -/

/-- A task that waits stays where it is in the queue, moves forward or is taken. -/
theorem Step.waits (hs : Step c a c') {t : TaskRef} (ht : t ∈ c.tasks) :
    (t ∈ c'.tasks ∧ c'.tasks.idxOf t = c.tasks.idxOf t ∧ ∀ i, a ≠ .lock i) ∨
      (t ∈ c'.tasks ∧ c'.tasks.idxOf t < c.tasks.idxOf t) ∨ t ∈ c'.taken := by
  cases hs with
  | add e u he hs =>
      refine Or.inl ⟨List.mem_append_left _ ht, ?_, fun _ h => nomatch h⟩
      exact List.idxOf_append_of_mem ht
  | take i u rest hi hu =>
      rw [hu] at ht ⊢
      rcases List.mem_cons.mp ht with rfl | ht
      · exact Or.inr (Or.inr (List.mem_append_right _ (List.mem_singleton_self t)))
      · by_cases hut : u = t
        · exact Or.inr (Or.inr (List.mem_append_right _ (List.mem_singleton.mpr hut.symm)))
        · refine Or.inr (Or.inl ⟨ht, ?_⟩)
          rw [List.idxOf_cons_ne _ hut]
          exact Nat.lt_succ_self _
  | exit i hi hempty | sleep i hi hempty =>
      rw [hempty] at ht
      cases ht
  | _ => exact Or.inl ⟨ht, rfl, fun _ h => nomatch h⟩

theorem Step.executed_mono (hs : Step c a c') {t : TaskRef} (ht : t ∈ c.executed) :
    t ∈ c'.executed := by
  cases hs with
  | execute => exact List.mem_append_left _ ht
  | _ => exact ht

/-- A worker that is awake stays awake until it looks at the queue. -/
theorem Step.awake (hs : Step c a c') {i : Fin n} (hi : c.workers i = .awake) (ha : a ≠ .lock i) :
    c'.workers i = .awake := by
  cases hs with
  | take j | exit j | sleep j =>
      have hne : i ≠ j := fun h => ha (by rw [h])
      exact workers_setWorker_eq.mpr (Or.inr ⟨hne, hi⟩)
  | execute j t hj | wake j hj | notify e t j he hj =>
      by_cases hij : i = j
      · exact workers_setWorker_eq.mpr (Or.inl ⟨hij, rfl⟩)
      · exact workers_setWorker_eq.mpr (Or.inr ⟨hij, hi⟩)
  | notifyAll =>
      show (if c.workers i = .asleep then Worker.awake else c.workers i) = .awake
      rw [hi]
      rfl
  | _ => exact hi

/-- A worker keeps its task until it executes it. -/
theorem Step.running (hs : Step c a c') {i : Fin n} {u : TaskRef} (hi : c.workers i = .running u)
    (ha : a ≠ .execute i) : c'.workers i = .running u := by
  have hne : ∀ {j : Fin n} {w : Worker}, c.workers j = w → w ≠ .running u → i ≠ j := by
    rintro j w hj hw rfl
    exact hw (hj.symm.trans hi)
  cases hs with
  | take j _ _ hj | exit j hj | sleep j hj | wake j hj | notify _ _ j _ hj =>
      exact workers_setWorker_eq.mpr (Or.inr ⟨hne hj Worker.noConfusion, hi⟩)
  | execute j t hj =>
      have hij : i ≠ j := fun h => ha (by rw [h])
      exact workers_setWorker_eq.mpr (Or.inr ⟨hij, hi⟩)
  | notifyAll =>
      show (if c.workers i = .asleep then Worker.awake else c.workers i) = .running u
      rw [hi]
      rfl
  | _ => exact hi

theorem Step.executes {i : Fin n} (hs : Step c (.execute i) c') :
    c'.workers i = .awake ∧ ∀ u, c.workers i = .running u → u ∈ c'.executed := by
  cases hs with
  | execute i t hi =>
      refine ⟨workers_setWorker_eq.mpr (Or.inl ⟨rfl, rfl⟩), fun u hu => ?_⟩
      rw [hi] at hu
      cases hu
      exact List.mem_append_right _ (List.mem_singleton_self t)

/-- A caller that is about to notify does, and before that only a worker that wakes changes that
all sleep. -/
theorem Step.notifying (hs : Step c a c') (hn : 0 < n) (hasleep : ∀ i, c.workers i = .asleep)
    {e : Fin m} {u : TaskRef} (he : c.callers e = .notifying u) :
    (∃ i, c'.workers i = .awake) ∨
      (∀ i, c'.workers i = .asleep) ∧ c'.callers e = .notifying u ∧ ∀ i, a ≠ .notify e i := by
  have hbusy : ∀ {i : Fin n} {w : Worker}, c.workers i = w → w = .asleep :=
    fun hi => hi.symm.trans (hasleep _)
  have hne : ∀ {e' : Fin m} {w : Caller}, c.callers e' = w → w ≠ .notifying u → e ≠ e' := by
    rintro e' w he' hw rfl
    exact hw (he'.symm.trans he)
  cases hs with
  | call e' he' | refuse e' t he' | add e' t he' =>
      exact Or.inr ⟨hasleep, callers_setCaller_eq.mpr (Or.inr ⟨hne he' Caller.noConfusion, he⟩),
        fun _ h => nomatch h⟩
  | notify e' t j he' hj | wake j hj =>
      exact Or.inl ⟨j, workers_setWorker_eq.mpr (Or.inl ⟨rfl, rfl⟩)⟩
  | notifyNobody e' t he' hnone => exact absurd (hasleep ⟨0, hn⟩) (hnone _)
  | take j _ _ hj | exit j hj | sleep j hj | execute j _ hj => cases hbusy hj
  | notifyAll =>
      refine Or.inl ⟨⟨0, hn⟩, ?_⟩
      show (if c.workers _ = .asleep then Worker.awake else c.workers _) = .awake
      rw [if_pos (hasleep _)]
  | join hd hw => cases hbusy (hw ⟨0, hn⟩)
  | setStop => exact Or.inr ⟨hasleep, he, fun _ h => nomatch h⟩

/-- Threads that can go on do so in the end: the mutex is granted, tasks return, and a thread that
is about to notify notifies. -/
structure Scheduled (T : Trace (next (n := n) (m := m))) : Prop where
  lock : ∀ i, T.Fair (fun c => c.workers i = .awake) (· = .lock i)
  execute : ∀ i, T.Fair (fun c => ∃ t, c.workers i = .running t) (· = .execute i)
  notify : ∀ e, T.Fair (fun c => ∃ t, c.callers e = .notifying t) fun a => ∃ i, a = .notify e i

section

variable {T : Trace (next (n := n) (m := m))} (hT : Scheduled T) {t : TaskRef}

/-- The task is still in the queue, at the position. -/
def WaitsAt (c : ThreadPool n m) (t : TaskRef) (v : Nat) : Prop :=
  t ∈ c.tasks ∧ c.tasks.idxOf t = v

/-- The task has moved forward or was taken. -/
def Moves (c : ThreadPool n m) (t : TaskRef) (v : Nat) : Prop :=
  t ∈ c.tasks ∧ c.tasks.idxOf t < v ∨ t ∈ c.taken

theorem WaitsAt.step {v : Nat} (h : c.WaitsAt t v) (hs : Step c a c') :
    c'.WaitsAt t v ∧ (∀ i, a ≠ .lock i) ∨ c'.Moves t v := by
  obtain ⟨ht, rfl⟩ := h
  rcases hs.waits ht with ⟨ht', hv, hlock⟩ | hmoves
  · exact Or.inl ⟨⟨ht', hv⟩, hlock⟩
  · exact Or.inr hmoves

include hT

/-- A worker that is awake takes a task. -/
theorem moves_of_awake (t : TaskRef) (v : Nat) (i : Fin n) :
    T.LeadsTo (fun c => c.WaitsAt t v ∧ c.workers i = .awake) fun c => c.Moves t v := by
  refine Trace.leadsTo_of_fair (hT.lock i) (fun _ h => h.2) ?_ ?_
  · rintro k a hn ⟨hwaits, hi⟩
    have hs := next_step hn
    rcases hwaits.step hs with ⟨hwaits', hlock⟩ | hmoves
    · exact Or.inl ⟨hwaits', hs.awake hi (hlock i)⟩
    · exact Or.inr hmoves
  · rintro k a hn rfl ⟨hwaits, hi⟩
    rcases hwaits.step (next_step hn) with ⟨-, hlock⟩ | hmoves
    · exact absurd rfl (hlock i)
    · exact hmoves

/-- A worker that is busy will be awake again. -/
theorem awake_of_running (t : TaskRef) (v : Nat) (i : Fin n) :
    T.LeadsTo (fun c => c.WaitsAt t v ∧ ∃ u, c.workers i = .running u)
      fun c => c.WaitsAt t v ∧ c.workers i = .awake ∨ c.Moves t v := by
  refine Trace.leadsTo_of_fair (hT.execute i) (fun _ h => h.2) ?_ ?_
  · rintro k a hn ⟨hwaits, u, hi⟩
    have hs := next_step hn
    rcases hwaits.step hs with ⟨hwaits', -⟩ | hmoves
    · by_cases ha : a = .execute i
      · subst ha
        exact Or.inr (Or.inl ⟨hwaits', hs.executes.1⟩)
      · exact Or.inl ⟨hwaits', u, hs.running hi ha⟩
    · exact Or.inr (Or.inr hmoves)
  · rintro k a hn rfl ⟨hwaits, u, hi⟩
    have hs := next_step hn
    rcases hwaits.step hs with ⟨hwaits', -⟩ | hmoves
    · exact Or.inl ⟨hwaits', hs.executes.1⟩
    · exact Or.inr hmoves

/-- If all sleep, a notification that is to come wakes a worker. -/
theorem awake_of_notifying (hn : 0 < n) (t : TaskRef) (v : Nat) (e : Fin m) :
    T.LeadsTo (fun c => c.WaitsAt t v ∧ (∀ i, c.workers i = .asleep) ∧
        ∃ u, c.callers e = .notifying u)
      fun c => (∃ i, c.WaitsAt t v ∧ c.workers i = .awake) ∨ c.Moves t v := by
  refine Trace.leadsTo_of_fair (hT.notify e) (fun _ h => h.2.2) ?_ ?_
  · rintro k a hnext ⟨hwaits, hasleep, u, he⟩
    have hs := next_step hnext
    rcases hwaits.step hs with ⟨hwaits', -⟩ | hmoves
    · rcases hs.notifying hn hasleep he with ⟨i, hi⟩ | ⟨hasleep', he', -⟩
      · exact Or.inr (Or.inl ⟨i, hwaits', hi⟩)
      · exact Or.inl ⟨hwaits', hasleep', u, he'⟩
    · exact Or.inr (Or.inr hmoves)
  · rintro k a hnext ⟨j, rfl⟩ ⟨hwaits, hasleep, u, he⟩
    have hs := next_step hnext
    rcases hwaits.step hs with ⟨hwaits', -⟩ | hmoves
    · rcases hs.notifying hn hasleep he with ⟨i, hi⟩ | ⟨-, -, hother⟩
      · exact Or.inl ⟨i, hwaits', hi⟩
      · exact absurd rfl (hother j)
    · exact Or.inr hmoves

/-- A task that waits moves forward or is taken. -/
theorem moves_of_waits (hn : 0 < n) (hsound : ∀ k, (T.state k).Sound) (t : TaskRef) (v : Nat) :
    T.LeadsTo (fun c => c.WaitsAt t v) fun c => c.Moves t v := by
  have hdone : T.LeadsTo (fun c => c.Moves t v) fun c => c.Moves t v := .of_imp fun _ => id
  have hawake : T.LeadsTo (fun c => (∃ i, c.WaitsAt t v ∧ c.workers i = .awake) ∨ c.Moves t v)
      fun c => c.Moves t v :=
    (Trace.LeadsTo.exists fun i => moves_of_awake hT t v i).or hdone
  have hrunning : T.LeadsTo (fun c => ∃ i, c.WaitsAt t v ∧ ∃ u, c.workers i = .running u)
      fun c => c.Moves t v :=
    .exists fun i => (awake_of_running hT t v i).trans ((moves_of_awake hT t v i).or hdone)
  have hasleep : T.LeadsTo (fun c => ∃ e, c.WaitsAt t v ∧ (∀ i, c.workers i = .asleep) ∧
      ∃ u, c.callers e = .notifying u) fun c => c.Moves t v :=
    .exists fun e => (awake_of_notifying hT hn t v e).trans hawake
  intro k hwaits
  rcases (hsound k).someone hn (List.ne_nil_of_mem hwaits.1) with
    ⟨i, hi⟩ | ⟨i, u, hi⟩ | ⟨hall, e, u, he⟩
  · exact hawake k (Or.inl ⟨i, hwaits, hi⟩)
  · exact hrunning k ⟨i, hwaits, u, hi⟩
  · exact hasleep k ⟨e, hwaits, hall, u, he⟩

theorem taken_of_tasks (hn : 0 < n) (hsound : ∀ k, (T.state k).Sound) (t : TaskRef) :
    T.LeadsTo (fun c => t ∈ c.tasks) fun c => t ∈ c.taken :=
  Trace.leadsTo_of_measure (fun c => c.tasks.idxOf t) fun v => moves_of_waits hT hn hsound t v

theorem executed_of_taken (hsound : ∀ k, (T.state k).Sound) (t : TaskRef) :
    T.LeadsTo (fun c => t ∈ c.taken) fun c => t ∈ c.executed := by
  have hrunning : T.LeadsTo (fun c => ∃ i, c.workers i = .running t) fun c => t ∈ c.executed := by
    refine .exists fun i => Trace.leadsTo_of_fair (hT.execute i) (fun _ h => ⟨t, h⟩) ?_ ?_
    · intro k a hn hi
      by_cases ha : a = .execute i
      · subst ha
        exact Or.inr ((next_step hn).executes.2 t hi)
      · exact Or.inl ((next_step hn).running hi ha)
    · rintro k a hn rfl hi
      exact (next_step hn).executes.2 t hi
  intro k ht
  by_cases hdone : t ∈ (T.state k).executed
  · exact ⟨k, Nat.le_refl k, hdone⟩
  · have hcount := (hsound k).staffed.executed t
    have hpos := List.count_pos_iff.mpr ht
    rw [List.count_eq_zero.mpr hdone, Nat.zero_add] at hcount
    exact hrunning k (tally_pos_iff.mp (hcount ▸ hpos))

/-- What was added is executed. -/
theorem executed_of_added (hn : 0 < n) (hsound : ∀ k, (T.state k).Sound) (t : TaskRef) :
    T.LeadsTo (fun c => t ∈ c.added) fun c => t ∈ c.executed := by
  intro k ht
  rw [(hsound k).filed.order] at ht
  rcases List.mem_append.mp ht with ht | ht
  · exact executed_of_taken hT hsound t k ht
  · exact (taken_of_tasks hT hn hsound t).trans (executed_of_taken hT hsound t) k ht

end

/-! ## The guarantees -/

/-- What holds of a pool in every state of every run. -/
structure Lossless (c : ThreadPool n m) : Prop where
  /-- Tasks are taken in the order in which they were added. -/
  order : c.added = c.taken ++ c.tasks
  /-- A task is executed at most as often as it was added, and that is at most once. -/
  once : ∀ t, c.executed.count t ≤ c.added.count t ∧ c.added.count t ≤ 1
  /-- No worker exits while there are tasks. -/
  exit : ∀ i, c.workers i = .exited → c.tasks = []
  /-- Not all workers sleep while there are tasks and no notification is to come. -/
  wakeup : (∀ i, c.workers i = .asleep) → (∀ e t, c.callers e ≠ .notifying t) → c.tasks = []
  /-- When the destructor returns, every task that was added has been executed. -/
  ended : c.destructor = .returned → ∀ t ∈ c.added, c.executed.count t = 1

theorem Sound.lossless (h : c.Sound) (hn : 0 < n) : c.Lossless where
  order := h.filed.order
  once := fun t => ⟨(h.count_le t).1.trans (h.count_le t).2.1, (h.count_le t).2.2⟩
  exit := fun i hi => (h.staffed.exited i hi).2
  wakeup := by
    intro hasleep hnone
    by_contra ht
    rcases h.someone hn ht with ⟨i, hi⟩ | ⟨i, t, hi⟩ | ⟨-, e, t, he⟩
    · rw [hasleep i] at hi
      cases hi
    · rw [hasleep i] at hi
      cases hi
    · exact hnone e t he
  ended := fun hd _ ht => h.count_of_ended hn hd ht

/-- After `m_stop` is set nothing is added, and an `Enqueue` whose task was not added by then does
not return: it throws, or has not yet locked the queue. -/
def Closed (c : ThreadPool n m) : Prop :=
  c.stop = true → ∀ bs d, exec next c bs = some d → d.added = c.added ∧
    ∀ t < d.made, t ∉ c.added →
      t ∉ d.returned ∧ (t ∈ d.refused ∨ ∃ e, d.callers e = .calling t)

theorem Step.stopped (hs : Step c a c') (hstop : c.stop = true) :
    c'.stop = true ∧ c'.added = c.added := by
  cases hs with
  | add e t he hs =>
      rw [hstop] at hs
      cases hs
  | setStop => exact ⟨rfl, rfl⟩
  | _ => exact ⟨hstop, rfl⟩

theorem Sound.closed (h : c.Sound) : c.Closed := by
  intro hstop bs d hrun
  have hd : d.Sound := exec_invariant Sound.next h hrun
  have hadded : d.stop = true ∧ d.added = c.added := by
    refine exec_invariant (I := fun d => d.stop = true ∧ d.added = c.added) ?_ ⟨hstop, rfl⟩ hrun
    rintro d a d' ⟨hs, ha⟩ hn
    obtain ⟨hs', ha'⟩ := (next_step hn).stopped hs
    exact ⟨hs', ha'.trans ha⟩
  refine ⟨hadded.2, fun t ht hnew => ?_⟩
  rw [← hadded.2] at hnew
  exact ⟨fun hr => hnew (hd.filed.returned t hr), (hd.filed.made t ht).resolve_left hnew⟩

end

/-- **The thread pool** loses and duplicates nothing, whatever the interleaving; and along every
trace in which threads that can go on do so in the end, a task whose `Enqueue` returned is
executed exactly once. -/
theorem thread_pool_lossless {n m : Nat} (hn : 0 < n) :
    (∀ as c, exec next ({} : ThreadPool n m) as = some c → c.Lossless ∧ c.Closed) ∧
    ∀ T : Trace (next (n := n) (m := m)), T.state 0 = {} → Scheduled T →
      ∀ k, ∀ t ∈ (T.state k).returned,
        ∃ l, k ≤ l ∧ ∀ r, l ≤ r → (T.state r).executed.count t = 1 := by
  constructor
  · intro as c hrun
    have hc : c.Sound := exec_invariant Sound.next sound_new hrun
    exact ⟨hc.lossless hn, hc.closed⟩
  · intro T hstart hT k t ht
    have hsound : ∀ k, (T.state k).Sound := T.always Sound.next (hstart ▸ sound_new)
    obtain ⟨l, hkl, hl⟩ := executed_of_added hT hn hsound t k ((hsound k).filed.returned t ht)
    refine ⟨l, hkl, fun r hr => ?_⟩
    have hstays : t ∈ (T.state r).executed :=
      @Trace.always_from _ _ _ T (fun c => t ∈ c.executed) l
        (fun _ _ h _ _ hn => (next_step hn).executed_mono h) hl r hr
    have hpos := List.count_pos_iff.mpr hstays
    obtain ⟨h₁, h₂, h₃⟩ := (hsound r).count_le t
    omega

/-- One of two workers executes the task, and both go to sleep. -/
def oneTask : List (PoolAction 2 1) :=
  [.call 0, .enter 0, .notify 0 none, .lock 0, .execute 0, .lock 0, .lock 1]

/-- The task is executed exactly once. -/
theorem thread_pool_lossless_oneTask :
    ∃ T : Trace (next (n := 2) (m := 1)), T.state 0 = {} ∧ Scheduled T ∧
      0 ∈ (T.state 7).returned ∧ ∃ l, 7 ≤ l ∧ ∀ r, l ≤ r → (T.state r).executed.count 0 = 1 := by
  have hrun : (exec next {} oneTask).any fun c => decide ((∀ i, c.workers i = .asleep) ∧
      (∀ e, c.callers e = .idle) ∧ c.returned = [0]) := by decide +kernel
  obtain ⟨c, hc, hrun⟩ := (Option.any_eq_true ..).mp hrun
  obtain ⟨hworkers, hcallers, hreturned⟩ := of_decide_eq_true hrun
  have hT : Scheduled (Trace.ofRun oneTask hc) :=
    ⟨fun i => Trace.fair_ofRun hc (by rw [hworkers i]; exact Worker.noConfusion),
      fun i => Trace.fair_ofRun hc (by rw [hworkers i]; exact fun ⟨_, h⟩ => nomatch h),
      fun e => Trace.fair_ofRun hc (by rw [hcallers e]; exact fun ⟨_, h⟩ => nomatch h)⟩
  have hmem : 0 ∈ ((Trace.ofRun oneTask hc).state 7).returned := by
    rw [Trace.state_ofRun hc (by decide), hreturned]
    exact List.mem_singleton_self 0
  exact ⟨_, rfl, hT, hmem, (thread_pool_lossless (by decide)).2 _ rfl hT 7 0 hmem⟩

end ThreadPool

end DistributedChat
