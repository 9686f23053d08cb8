import DistributedChat.Logic.Runs
import Mathlib.Data.List.Basic
import Mathlib.Data.List.Nodup
import Mathlib.Data.List.DropRight
import Mathlib.Logic.Function.Basic

/-!
# Writers that share a stream

Each of a set of writers has a word to write.  A write appends a part of what is
left of the word, as long as the stream takes it, and may be refused.  Nothing
but the order of the writes is up to the run, and every symbol of the stream
remembers who wrote it.

A writer is *midway* if it has begun and not ended.  The words come out whole
exactly in the runs in which nobody writes while somebody else is midway
(`whole_iff_undisturbed`).
-/

/-- Writers `ι` of words over `α`. -/
structure Writers (ι α : Type) where
  /-- What has been written, and by whom. -/
  stream : List (ι × α) := []
  /-- What each writer has still to write. -/
  left : ι → List α

/-- What happens to the stream. -/
inductive WriterAction (ι : Type) where
  /-- The stream takes `n` symbols of a writer. -/
  | write (i : ι) (n : Nat)
  /-- The stream takes nothing. -/
  | refuse (i : ι)
deriving DecidableEq, Repr

namespace Writers

variable {ι α : Type} [DecidableEq ι]

/-- Nothing is written yet. -/
def start (word : ι → List α) : Writers ι α := { left := word }

/-- Symbols with their writer. -/
def signed (i : ι) (xs : List α) : List (ι × α) := xs.map (Prod.mk i)

/-- The symbols of a writer in a stream. -/
def share (i : ι) (xs : List (ι × α)) : List α := (xs.filter (·.1 = i)).map Prod.snd

/-- The stream takes `n` symbols of a writer. -/
def written (w : Writers ι α) (i : ι) (n : Nat) : Writers ι α where
  stream := w.stream ++ signed i ((w.left i).take n)
  left := Function.update w.left i ((w.left i).drop n)

/-- One action.  A write is not empty and not more than what is left. -/
def next (w : Writers ι α) : WriterAction ι → Option (Writers ι α)
  | .write i n => if 0 < n ∧ n ≤ (w.left i).length then some (w.written i n) else none
  | .refuse i => if w.left i = [] then none else some w

/-- What has been written. -/
def contents (w : Writers ι α) : List α := w.stream.map Prod.snd

/-- All words are written. -/
def Done (w : Writers ι α) : Prop := ∀ i, w.left i = []

/-- The writer has begun its word and not ended it. -/
def Midway (w : Writers ι α) (i : ι) : Prop := share i w.stream ≠ [] ∧ w.left i ≠ []

/-- Nobody writes while somebody else is midway. -/
def Undisturbed (w : Writers ι α) : WriterAction ι → Prop
  | .write i _ => ∀ j, j ≠ i → ¬ w.Midway j
  | .refuse _ => True

instance {n : Nat} (w : Writers (Fin n) α) : Decidable w.Done :=
  inferInstanceAs (Decidable (∀ i, w.left i = []))

instance (w : Writers ι α) (i : ι) : Decidable (w.Midway i) :=
  inferInstanceAs (Decidable (_ ∧ _))

instance {n : Nat} (w : Writers (Fin n) α) (a : WriterAction (Fin n)) :
    Decidable (w.Undisturbed a) :=
  match a with
  | .write i _ => inferInstanceAs (Decidable (∀ j, j ≠ i → ¬ w.Midway j))
  | .refuse _ => isTrue trivial

/-- The stream consists of whole words, one for each writer of a list. -/
def Whole (word : ι → List α) (w : Writers ι α) : Prop :=
  ∃ order : List ι, order.Nodup ∧ (∀ i, i ∈ order ↔ word i ≠ []) ∧
    w.stream = order.flatMap fun i => signed i (word i)

omit [DecidableEq ι] in
theorem map_snd_signed (i : ι) (xs : List α) : (signed i xs).map Prod.snd = xs := by
  rw [signed, List.map_map]
  exact List.map_id _

/-! ## The symbols of one writer -/

@[simp] theorem share_nil (i : ι) : share i ([] : List (ι × α)) = [] := rfl

theorem share_append (i : ι) (xs ys : List (ι × α)) :
    share i (xs ++ ys) = share i xs ++ share i ys := by
  rw [share, share, share, List.filter_append, List.map_append]

@[simp] theorem share_signed_self (i : ι) (xs : List α) : share i (signed i xs) = xs := by
  induction xs with
  | nil => rfl
  | cons x xs ih => simpa [share, signed] using ih

theorem share_signed_of_ne {i j : ι} (h : j ≠ i) (xs : List α) : share i (signed j xs) = [] := by
  rw [share, signed, List.filter_eq_nil_iff.mpr, List.map_nil]
  intro p hp
  obtain ⟨x, -, rfl⟩ := List.mem_map.mp hp
  simpa using h

theorem mem_of_share_ne_nil {i : ι} {xs : List (ι × α)} (h : share i xs ≠ []) :
    i ∈ xs.map Prod.fst := by
  obtain ⟨x, hx⟩ := List.exists_mem_of_ne_nil _ h
  obtain ⟨p, hp, -⟩ := List.mem_map.mp hx
  obtain ⟨hp, hi⟩ := List.mem_filter.mp hp
  exact List.mem_map.mpr ⟨p, hp, of_decide_eq_true hi⟩

/-! ## What a run writes -/

section

variable {w w' : Writers ι α} {a : WriterAction ι} {i j : ι} {n : Nat}

theorem next_write : w.next (.write i n) = some w' ↔
    (0 < n ∧ n ≤ (w.left i).length) ∧ w' = w.written i n := by
  rw [next, Option.ite_none_right_eq_some, Option.some.injEq, eq_comm (a := w')]

theorem next_refuse (h : w.next (.refuse i) = some w') : w' = w := by
  rw [next, Option.ite_none_left_eq_some] at h
  cases h.2
  rfl

theorem left_written : (w.written i n).left j = if j = i then (w.left i).drop n else w.left j :=
  Function.update_apply ..

/-- What one action writes of a word is taken from what was left of it. -/
theorem grows_next (h : w.next a = some w') :
    ∃ more, w'.stream = w.stream ++ more ∧ ∀ j, w.left j = share j more ++ w'.left j := by
  cases a with
  | write i n =>
      obtain ⟨-, rfl⟩ := next_write.mp h
      refine ⟨signed i ((w.left i).take n), rfl, fun j => ?_⟩
      rw [left_written]
      split
      next hj =>
        subst hj
        rw [share_signed_self, List.take_append_drop]
      next hj => rw [share_signed_of_ne (Ne.symm hj), List.nil_append]
  | refuse i =>
      cases next_refuse h
      exact ⟨[], (List.append_nil _).symm, fun j => rfl⟩

/-- What a run writes of a word is taken from what was left of it. -/
theorem grows {as : List (WriterAction ι)} (h : exec next w as = some w') :
    ∃ more, w'.stream = w.stream ++ more ∧ ∀ j, w.left j = share j more ++ w'.left j := by
  induction as generalizing w with
  | nil =>
      cases h
      exact ⟨[], (List.append_nil _).symm, fun j => rfl⟩
  | cons a as ih =>
      obtain ⟨v, hv, h⟩ := exec_cons_eq_some.mp h
      obtain ⟨xs, hxs, hleft⟩ := grows_next hv
      obtain ⟨ys, hys, hleft'⟩ := ih h
      refine ⟨xs ++ ys, by rw [hys, hxs, List.append_assoc], fun j => ?_⟩
      rw [hleft, hleft', share_append, List.append_assoc]

/-- Of every word the stream has a beginning. -/
theorem share_stream {word : ι → List α} {as : List (WriterAction ι)}
    (h : exec next (start word) as = some w) (j : ι) :
    share j w.stream ++ w.left j = word j := by
  obtain ⟨more, hstream, hleft⟩ := grows h
  rw [hstream]
  exact (hleft j).symm

end

/-! ## Writing one word at a time -/

/-- The writers of a list have begun in this order, and all but the last have
ended; what each has written stands together. -/
structure Orderly (w : Writers ι α) (order : List ι) : Prop where
  nodup : order.Nodup
  begun : ∀ i, i ∈ order ↔ share i w.stream ≠ []
  ended : ∀ i ∈ order.dropLast, w.left i = []
  stream : w.stream = order.flatMap fun i => signed i (share i w.stream)

theorem orderly_start (word : ι → List α) : Orderly (start word) [] where
  nodup := .nil
  begun := fun _ => ⟨fun h => absurd h List.not_mem_nil, fun h => absurd rfl h⟩
  ended := fun _ h => absurd h List.not_mem_nil
  stream := rfl

section

variable {w w' : Writers ι α} {a : WriterAction ι} {order : List ι}

/-- Before a writer's own symbols stand those of others, whole words if nobody
else is midway. -/
theorem Orderly.split (h : Orderly w order) {i : ι} (hi : w.left i ≠ []) :
    ∃ pre : List ι, pre.Nodup ∧ i ∉ pre ∧ (∀ j, j ≠ i → (j ∈ pre ↔ share j w.stream ≠ [])) ∧
      w.stream = pre.flatMap (fun j => signed j (share j w.stream)) ++
        signed i (share i w.stream) := by
  by_cases hmem : i ∈ order
  · -- it has begun and not ended, so it is the last that has begun
    rcases order.eq_nil_or_concat' with rfl | ⟨pre, l, rfl⟩
    · exact absurd hmem List.not_mem_nil
    · have hnot : i ∉ pre := fun hpre =>
        hi (h.ended i (by rw [List.dropLast_concat]; exact hpre))
      obtain rfl : i = l := by simpa [hnot] using hmem
      refine ⟨pre, (List.nodup_append.mp h.nodup).1, hnot, fun j hj => ?_, ?_⟩
      · rw [← h.begun j, List.mem_append, List.mem_singleton, or_iff_left hj]
      · rw [← List.flatMap_singleton (fun j => signed j (share j w.stream)) i,
          ← List.flatMap_append]
        exact h.stream
  · have hnone : share i w.stream = [] := by
      by_contra hne
      exact hmem ((h.begun i).mpr hne)
    refine ⟨order, h.nodup, hmem, fun j _ => h.begun j, ?_⟩
    rw [hnone]
    exact h.stream.trans (List.append_nil _).symm

/-- An undisturbed write goes on with the last word or, if that is ended, begins
another one. -/
theorem Orderly.next (h : Orderly w order) (hP : w.Undisturbed a) (hn : w.next a = some w') :
    ∃ order', Orderly w' order' := by
  cases a with
  | refuse i =>
      cases next_refuse hn
      exact ⟨order, h⟩
  | write i n =>
      obtain ⟨⟨hpos, hle⟩, rfl⟩ := next_write.mp hn
      have hi : w.left i ≠ [] := List.ne_nil_of_length_pos (Nat.lt_of_lt_of_le hpos hle)
      obtain ⟨pre, hnodup, hnot, hbegun, hstream⟩ := h.split hi
      have hself : share i (w.written i n).stream = share i w.stream ++ (w.left i).take n := by
        show share i (w.stream ++ _) = _
        rw [share_append, share_signed_self]
      have hother : ∀ j, j ≠ i → share j (w.written i n).stream = share j w.stream := by
        intro j hj
        show share j (w.stream ++ _) = _
        rw [share_append, share_signed_of_ne (Ne.symm hj), List.append_nil]
      have hne : ∀ {j}, j ∈ pre → j ≠ i := fun hj he => hnot (he ▸ hj)
      refine ⟨pre ++ [i], ?_, fun j => ?_, fun j hj => ?_, ?_⟩
      · rw [List.nodup_append]
        refine ⟨hnodup, List.nodup_singleton i, fun j hj k hk => ?_⟩
        rw [List.mem_singleton.mp hk]
        exact hne hj
      · rw [List.mem_append, List.mem_singleton]
        by_cases hj : j = i
        · subst hj
          have htake : (w.left j).take n ≠ [] :=
            List.ne_nil_of_length_pos (by rw [List.length_take]; omega)
          rw [hself]
          simp [htake]
        · rw [hother j hj, or_iff_left hj]
          exact hbegun j hj
      · rw [List.dropLast_concat] at hj
        rw [left_written, if_neg (hne hj)]
        by_contra hleft
        exact hP j (hne hj) ⟨(hbegun j (hne hj)).mp hj, hleft⟩
      · have hpre : (pre.flatMap fun j => signed j (share j (w.written i n).stream)) =
            pre.flatMap fun j => signed j (share j w.stream) :=
          List.flatMap_congr fun j hj => by rw [hother j (hne hj)]
        rw [List.flatMap_append, List.flatMap_singleton, hpre, hself]
        show w.stream ++ signed i ((w.left i).take n) = _
        conv_lhs => rw [hstream]
        rw [signed, signed, signed, List.map_append, List.append_assoc]

/-- In an undisturbed run the words come one after the other. -/
theorem exists_orderly {word : ι → List α} {as : List (WriterAction ι)}
    (hP : Along Writers.next Undisturbed (start word) as)
    (h : exec Writers.next (start word) as = some w) : ∃ order, Orderly w order :=
  exec_induct (I := fun w : Writers ι α => ∃ order, Orderly w order)
    (fun ⟨_, horder⟩ hu hn => horder.next hu hn) ⟨[], orderly_start word⟩ hP h

/-- An undisturbed run writes whole words. -/
theorem whole_of_undisturbed {word : ι → List α} {as : List (WriterAction ι)}
    (hP : Along Writers.next Undisturbed (start word) as)
    (h : exec Writers.next (start word) as = some w) (hdone : w.Done) : Whole word w := by
  obtain ⟨order, horder⟩ := exists_orderly hP h
  have hshare : ∀ i, share i w.stream = word i := fun i => by
    rw [← share_stream h i, hdone i, List.append_nil]
  refine ⟨order, horder.nodup, fun i => ?_, ?_⟩
  · rw [horder.begun i, hshare i]
  · rw [horder.stream]
    exact List.flatMap_congr fun i _ => by rw [hshare i]

end

/-! ## A disturbed word is torn -/

/-- Nobody else is between two occurrences of the same. -/
def Together (ws : List ι) : Prop := ∀ i j, [i, j, i].Sublist ws → j = i

omit [DecidableEq ι] in
theorem Together.replicate_append {ws : List ι} (h : Together ws) {k : ι} (hk : k ∉ ws) (n : Nat) :
    Together (List.replicate n k ++ ws) := by
  intro i j hs
  obtain ⟨l₁, l₂, heq, h₁, h₂⟩ := List.sublist_append_iff.mp hs
  have hin : ∀ x ∈ l₁, x = k := fun x hx => List.eq_of_mem_replicate (h₁.subset hx)
  rcases l₁ with - | ⟨x, l₁⟩
  · exact h i j (heq ▸ h₂)
  · have hx : i = x := (List.cons.inj heq).1
    have hik : i = k := hx.trans (hin x (List.mem_cons_self ..))
    rcases l₂.eq_nil_or_concat' with rfl | ⟨l₂, y, rfl⟩
    · rw [List.append_nil] at heq
      exact (hin j (heq ▸ by simp)).trans hik.symm
    · -- the last of the three is in what follows, where `k` is not
      have hlast : i = y := by
        have hends := congrArg List.getLast? heq
        rw [← List.append_assoc, List.getLast?_concat] at hends
        exact Option.some.inj hends
      have hmem : k ∈ ws :=
        hik ▸ h₂.subset (hlast ▸ List.mem_append_right _ (List.mem_singleton_self _))
      exact absurd hmem hk

omit [DecidableEq ι] in
/-- In a sequence of words, one for each writer, the symbols of a writer stand
together. -/
theorem together_flatMap {word : ι → List α} {order : List ι} (h : order.Nodup) :
    Together ((order.flatMap fun i => signed i (word i)).map Prod.fst) := by
  induction order with
  | nil => exact fun _ _ hs => nomatch hs
  | cons k order ih =>
      obtain ⟨hk, hnodup⟩ := List.nodup_cons.mp h
      have hsigned : (signed k (word k)).map Prod.fst = List.replicate (word k).length k := by
        rw [signed, List.map_map]
        exact List.map_const' ..
      rw [List.flatMap_cons, List.map_append, hsigned]
      refine (ih hnodup).replicate_append (fun hmem => hk ?_) _
      obtain ⟨p, hp, rfl⟩ := List.mem_map.mp hmem
      obtain ⟨i, hi, hp⟩ := List.mem_flatMap.mp hp
      obtain ⟨x, -, rfl⟩ := List.mem_map.mp hp
      exact hi

/-- Words come out whole only if nobody writes while somebody else is midway. -/
theorem undisturbed_of_whole {word : ι → List α} {w : Writers ι α} {as : List (WriterAction ι)}
    (h : exec next (start word) as = some w) (hdone : w.Done) (hwhole : Whole word w) :
    Along next Undisturbed (start word) as := by
  refine along_of_splits fun pre a post u has hu => ?_
  subst has
  cases a with
  | refuse i => trivial
  | write i n =>
      rintro j hj ⟨hbegun, hleft⟩
      obtain ⟨u', hu', hrest⟩ := exec_append_eq_some.mp h
      cases hu.symm.trans hu'
      obtain ⟨v, hv, hpost⟩ := exec_cons_eq_some.mp hrest
      obtain ⟨more, hmore, hshare⟩ := grows hpost
      obtain ⟨⟨hpos, hle⟩, rfl⟩ := next_write.mp hv
      -- the disturbed writer has symbols before and after the write
      have hafter : share j more ≠ [] := by
        have hj' := hshare j
        rw [left_written, if_neg hj, hdone j, List.append_nil] at hj'
        exact hj' ▸ hleft
      have hmid : i ∈ (signed i ((u.left i).take n)).map Prod.fst := by
        refine mem_of_share_ne_nil ?_
        rw [share_signed_self]
        exact List.ne_nil_of_length_pos (by rw [List.length_take]; omega)
      obtain ⟨order, hnodup, -, hstream⟩ := hwhole
      have htogether : Together ((order.flatMap fun i => signed i (word i)).map Prod.fst) :=
        together_flatMap hnodup
      rw [← hstream, hmore] at htogether
      refine hj (htogether j i ?_).symm
      show [j, i, j].Sublist ((u.stream ++ signed i ((u.left i).take n) ++ more).map Prod.fst)
      rw [List.map_append, List.map_append]
      exact (List.singleton_sublist.mpr (mem_of_share_ne_nil hbegun)).append
        (List.singleton_sublist.mpr hmid) |>.append
        (List.singleton_sublist.mpr (mem_of_share_ne_nil hafter))

/-- **Whole words.**  A run that ends all words has written whole words exactly if
nobody wrote while somebody else was midway. -/
theorem whole_iff_undisturbed {word : ι → List α} {w : Writers ι α}
    {as : List (WriterAction ι)} (h : exec next (start word) as = some w) (hdone : w.Done) :
    Whole word w ↔ Along next Undisturbed (start word) as :=
  ⟨undisturbed_of_whole h hdone, fun hP => whole_of_undisturbed hP h hdone⟩

end Writers
