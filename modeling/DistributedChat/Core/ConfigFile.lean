import DistributedChat.Core.ConfigManager

/-!
# Configuration files that are written

A file with one line `key = value` for each entry is read back entry by entry, up to
two things the reader does: blanks around keys and values are cut, and of two entries
with one key the later one counts.  So entries whose ends are not blank (`Writable`) are
all found again when no key has two values (`lookup_loaded_render`).
-/

namespace DistributedChat

namespace ConfigManager

/-- The line of an entry. -/
def entryLine (e : Bytes × Bytes) : Bytes := e.1 ++ ascii " = " ++ e.2

/-- A file with the entries. -/
def render (es : List (Bytes × Bytes)) : Bytes := es.flatMap fun e => entryLine e ++ [newline]

/-- The key and the value of the entry can be told apart in its line. -/
structure Writable (e : Bytes × Bytes) : Prop where
  key_ne : e.1 ≠ []
  key_trim : trim e.1 = e.1
  key_plain : 61 ∉ e.1 ∧ newline ∉ e.1
  no_comment : e.1.head? ≠ some 35 ∧ e.1.head? ≠ some 59
  val_trim : trim e.2 = e.2
  val_line : newline ∉ e.2

section

variable {e : Bytes × Bytes} {es : List (Bytes × Bytes)} {key val line : Bytes} {m : ConfigManager}

/-! ## Lines -/

theorem linesFrom_append (h : newline ∉ line) (current rest : Bytes) :
    linesFrom current (line ++ rest) = linesFrom (current ++ line) rest := by
  induction line generalizing current with
  | nil => rw [List.nil_append, List.append_nil]
  | cons c line ih =>
      obtain ⟨hc, hline⟩ := not_or.mp (mt List.mem_cons.mpr h)
      rw [List.cons_append, linesFrom, if_neg (Ne.symm hc), ih hline, List.append_assoc,
        List.singleton_append]

theorem lines_append_newline (h : newline ∉ line) (rest : Bytes) :
    lines (line ++ newline :: rest) = line :: lines rest := by
  rw [lines, linesFrom_append h, List.nil_append, linesFrom, if_pos rfl]
  rfl

theorem Writable.newline_not_mem (h : Writable e) : newline ∉ entryLine e := by
  have hsep : newline ∉ ascii " = " := by decide
  simp [entryLine, h.key_plain.2, h.val_line, hsep]

/-- The lines of the file are those of its entries. -/
theorem lines_render (hes : ∀ e ∈ es, Writable e) : lines (render es) = es.map entryLine := by
  induction es with
  | nil => rfl
  | cons e es ih =>
      have he := (hes e (List.mem_cons_self ..)).newline_not_mem
      rw [render, List.flatMap_cons, List.append_assoc, List.singleton_append,
        lines_append_newline he, List.map_cons]
      exact congrArg _ (ih fun e he => hes e (List.mem_cons_of_mem _ he))

/-! ## Entries -/

/-- A trimmed string with a blank behind it. -/
theorem trim_append_blank (h : trim key = key) (hne : key ≠ []) : trim (key ++ [32]) = key := by
  rw [trim, dropWhile_append_of_trimmed h hne, List.rdropWhile_concat_pos _ _ _ (by decide)]
  exact (trim_eq_self_iff.mp h).2

theorem trim_cons_blank (h : trim val = val) : trim (32 :: val) = val := by
  rw [trim, List.dropWhile_cons_of_pos (by decide)]
  exact h

/-- What is left of the line of an entry when its ends are cut. -/
theorem Writable.trim_entryLine (h : Writable e) :
    trim (entryLine e) = (e.1 ++ [32]) ++ 61 :: if e.2 = [] then [] else 32 :: e.2 := by
  obtain ⟨key, val⟩ := e
  have hsep : ascii " = " = [32, 61, 32] := by decide
  have hdrop := dropWhile_append_of_trimmed h.key_trim h.key_ne
  show trim (key ++ ascii " = " ++ val) = _
  rw [trim, List.append_assoc, hdrop, hsep]
  by_cases hval : val = []
  · subst hval
    rw [if_pos rfl, List.append_nil, show key ++ [32, 61, 32] = (key ++ [32, 61]) ++ [32] by simp,
      List.rdropWhile_concat_pos _ _ _ (by decide), show key ++ [32, 61] = (key ++ [32]) ++ [61] by
      simp, List.rdropWhile_concat_neg _ _ _ (by decide)]
  · rw [if_neg hval, ← List.append_assoc, rdropWhile_append_of_trimmed h.val_trim hval]
    simp

theorem Writable.not_skipped (h : Writable e) : ¬ Skipped (trim (entryLine e)) := by
  obtain ⟨c, cs, hkey⟩ := List.exists_cons_of_ne_nil h.key_ne
  have hcomment := h.no_comment
  rw [h.trim_entryLine, Skipped, hkey]
  rw [hkey] at hcomment
  simpa using hcomment

/-- The line of an entry sets its key to its value. -/
theorem loadLine_entryLine (h : Writable e) : m.loadLine (entryLine e) = m.set e.1 e.2 := by
  have heq : 61 ∉ e.1 ++ [32] := by simp [h.key_plain.1]
  rw [loadLine, if_neg h.not_skipped, h.trim_entryLine, loadEntry_append heq,
    trim_append_blank h.key_trim h.key_ne]
  split
  next hval =>
    rw [hval]
    rfl
  next => rw [trim_cons_blank h.val_trim]

theorem loaded_render (hes : ∀ e ∈ es, Writable e) :
    loaded (render es) = es.foldl (fun m e => m.set e.1 e.2) {} := by
  show (lines (render es)).foldl loadLine {} = _
  rw [lines_render hes, List.foldl_map]
  generalize ({} : ConfigManager) = m
  induction es generalizing m with
  | nil => rfl
  | cons e es ih =>
      rw [List.foldl_cons, List.foldl_cons, loadLine_entryLine (hes e (List.mem_cons_self ..))]
      exact ih (fun e he => hes e (List.mem_cons_of_mem _ he)) _

theorem lookup_foldl_set (hkey : key ≠ []) (hval : ∀ v, (key, v) ∈ es → v = val) :
    (es.foldl (fun (m : ConfigManager) e => m.set e.1 e.2) {}).configs.lookup key = some val ↔
      (key, val) ∈ es := by
  induction es using List.reverseRecOn with
  | nil => simp
  | append_singleton es e ih =>
      obtain ⟨k, v⟩ := e
      rw [List.foldl_concat, lookup_set hkey]
      by_cases hk : key = k
      · have hv : v = val := hval v (by simp [hk])
        rw [if_pos hk, hk, hv]
        simp
      · rw [if_neg hk, ih fun w hw => hval w (List.mem_append_left _ hw)]
        simp [hk]

/-- An entry is found again if its key has no other value. -/
theorem lookup_loaded_render (hes : ∀ e ∈ es, Writable e) (hmem : (key, val) ∈ es)
    (hval : ∀ v, (key, v) ∈ es → v = val) : (loaded (render es)).configs.lookup key = some val := by
  rw [loaded_render hes]
  exact (lookup_foldl_set (hes _ hmem).key_ne hval).mpr hmem

end

end ConfigManager

end DistributedChat
