import DistributedChat.Protocol.Packet

/-!
# The field codec

`Pack` terminates every field by a NUL.  `Unpack` cuts at the NULs and keeps
what follows the last one only if it is not empty.  So a field without NUL at
the head of a packed list is decoded as itself, whatever follows it, and a list
of such fields is decoded as itself.  `codec_laws` says what the two do to
arbitrary fields and to arbitrary strings.
-/

namespace DistributedChat

/-- `MessageSerializer::Pack`. -/
def pack : List Bytes → Bytes
  | [] => []
  | field :: fields => field ++ nul :: pack fields

/-- The loop of `Unpack`, with the field read so far. -/
def unpackFrom (current : Bytes) : Bytes → List Bytes
  | [] => if current = [] then [] else [current]
  | c :: cs => if c = nul then current :: unpackFrom [] cs else unpackFrom (current ++ [c]) cs

/-- `MessageSerializer::Unpack`. -/
def unpack (packed : Bytes) : List Bytes := unpackFrom [] packed

/-- The loop reads a field without NUL up to its delimiter. -/
theorem unpackFrom_append_nul {f : Bytes} (h : NulFree f) (current rest : Bytes) :
    unpackFrom current (f ++ nul :: rest) = (current ++ f) :: unpack rest := by
  induction f generalizing current with
  | nil => simp [unpackFrom, unpack]
  | cons c cs ih =>
      have hc : c ≠ nul := fun he => h (he ▸ List.mem_cons_self ..)
      have hcs : NulFree cs := fun hm => h (List.mem_cons_of_mem _ hm)
      rw [List.cons_append, unpackFrom, if_neg hc, ih hcs, List.append_assoc]
      rfl

/-- A field without NUL at the head of a packed list is decoded as itself. -/
theorem unpack_append_nul {f : Bytes} (h : NulFree f) (rest : Bytes) :
    unpack (f ++ nul :: rest) = f :: unpack rest :=
  unpackFrom_append_nul h [] rest

theorem unpack_pack_cons {f : Bytes} (h : NulFree f) (fields : List Bytes) :
    unpack (pack (f :: fields)) = f :: unpack (pack fields) :=
  unpack_append_nul h (pack fields)

/-- Fields without NUL survive the codec. -/
theorem unpack_pack {fields : List Bytes} (h : ∀ f ∈ fields, NulFree f) :
    unpack (pack fields) = fields := by
  induction fields with
  | nil => rfl
  | cons f fs ih =>
      rw [unpack_pack_cons (h f (List.mem_cons_self ..)),
        ih fun g hg => h g (List.mem_cons_of_mem _ hg)]

theorem unpack_three {x y z : Bytes} (hx : NulFree x) (hy : NulFree y) (hz : NulFree z) :
    unpack (pack [x, y, z]) = [x, y, z] := by
  refine unpack_pack fun f hf => ?_
  simp only [List.mem_cons, List.not_mem_nil, or_false] at hf
  rcases hf with rfl | rfl | rfl
  · exact hx
  · exact hy
  · exact hz

theorem nulFree_of_mem_unpackFrom {current packed f : Bytes} (hc : NulFree current)
    (h : f ∈ unpackFrom current packed) : NulFree f := by
  induction packed generalizing current with
  | nil =>
      rw [unpackFrom] at h
      split at h
      · exact absurd h (List.not_mem_nil)
      · rw [List.mem_singleton] at h
        exact h ▸ hc
  | cons c cs ih =>
      rw [unpackFrom] at h
      split at h
      next hnul =>
        rcases List.mem_cons.mp h with h | h
        · exact h ▸ hc
        · exact ih (by simp [NulFree]) h
      next hnul =>
        refine ih ?_ h
        intro hm
        rcases List.mem_append.mp hm with hm | hm
        · exact hc hm
        · exact hnul (List.mem_singleton.mp hm).symm

/-- A decoded field has no NUL. -/
theorem nulFree_of_mem_unpack {packed f : Bytes} (h : f ∈ unpack packed) : NulFree f :=
  nulFree_of_mem_unpackFrom (by simp [NulFree]) h

/-- A list survives the codec exactly when none of its fields has a NUL. -/
theorem unpack_pack_iff {fields : List Bytes} :
    unpack (pack fields) = fields ↔ ∀ f ∈ fields, NulFree f := by
  refine ⟨fun h f hf => ?_, unpack_pack⟩
  rw [← h] at hf
  exact nulFree_of_mem_unpack hf

/-- A string without NUL is one field, unless it is empty. -/
theorem unpackFrom_of_nulFree {packed : Bytes} (h : NulFree packed) (current : Bytes) :
    unpackFrom current packed = if current ++ packed = [] then [] else [current ++ packed] := by
  induction packed generalizing current with
  | nil => simp [unpackFrom]
  | cons c cs ih =>
      have hc : c ≠ nul := fun he => h (he ▸ List.mem_cons_self ..)
      have hcs : NulFree cs := fun hm => h (List.mem_cons_of_mem _ hm)
      rw [unpackFrom, if_neg hc, ih hcs, List.append_assoc]
      rfl

theorem unpack_of_nulFree {packed : Bytes} (h : NulFree packed) (hne : packed ≠ []) :
    unpack packed = [packed] := by
  rw [unpack, unpackFrom_of_nulFree h, List.nil_append, if_neg hne]

/-- Only the empty string has no field. -/
theorem unpack_eq_nil_iff {packed : Bytes} : unpack packed = [] ↔ packed = [] := by
  constructor
  · intro h
    by_contra hne
    by_cases hnul : nul ∈ packed
    · obtain ⟨f, rest, rfl, hf⟩ := List.eq_append_cons_of_mem hnul
      rw [unpack_append_nul hf] at h
      cases h
    · rw [unpack_of_nulFree hnul hne] at h
      cases h
  · rintro rfl
    rfl

/-- A packed string has a single field when it is that field, with its delimiter or
without. -/
theorem unpack_eq_singleton_iff {packed f : Bytes} (hf : NulFree f) (hne : f ≠ []) :
    unpack packed = [f] ↔ packed = f ∨ packed = f ++ [nul] := by
  constructor
  · intro h
    by_cases hnul : nul ∈ packed
    · obtain ⟨g, rest, rfl, hg⟩ := List.eq_append_cons_of_mem hnul
      rw [unpack_append_nul hg, List.cons.injEq, unpack_eq_nil_iff] at h
      rw [h.1, h.2]
      exact Or.inr rfl
    · have hpacked : packed ≠ [] := fun he => by
        rw [he] at h
        cases h
      rw [unpack_of_nulFree hnul hpacked, List.cons.injEq] at h
      exact Or.inl h.1
  · rintro (rfl | rfl)
    · exact unpack_of_nulFree hf hne
    · exact unpack_append_nul hf []

/-- Two fields survive the codec exactly when the second has no NUL, given that
the first has none. -/
theorem unpack_pack_pair_iff {f g : Bytes} (hf : NulFree f) :
    unpack (pack [f, g]) = [f, g] ↔ NulFree g := by
  rw [unpack_pack_iff, List.forall_mem_cons, List.forall_mem_singleton]
  exact and_iff_right hf

/-! ## The laws of the codec -/

theorem modifyHead_nil_append (fields : List Bytes) : fields.modifyHead ([] ++ ·) = fields := by
  cases fields <;> rfl

/-- The loop cuts a field at its NULs, whatever follows the field. -/
theorem unpackFrom_append_nul_eq_splitOn (f current rest : Bytes) :
    unpackFrom current (f ++ nul :: rest) =
      (f.splitOn nul).modifyHead (current ++ ·) ++ unpack rest := by
  induction f generalizing current with
  | nil =>
      rw [List.nil_append, unpackFrom, if_pos rfl, List.splitOn_nil, List.modifyHead_cons,
        List.append_nil]
      rfl
  | cons c cs ih =>
      rw [List.cons_append, unpackFrom, List.splitOn_cons_eq_if_modifyHead]
      by_cases hc : c = nul
      · rw [if_pos hc, if_pos (beq_iff_eq.mpr hc), ih, List.modifyHead_cons, List.append_nil,
          modifyHead_nil_append]
        rfl
      · rw [if_neg hc, if_neg (by simpa using hc), ih, List.modifyHead_modifyHead]
        simp [Function.comp_def]

theorem unpack_pack_eq_flatMap (fields : List Bytes) :
    unpack (pack fields) = fields.flatMap (List.splitOn nul) := by
  induction fields with
  | nil => rfl
  | cons f fs ih =>
      rw [pack, unpack, unpackFrom_append_nul_eq_splitOn, modifyHead_nil_append, ih,
        List.flatMap_cons]

/-- The string with its last field terminated. -/
def terminated (s : Bytes) : Bytes := if s = [] ∨ s.getLast? = some nul then s else s ++ [nul]

theorem terminated_append_nul (current s : Bytes) :
    terminated (current ++ nul :: s) = current ++ nul :: terminated s := by
  rcases s.eq_nil_or_concat with rfl | ⟨s, c, rfl⟩
  · simp [terminated]
  · simp only [terminated]
    by_cases hc : c = nul <;> simp [hc, List.getLast?_append, List.getLast?_cons]

theorem pack_unpackFrom {current : Bytes} (h : NulFree current) (s : Bytes) :
    pack (unpackFrom current s) = terminated (current ++ s) := by
  induction s generalizing current with
  | nil =>
      rw [unpackFrom, List.append_nil, terminated]
      by_cases hc : current = []
      · simp [hc, pack]
      · have hlast : current.getLast? ≠ some nul := fun hl => h (List.mem_of_getLast? hl)
        rw [if_neg hc, if_neg (not_or.mpr ⟨hc, hlast⟩)]
        rfl
  | cons c cs ih =>
      rw [unpackFrom]
      by_cases hc : c = nul
      · rw [if_pos hc, pack, ih (by simp [NulFree]), hc, terminated_append_nul]
        rfl
      · have hcurrent : NulFree (current ++ [c]) := fun hm =>
          (List.mem_append.mp hm).elim h fun hm => hc (List.mem_singleton.mp hm).symm
        rw [if_neg hc, ih hcurrent, List.append_assoc]
        rfl

/-- **The laws of the field codec.** -/
theorem codec_laws :
    (∀ fields : List Bytes, unpack (pack fields) = fields.flatMap (List.splitOn nul)) ∧
    (∀ fields : List Bytes, unpack (pack fields) = fields ↔ ∀ f ∈ fields, nul ∉ f) ∧
    ∀ s : Bytes, pack (unpack s) =
      if s = [] ∨ s.getLast? = some nul then s else s ++ [nul] :=
  ⟨unpack_pack_eq_flatMap, fun _ => unpack_pack_iff, pack_unpackFrom (by simp [NulFree])⟩

end DistributedChat
