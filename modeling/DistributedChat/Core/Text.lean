import Mathlib.Data.List.DropRight
import Mathlib.Data.Nat.Digits.Lemmas

/-!
# Byte strings

The server's strings are `std::string`: sequences of bytes in which any byte may
occur, NUL included.  This module has the operations of the standard library the
server applies to them (`std::stoi`, `std::to_string`) and `Trim` of
`core/common/Common.h`.

`stoi_toString` is the fact the replication packets rest on: a server id printed
into a packet is read back as itself, and `stoi_eq_some_iff` says what else
`std::stoi` accepts.
-/

namespace DistributedChat

/-- `std::string`. -/
abbrev Bytes := List UInt8

/-- The field delimiter `'\0'`. -/
def nul : UInt8 := 0

/-- `'\n'`. -/
def newline : UInt8 := 10

/-- A string literal of the source. -/
def ascii (s : String) : Bytes := s.toList.map Char.toUInt8

/-- The string has no NUL byte. -/
def NulFree (s : Bytes) : Prop := nul ∉ s

instance (s : Bytes) : Decidable (NulFree s) := inferInstanceAs (Decidable (nul ∉ s))

/-! ## `Trim` -/

/-- The characters `" \t\r\n"`. -/
def isBlank (c : UInt8) : Bool := c == 32 || c == 9 || c == 13 || c == 10

/-- `Trim`: the part from the first to the last character that is not blank. -/
def trim (str : Bytes) : Bytes := (str.dropWhile isBlank).rdropWhile isBlank

/-- A string is its own trimmed form if neither end can be cut. -/
theorem trim_eq_self_iff {str : Bytes} :
    trim str = str ↔ str.dropWhile isBlank = str ∧ str.rdropWhile isBlank = str := by
  constructor
  · intro h
    have hdrop : str.dropWhile isBlank = str := by
      refine (List.dropWhile_sublist isBlank).eq_of_length_le ?_
      calc str.length = (trim str).length := by rw [h]
        _ ≤ (str.dropWhile isBlank).length :=
          (List.rdropWhile_prefix isBlank (str.dropWhile isBlank)).length_le
    rw [trim, hdrop] at h
    exact ⟨hdrop, h⟩
  · rintro ⟨hdrop, hlast⟩
    rw [trim, hdrop, hlast]

/-- What stands in front of a trimmed string keeps its end. -/
theorem rdropWhile_append_of_trimmed {t : Bytes} (ht : trim t = t) (hne : t ≠ []) (s : Bytes) :
    (s ++ t).rdropWhile isBlank = s ++ t := by
  have hlast := List.rdropWhile_eq_self_iff.mp (trim_eq_self_iff.mp ht).2 hne
  refine List.rdropWhile_eq_self_iff.mpr fun h => ?_
  rw [List.getLast_append_of_ne_nil _ hne]
  exact hlast

/-- What stands behind a trimmed string keeps its start. -/
theorem dropWhile_append_of_trimmed {r : Bytes} (hr : trim r = r) (hne : r ≠ []) (s : Bytes) :
    (r ++ s).dropWhile isBlank = r ++ s := by
  have hdrop := (trim_eq_self_iff.mp hr).1
  rw [List.dropWhile_append, hdrop]
  simp [hne]

theorem trim_trim (str : Bytes) : trim (trim str) = trim str := by
  refine trim_eq_self_iff.mpr ⟨?_, List.rdropWhile_idempotent isBlank _⟩
  rcases h : trim str with _ | ⟨c, cs⟩
  · rfl
  · obtain ⟨rest, hrest⟩ := List.rdropWhile_prefix isBlank (str.dropWhile isBlank)
    have hhead : (str.dropWhile isBlank).head? = some c := by
      rw [← hrest]
      show (trim str ++ rest).head? = some c
      rw [h]
      rfl
    have hc : isBlank c = false := by simpa [hhead] using List.head?_dropWhile_not isBlank str
    rw [List.dropWhile_cons, hc]
    rfl

/-! ## `std::to_string` and `std::stoi` -/

/-- The least and the greatest `int`. -/
def intMin : Int := -2147483648

@[inherit_doc intMin]
def intMax : Int := 2147483647

/-- The value fits in an `int`. -/
def IsInt (n : Int) : Prop := intMin ≤ n ∧ n ≤ intMax

instance (n : Int) : Decidable (IsInt n) := inferInstanceAs (Decidable (_ ∧ _))

/-- The character of a decimal digit. -/
def digitChar (d : Nat) : UInt8 := UInt8.ofNat (48 + d)

/-- The decimal digits of a natural number. -/
def decimal (n : Nat) : Bytes :=
  if n = 0 then [digitChar 0] else (Nat.digits 10 n).reverse.map digitChar

/-- `std::to_string(int)`. -/
def toString (n : Int) : Bytes := if n < 0 then 45 :: decimal n.natAbs else decimal n.natAbs

/-- `isspace` in the C locale. -/
def isSpace (c : UInt8) : Bool := c == 32 || (9 ≤ c && c ≤ 13)

/-- `isdigit`. -/
def isDigit (c : UInt8) : Bool := 48 ≤ c && c ≤ 57

/-- The value of a sequence of digits. -/
def readDigits (ds : Bytes) : Nat := ds.foldl (fun n d => n * 10 + (d.toNat - 48)) 0

/-- `std::stoi`: blanks, a sign, digits; what follows the digits is ignored.
`none` is the exception (`invalid_argument` without digits, `out_of_range` for a
value that is no `int`). -/
def stoi (str : Bytes) : Option Int :=
  let s := str.dropWhile isSpace
  let ds := (if s.head? = some 45 ∨ s.head? = some 43 then s.tail else s).takeWhile isDigit
  let n : Int := if s.head? = some 45 then -(readDigits ds : Int) else readDigits ds
  if ds = [] ∨ ¬ IsInt n then none else some n

/-! ## Printing and reading back -/

theorem digitChar_toNat {d : Nat} (h : d < 10) : (digitChar d).toNat = 48 + d := by
  rw [digitChar, UInt8.toNat_ofNat']
  omega

theorem isDigit_digitChar {d : Nat} (h : d < 10) : isDigit (digitChar d) = true := by
  have hn := digitChar_toNat h
  simp only [isDigit, Bool.and_eq_true, decide_eq_true_eq, UInt8.le_iff_toNat_le, hn]
  exact ⟨by simp, by simp; omega⟩

theorem decimal_ne_nil (n : Nat) : decimal n ≠ [] := by
  rw [decimal]
  split
  · simp
  · next h => simpa using Nat.digits_ne_nil_iff_ne_zero.mpr h

theorem isDigit_of_mem_decimal {n : Nat} {c : UInt8} (h : c ∈ decimal n) : isDigit c = true := by
  rw [decimal] at h
  split at h
  · rw [List.mem_singleton] at h
    subst h
    exact isDigit_digitChar (by omega)
  · simp only [List.mem_map, List.mem_reverse] at h
    obtain ⟨d, hd, rfl⟩ := h
    exact isDigit_digitChar (Nat.digits_lt_base (by omega) hd)

theorem readDigits_map_digitChar {ds : List Nat} (h : ∀ d ∈ ds, d < 10) :
    readDigits (ds.reverse.map digitChar) = Nat.ofDigits 10 ds := by
  rw [readDigits, List.foldl_map, List.foldl_reverse]
  induction ds with
  | nil => rfl
  | cons d ds ih =>
      rw [List.foldr_cons, ih fun e he => h e (List.mem_cons_of_mem _ he),
        digitChar_toNat (h d (List.mem_cons_self ..)), Nat.ofDigits_cons]
      omega

theorem readDigits_decimal (n : Nat) : readDigits (decimal n) = n := by
  rw [decimal]
  split
  · next h =>
      subst h
      decide
  · rw [readDigits_map_digitChar fun d hd => Nat.digits_lt_base (by omega) hd,
      Nat.ofDigits_digits]

theorem isSpace_of_isDigit {c : UInt8} (h : isDigit c = true) : isSpace c = false := by
  simp only [isDigit, Bool.and_eq_true, decide_eq_true_eq, UInt8.le_iff_toNat_le] at h
  have h32 : c ≠ 32 := by
    rintro rfl
    exact absurd h.1 (by decide)
  simp only [isSpace, Bool.or_eq_false_iff, beq_eq_false_iff_ne, Bool.and_eq_false_iff,
    decide_eq_false_iff_not, UInt8.le_iff_toNat_le]
  refine ⟨h32, Or.inr ?_⟩
  have h48 : (48 : UInt8).toNat = 48 := rfl
  have h13 : (13 : UInt8).toNat = 13 := rfl
  omega

theorem ne_sign_of_isDigit {c : UInt8} (h : isDigit c = true) : c ≠ 45 ∧ c ≠ 43 := by
  constructor
  · rintro rfl
    exact absurd h (by decide)
  · rintro rfl
    exact absurd h (by decide)

theorem takeWhile_isDigit_decimal (n : Nat) :
    (decimal n).takeWhile isDigit = decimal n := by
  rw [List.takeWhile_eq_self_iff]
  intro c hc
  exact isDigit_of_mem_decimal hc

/-- `stoi` reads back what `to_string` printed. -/
@[simp] theorem stoi_toString {n : Int} (h : IsInt n) : stoi (toString n) = some n := by
  obtain ⟨c, cs, hc⟩ := List.exists_cons_of_ne_nil (decimal_ne_nil n.natAbs)
  have hd : isDigit c = true := isDigit_of_mem_decimal (hc ▸ List.mem_cons_self ..)
  by_cases hn : n < 0
  · have habs : -(n.natAbs : Int) = n := by omega
    rw [toString, if_pos hn, stoi]
    have hsp : isSpace 45 = false := by decide
    simp only [List.dropWhile_cons, hsp, List.head?_cons, List.tail_cons, if_true,
      takeWhile_isDigit_decimal, readDigits_decimal, Bool.false_eq_true, if_false, true_or,
      decimal_ne_nil, false_or, habs, h, not_true_eq_false]
  · have habs : (n.natAbs : Int) = n := by omega
    rw [toString, if_neg hn, stoi]
    have hdrop : (decimal n.natAbs).dropWhile isSpace = decimal n.natAbs := by
      rw [hc, List.dropWhile_cons, isSpace_of_isDigit hd]
      simp
    have hhead : (decimal n.natAbs).head? = some c := by rw [hc]; rfl
    obtain ⟨h45, h43⟩ := ne_sign_of_isDigit hd
    simp only [hdrop, hhead, Option.some.injEq, h45, h43, or_self, if_false,
      takeWhile_isDigit_decimal, readDigits_decimal, decimal_ne_nil, habs, h,
      not_true_eq_false]

/-- A printed number has no NUL. -/
theorem nulFree_toString (n : Int) : NulFree (toString n) := by
  have hdec : ∀ k, NulFree (decimal k) := by
    intro k hmem
    exact absurd (isDigit_of_mem_decimal hmem) (by decide)
  rw [toString]
  split
  · intro hmem
    rcases List.mem_cons.mp hmem with h | h
    · exact absurd h (by decide)
    · exact hdec _ h
  · exact hdec _

/-! ## What `stoi` accepts -/

/-- A non-empty sequence of decimal digits. -/
def Digits (ds : Bytes) : Prop := ds ≠ [] ∧ ∀ c ∈ ds, isDigit c = true

/-- The string is an optionally signed decimal numeral of the value, from its start to its end. -/
inductive Numeral : Bytes → Int → Prop where
  | plain {ds : Bytes} (hd : Digits ds) : Numeral ds (readDigits ds)
  | plus {ds : Bytes} (hd : Digits ds) : Numeral (43 :: ds) (readDigits ds)
  | minus {ds : Bytes} (hd : Digits ds) : Numeral (45 :: ds) (-(readDigits ds : Int))

/-- The string does not begin with a digit. -/
def NoDigitHead (str : Bytes) : Prop := ∀ c ∈ str.head?, isDigit c = false

theorem takeWhile_isDigit_append {ds rest : Bytes} (hd : Digits ds) (hr : NoDigitHead rest) :
    (ds ++ rest).takeWhile isDigit = ds := by
  rw [List.takeWhile_append_of_pos hd.2]
  cases rest with
  | nil => simp
  | cons c rest =>
      have hc : isDigit c = false := hr c rfl
      simp [hc]

theorem Digits.head {ds : Bytes} (hd : Digits ds) :
    ∃ c cs, ds = c :: cs ∧ isDigit c = true := by
  obtain ⟨c, cs, rfl⟩ := List.exists_cons_of_ne_nil hd.1
  exact ⟨c, cs, rfl, hd.2 c (List.mem_cons_self ..)⟩

/-- A numeral does not begin with white space. -/
theorem Numeral.head {str : Bytes} {n : Int} (h : Numeral str n) :
    ∃ c cs, str = c :: cs ∧ isSpace c = false := by
  cases h with
  | plain hd =>
      obtain ⟨c, cs, rfl, hc⟩ := hd.head
      exact ⟨c, cs, rfl, isSpace_of_isDigit hc⟩
  | plus => exact ⟨43, _, rfl, by decide⟩
  | minus => exact ⟨45, _, rfl, by decide⟩

/-- What stands behind the first character of a numeral is digits. -/
theorem Numeral.digits_tail {str : Bytes} {n : Int} (h : Numeral str n) :
    ∀ c ∈ str.tail, isDigit c = true := by
  cases h with
  | plain hd => exact fun c hc => hd.2 c (List.mem_of_mem_tail hc)
  | plus hd | minus hd => exact hd.2

theorem dropWhile_isSpace_append {blanks num : Bytes} {n : Int}
    (hb : ∀ c ∈ blanks, isSpace c = true) (h : Numeral num n) (rest : Bytes) :
    (blanks ++ (num ++ rest)).dropWhile isSpace = num ++ rest := by
  rw [List.dropWhile_append_of_pos hb]
  obtain ⟨c, cs, rfl, hc⟩ := h.head
  simp [hc]

theorem digits_takeWhile {str : Bytes} (h : str.takeWhile isDigit ≠ []) :
    Digits (str.takeWhile isDigit) :=
  ⟨h, fun _ hc => List.mem_takeWhile_imp hc⟩

theorem noDigitHead_dropWhile (str : Bytes) : NoDigitHead (str.dropWhile isDigit) := by
  intro c hc
  have h := List.head?_dropWhile_not isDigit str
  rw [Option.mem_def] at hc
  rw [hc] at h
  simpa using h

/-- `stoi` reads a numeral of an `int`, with white space before it and anything but a digit behind
it. -/
theorem stoi_eq_some_iff {str : Bytes} {n : Int} : stoi str = some n ↔
    ∃ blanks num rest, str = blanks ++ (num ++ rest) ∧ (∀ c ∈ blanks, isSpace c = true) ∧
      Numeral num n ∧ IsInt n ∧ NoDigitHead rest := by
  constructor
  · intro h
    rw [stoi] at h
    generalize hs : str.dropWhile isSpace = s at h
    have hstr : str = str.takeWhile isSpace ++ s := by rw [← hs, List.takeWhile_append_dropWhile]
    have hblank : ∀ c ∈ str.takeWhile isSpace, isSpace c = true := fun _ => List.mem_takeWhile_imp
    obtain ⟨hno, hn⟩ := Option.ite_none_left_eq_some.mp h
    obtain ⟨hds, hint⟩ := not_or.mp hno
    rw [not_not] at hint
    cases hn
    by_cases hminus : s.head? = some 45
    · obtain ⟨t, rfl⟩ := List.head?_eq_some_iff.mp hminus
      rw [if_pos (Or.inl hminus), List.tail_cons] at hds hint ⊢
      rw [if_pos hminus] at hint ⊢
      refine ⟨_, 45 :: t.takeWhile isDigit, t.dropWhile isDigit, ?_, hblank,
        .minus (digits_takeWhile hds), hint, noDigitHead_dropWhile t⟩
      rw [List.cons_append, List.takeWhile_append_dropWhile]
      exact hstr
    · by_cases hplus : s.head? = some 43
      · obtain ⟨t, rfl⟩ := List.head?_eq_some_iff.mp hplus
        rw [if_pos (Or.inr hplus), List.tail_cons] at hds hint ⊢
        rw [if_neg hminus] at hint ⊢
        refine ⟨_, 43 :: t.takeWhile isDigit, t.dropWhile isDigit, ?_, hblank,
          .plus (digits_takeWhile hds), hint, noDigitHead_dropWhile t⟩
        rw [List.cons_append, List.takeWhile_append_dropWhile]
        exact hstr
      · rw [if_neg (not_or.mpr ⟨hminus, hplus⟩)] at hds hint ⊢
        rw [if_neg hminus] at hint ⊢
        refine ⟨_, s.takeWhile isDigit, s.dropWhile isDigit, ?_, hblank,
          .plain (digits_takeWhile hds), hint, noDigitHead_dropWhile s⟩
        rw [List.takeWhile_append_dropWhile]
        exact hstr
  · rintro ⟨blanks, num, rest, rfl, hb, hnum, hint, hr⟩
    rw [stoi, dropWhile_isSpace_append hb hnum]
    cases hnum with
    | plain hd =>
        obtain ⟨c, cs, rfl, hc⟩ := hd.head
        obtain ⟨h45, h43⟩ := ne_sign_of_isDigit hc
        have hhead : (c :: cs ++ rest).head? = some c := rfl
        simp only [hhead, Option.some.injEq, h45, h43, or_self, if_false,
          takeWhile_isDigit_append hd hr, hd.1, hint, not_true_eq_false]
    | @plus ds hd =>
        have hne : ((43 : UInt8) = 45) = False := by decide
        simp only [List.head?_cons, Option.some.injEq, hne, List.cons_append, List.tail_cons,
          or_true, if_true, if_false, takeWhile_isDigit_append hd hr, hd.1, hint, not_true_eq_false, or_self]
    | @minus ds hd =>
        simp only [List.head?_cons, List.cons_append, List.tail_cons, true_or, if_true,
          takeWhile_isDigit_append hd hr, hd.1, hint, not_true_eq_false, or_self, if_false]

/-- In a numeral nothing stands before the numeral or behind it. -/
theorem Numeral.whole {str blanks num rest : Bytes} {m n : Int} (h : Numeral str m)
    (hstr : str = blanks ++ (num ++ rest)) (hb : ∀ c ∈ blanks, isSpace c = true)
    (hnum : Numeral num n) (hr : NoDigitHead rest) : blanks = [] ∧ rest = [] := by
  have hblanks : blanks = [] := by
    rw [List.eq_nil_iff_forall_not_mem]
    intro b hmem
    obtain ⟨b, bs, rfl⟩ := List.exists_cons_of_ne_nil (List.ne_nil_of_mem hmem)
    obtain ⟨c, cs, hc, hspace⟩ := h.head
    rw [hstr, List.cons_append, List.cons.injEq] at hc
    rw [← hc.1, hb b (List.mem_cons_self ..)] at hspace
    cases hspace
  refine ⟨hblanks, ?_⟩
  obtain ⟨c, cs, rfl, -⟩ := hnum.head
  rw [hblanks, List.nil_append, List.cons_append] at hstr
  cases rest with
  | nil => rfl
  | cons d rest =>
      have hdigit := h.digits_tail d (by rw [hstr]; simp)
      rw [hr d rfl] at hdigit
      cases hdigit

end DistributedChat
