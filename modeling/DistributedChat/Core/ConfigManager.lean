import DistributedChat.Core.Text
import DistributedChat.Logic.Table

/-!
# Configuration files

`Load` goes through the lines of a file and keeps, for every key, the value of
the last line that sets it (`lookup_loaded`).  A getter sees this value and its
default and nothing else.

`GetInt` leaves the test of the value to `std::stoi`, which throws if no `int`
can be read at the start of the value and ignores what follows it.  So a value
that only begins with a numeral is taken for the numeral (`getInt_exact_iff`).
`GetBool` compares the whole value.
-/

namespace DistributedChat

/-- `ConfigManager`. -/
structure ConfigManager where
  configs : Table Bytes Bytes := ∅

/-- The lines `std::getline` delivers, with what it has read of the current one.  Behind the last
newline there is no line. -/
def linesFrom (line : Bytes) : Bytes → List Bytes
  | [] => if line = [] then [] else [line]
  | c :: cs => if c = newline then line :: linesFrom [] cs else linesFrom (line ++ [c]) cs

/-- The lines of a text. -/
def lines (text : Bytes) : List Bytes := linesFrom [] text

namespace ConfigManager

/-- A blank line or a comment, after `Trim`. -/
def Skipped (line : Bytes) : Prop := line = [] ∨ line.head? = some 35 ∨ line.head? = some 59

instance : DecidablePred Skipped := fun line =>
  inferInstanceAs (Decidable (line = [] ∨ line.head? = some 35 ∨ line.head? = some 59))

/-- An entry of the file; an empty key is dropped. -/
def set (m : ConfigManager) (key val : Bytes) : ConfigManager :=
  if key = [] then m else { configs := m.configs.insert key val }

/-- A trimmed line: `key = value`, cut at the first `'='`. -/
def loadEntry (m : ConfigManager) (line : Bytes) : ConfigManager :=
  match line.idxOf? 61 with
  | none => m
  | some eqPos => m.set (trim (line.take eqPos)) (trim (line.drop (eqPos + 1)))

/-- The body of the loop of `Load`. -/
def loadLine (m : ConfigManager) (line : Bytes) : ConfigManager :=
  if Skipped (trim line) then m else m.loadEntry (trim line)

/-- `ConfigManager::Load` of a file, if it can be opened. -/
def load (m : ConfigManager) (file : Option Bytes) : Bool × ConfigManager :=
  file.elim (false, m) fun text => (true, (lines text).foldl loadLine m)

/-- `ConfigManager::GetString`. -/
def getString (m : ConfigManager) (key defaultVal : Bytes) : Bytes :=
  (m.configs.lookup key).getD defaultVal

/-- `ConfigManager::GetInt`. -/
def getInt (m : ConfigManager) (key : Bytes) (defaultVal : Int) : Int :=
  (m.configs.lookup key).elim defaultVal fun val => (stoi val).getD defaultVal

/-- `tolower` in the C locale. -/
def toLower (c : UInt8) : UInt8 := if 65 ≤ c ∧ c ≤ 90 then c + 32 else c

/-- `ConfigManager::GetBool`. -/
def getBool (m : ConfigManager) (key : Bytes) (defaultVal : Bool) : Bool :=
  (m.configs.lookup key).elim defaultVal fun val =>
    if val.map toLower = ascii "true" ∨ val.map toLower = ascii "yes" ∨
        val.map toLower = ascii "1" then true
    else if val.map toLower = ascii "false" ∨ val.map toLower = ascii "no" ∨
        val.map toLower = ascii "0" then false
    else defaultVal

/-! ## The value of a key -/

/-- The line is `key = val`, up to blanks, and no comment. -/
def Sets (line key val : Bytes) : Prop :=
  ¬ Skipped (trim line) ∧
    ∃ l r, trim line = l ++ 61 :: r ∧ 61 ∉ l ∧ trim l = key ∧ trim r = val

/-- The last line of the text that sets the key sets it to the value. -/
def IsValue (text key val : Bytes) : Prop :=
  ∃ pre line post, lines text = pre ++ line :: post ∧ Sets line key val ∧
    ∀ l ∈ post, ∀ w, ¬ Sets l key w

section

variable {m : ConfigManager} {line key v w l r : Bytes}

theorem idxOf?_append_cons {c : UInt8} (h : c ∉ l) : (l ++ c :: r).idxOf? c = some l.length := by
  induction l with
  | nil => simp [List.idxOf?_cons]
  | cons d ds ih =>
      obtain ⟨hd, hds⟩ := not_or.mp (mt List.mem_cons.mpr h)
      rw [List.cons_append, List.idxOf?_cons, if_neg (by simpa using Ne.symm hd), ih hds]
      rfl

theorem loadEntry_of_not_mem (h : 61 ∉ line) : m.loadEntry line = m := by
  rw [loadEntry, List.idxOf?_eq_none_iff.mpr h]

theorem loadEntry_append (h : 61 ∉ l) : m.loadEntry (l ++ 61 :: r) = m.set (trim l) (trim r) := by
  have hdrop : (l ++ 61 :: r).drop (l.length + 1) = r := by
    rw [← List.drop_drop, List.drop_left]
    rfl
  rw [loadEntry, idxOf?_append_cons h]
  simp only [List.take_left, hdrop]

theorem lookup_set (hkey : key ≠ []) (k : Bytes) : (m.set k v).configs.lookup key =
    if key = k then some v else m.configs.lookup key := by
  rw [set]
  by_cases hk : k = []
  · rw [if_pos hk, if_neg (hk ▸ hkey)]
  · rw [if_neg hk]
    exact Table.lookup_insert m.configs k key v

theorem sets_iff_of_append (hs : ¬ Skipped (trim line)) (hline : trim line = l ++ 61 :: r)
    (hl : 61 ∉ l) : Sets line key v ↔ trim l = key ∧ trim r = v := by
  constructor
  · rintro ⟨-, l', r', hline', hl', hk, hv⟩
    rw [hline] at hline'
    have hlen : some l.length = some l'.length := by
      rw [← idxOf?_append_cons (r := r) hl, hline', idxOf?_append_cons hl']
    obtain ⟨rfl, hr⟩ := List.append_inj hline' (Option.some.inj hlen)
    cases hr
    exact ⟨hk, hv⟩
  · rintro ⟨hk, hv⟩
    exact ⟨hs, l, r, hline, hl, hk, hv⟩

/-- A line gives the key its value, or leaves the one it has. -/
theorem lookup_loadLine (hkey : key ≠ []) : (m.loadLine line).configs.lookup key = some v ↔
    Sets line key v ∨ (∀ w, ¬ Sets line key w) ∧ m.configs.lookup key = some v := by
  rw [loadLine]
  by_cases hs : Skipped (trim line)
  · have hno : ∀ w, ¬ Sets line key w := fun w hw => hw.1 hs
    rw [if_pos hs]
    simp [hno]
  · rw [if_neg hs]
    by_cases hmem : 61 ∈ trim line
    · obtain ⟨l, r, hline, hl⟩ := List.eq_append_cons_of_mem hmem
      have hsets (w : Bytes) : Sets line key w ↔ trim l = key ∧ trim r = w :=
        sets_iff_of_append hs hline hl
      rw [hline, loadEntry_append hl, lookup_set hkey]
      by_cases hk : trim l = key
      · simp [hsets, hk]
      · simp [hsets, hk, Ne.symm hk]
    · have hno : ∀ w, ¬ Sets line key w := by
        rintro w ⟨-, l, r, hline, -⟩
        exact hmem (by rw [hline]; simp)
      rw [loadEntry_of_not_mem hmem]
      simp [hno]

/-- After some lines, a key has the value of the last line that sets it. -/
theorem lookup_foldl_loadLine (hkey : key ≠ []) (ls : List Bytes) :
    (ls.foldl loadLine {}).configs.lookup key = some v ↔
      ∃ pre line post, ls = pre ++ line :: post ∧ Sets line key v ∧
        ∀ l ∈ post, ∀ w, ¬ Sets l key w := by
  induction ls using List.reverseRecOn with
  | nil => simp
  | append_singleton ls x ih =>
      rw [List.foldl_concat, lookup_loadLine hkey, ih]
      constructor
      · rintro (hx | ⟨hx, pre, line, post, rfl, hline, hpost⟩)
        · exact ⟨ls, x, [], rfl, hx, fun l hl => absurd hl List.not_mem_nil⟩
        · refine ⟨pre, line, post ++ [x], by simp, hline, fun l hl => ?_⟩
          rcases List.mem_append.mp hl with hl | hl
          · exact hpost l hl
          · exact List.mem_singleton.mp hl ▸ hx
      · rintro ⟨pre, line, post, hls, hline, hpost⟩
        rcases post.eq_nil_or_concat with rfl | ⟨post, y, rfl⟩
        · obtain ⟨-, rfl⟩ := List.append_singleton_inj.mp hls
          exact .inl hline
        · rw [List.concat_eq_append] at hls hpost
          rw [← List.cons_append, ← List.append_assoc] at hls
          obtain ⟨rfl, rfl⟩ := List.append_singleton_inj.mp hls
          exact .inr ⟨hpost x (by simp),
            pre, line, post, rfl, hline, fun l hl => hpost l (by simp [hl])⟩

/-- `Load` of a file into an empty `ConfigManager`. -/
def loaded (text : Bytes) : ConfigManager := (load {} (some text)).2

/-- The value of a key is the one of the last line that sets it. -/
theorem lookup_loaded {text : Bytes} (hkey : key ≠ []) :
    (loaded text).configs.lookup key = some v ↔ IsValue text key v :=
  lookup_foldl_loadLine hkey (lines text)

/-- `GetString` gives this value as it is. -/
theorem getString_loaded {text : Bytes} (hkey : key ≠ []) (h : IsValue text key v) (d : Bytes) :
    (loaded text).getString key d = v := by
  rw [getString, (lookup_loaded hkey).mpr h]
  rfl

/-! ## `GetInt` -/

/-- `GetInt` gives the value of the key if it is in its entirety a numeral of an `int`, and the
default if there is no such value. -/
def ReadsExactly (text key : Bytes) (d : Int) : Prop :=
  (∀ val n, IsValue text key val → Numeral val n → IsInt n → (loaded text).getInt key d = n) ∧
    ((∀ val n, IsValue text key val → Numeral val n → ¬ IsInt n) → (loaded text).getInt key d = d)

/-- The value of the key only contains a numeral of an `int` other than the default, behind white
space that `Trim` leaves or in front of something that is no digit. -/
def Misleads (text key : Bytes) (d : Int) : Prop :=
  ∃ blanks num rest n, IsValue text key (blanks ++ (num ++ rest)) ∧
    (∀ c ∈ blanks, isSpace c = true) ∧ Numeral num n ∧ IsInt n ∧ NoDigitHead rest ∧
    (blanks ≠ [] ∨ rest ≠ []) ∧ n ≠ d

theorem getInt_of_lookup {d : Int} (h : m.configs.lookup key = some v) :
    m.getInt key d = (stoi v).getD d := by
  rw [getInt, h]
  rfl

/-- A whole numeral is read as its value. -/
theorem stoi_of_numeral {n : Int} (h : Numeral v n) (hn : IsInt n) : stoi v = some n :=
  stoi_eq_some_iff.mpr ⟨[], v, [], by simp, fun _ hc => absurd hc List.not_mem_nil, h, hn,
    fun _ hc => Option.noConfusion rfl (heq_of_eq hc)⟩

/-- **Integers in a configuration.**  `GetInt` reads a configuration exactly if and only if the value
of the key does not merely contain a numeral. -/
theorem getInt_exact_iff (text key : Bytes) (d : Int) (hkey : key ≠ []) :
    ReadsExactly text key d ↔ ¬ Misleads text key d := by
  constructor
  · rintro ⟨-, hdefault⟩ ⟨blanks, num, rest, n, hval, hb, hnum, hn, hr, hne, hd⟩
    have hlookup := (lookup_loaded hkey).mpr hval
    have hread : (loaded text).getInt key d = n := by
      rw [getInt_of_lookup hlookup, stoi_eq_some_iff.mpr ⟨blanks, num, rest, rfl, hb, hnum, hn, hr⟩]
      rfl
    refine hd (hread.symm.trans (hdefault fun val i hval' hi _ => ?_))
    have hv := hlookup.symm.trans ((lookup_loaded hkey).mpr hval')
    rw [← Option.some.inj hv] at hi
    obtain ⟨hblanks, hrest⟩ := hi.whole rfl hb hnum hr
    exact hne.elim (absurd hblanks) (absurd hrest)
  · intro hno
    constructor
    · intro val n hval hnum hn
      rw [getInt_of_lookup ((lookup_loaded hkey).mpr hval), stoi_of_numeral hnum hn]
      rfl
    · intro hnone
      cases hlookup : (loaded text).configs.lookup key with
      | none =>
          rw [getInt, hlookup]
          rfl
      | some val =>
          rw [getInt_of_lookup hlookup]
          cases hs : stoi val with
          | none => rfl
          | some n =>
              obtain ⟨blanks, num, rest, rfl, hb, hnum, hn, hr⟩ := stoi_eq_some_iff.mp hs
              have hval := (lookup_loaded hkey).mp hlookup
              by_contra hd
              refine hno ⟨blanks, num, rest, n, hval, hb, hnum, hn, hr, ?_, hd⟩
              by_contra hwhole
              obtain ⟨hblanks, hrest⟩ := not_or.mp hwhole
              rw [not_not] at hblanks hrest
              refine hnone _ n hval ?_ hn
              rw [hblanks, hrest, List.nil_append, List.append_nil]
              exact hnum

end

/-- A configuration with a comment and a key that is set twice. -/
theorem getInt_exact_iff_port :
    (loaded (ascii "# ports\nport = 1\nport = 9001\n")).getInt (ascii "port") 0 = 9001 ∧
      (ReadsExactly (ascii "# ports\nport = 1\nport = 9001\n") (ascii "port") 0 ↔
        ¬ Misleads (ascii "# ports\nport = 1\nport = 9001\n") (ascii "port") 0) :=
  ⟨by decide +kernel, getInt_exact_iff _ _ 0 (by decide)⟩

/-- A port with something behind it is taken for a port. -/
theorem getInt_of_malformed :
    ¬ ∀ (text key : Bytes) (d : Int), key ≠ [] → ReadsExactly text key d := by
  intro hall
  have hkey : ascii "port" ≠ [] := by decide
  have hread : (loaded (ascii "port = 9001x")).getInt (ascii "port") 0 = 9001 := by decide +kernel
  have hlookup : (loaded (ascii "port = 9001x")).configs.lookup (ascii "port") =
      some (ascii "9001x") := by decide +kernel
  have hdefault := (hall (ascii "port = 9001x") (ascii "port") 0 hkey).2 fun val n hval hnum _ => by
    have hv := hlookup.symm.trans ((lookup_loaded hkey).mpr hval)
    rw [← Option.some.inj hv] at hnum
    have hdigit := hnum.digits_tail 120 (by decide)
    cases hdigit
  rw [hread] at hdefault
  cases hdefault

/-! ## `GetBool` -/

/-- Only a value that is one of the six words in its entirety is read as a flag. -/
theorem getBool_ne_default {m : ConfigManager} {key : Bytes} {d : Bool}
    (h : m.getBool key d ≠ d) : ∃ val, m.configs.lookup key = some val ∧
      ((val.map toLower = ascii "true" ∨ val.map toLower = ascii "yes" ∨
          val.map toLower = ascii "1") ∨
        val.map toLower = ascii "false" ∨ val.map toLower = ascii "no" ∨
          val.map toLower = ascii "0") := by
  rw [getBool] at h
  cases hlookup : m.configs.lookup key with
  | none =>
      rw [hlookup] at h
      exact absurd rfl h
  | some val =>
      rw [hlookup, Option.elim_some] at h
      refine ⟨val, rfl, ?_⟩
      split at h
      next htrue => exact .inl htrue
      next =>
        split at h
        next hfalse => exact .inr hfalse
        next => exact absurd rfl h

end ConfigManager

end DistributedChat
