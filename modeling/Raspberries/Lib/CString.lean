import Mathlib.Algebra.Ring.Nat
import Mathlib.Data.List.TakeWhile
import Mathlib.Tactic.Common

/-!
# Strings of the C library

A C string is the list of its characters, without the terminating zero; a pointer into
it is an offset.  Here are the functions of `<string.h>`, `<ctype.h>` and `<stdlib.h>`
that search a string or read a number from it, in the `C` locale.
-/

namespace CString

/-! ### Numbers -/

/-- `isspace`: the blank and the characters from tab to carriage return. -/
def isSpace (c : Char) : Bool := c.toNat = 32 || (9 ≤ c.toNat && c.toNat ≤ 13)

def ofDigits (ds : List Char) : Nat := ds.foldl (fun n c => 10 * n + (c.toNat - 48)) 0

/-- All of the string is a decimal numeral. -/
def IsNumeral (s : List Char) : Prop := s ≠ [] ∧ ∀ c ∈ s, c.isDigit = true

instance (s : List Char) : Decidable (IsNumeral s) :=
  decidable_of_iff (s ≠ [] ∧ s.all Char.isDigit = true) (by rw [List.all_eq_true, IsNumeral])

def skipSpace (s : List Char) : List Char := s.dropWhile isSpace

def skipSign : List Char → List Char
  | '-' :: s => s
  | '+' :: s => s
  | s => s

def isNegative : List Char → Bool
  | '-' :: _ => true
  | _ => false

def leadingDigits (s : List Char) : List Char :=
  (skipSign (skipSpace s)).takeWhile Char.isDigit

/-- `strtoul(s, &end, 10)` with an `unsigned long` of `W` bits: the value and `end - s`.
A number that does not fit gives `ULONG_MAX`, and a minus sign negates. -/
def strtoul (W : Nat) (s : List Char) : Nat × Nat :=
  let u := skipSign (skipSpace s)
  let ds := leadingDigits s
  if ds = [] then (0, 0)
  else
    (if 2 ^ W ≤ ofDigits ds then 2 ^ W - 1
      else if isNegative (skipSpace s) then (2 ^ W - ofDigits ds) % 2 ^ W
      else ofDigits ds,
      s.length - (u.length - ds.length))

theorem length_skipSign_le (s : List Char) : (skipSign s).length ≤ s.length := by
  unfold skipSign
  split <;> simp

theorem length_skipSpace_le (s : List Char) : (skipSpace s).length ≤ s.length :=
  (List.dropWhile_sublist _).length_le

/-- `strtoul` stays where it is exactly if no digit comes after the white space and the sign. -/
theorem strtoul_consumed {W : Nat} {s : List Char} :
    (strtoul W s).2 = 0 ↔ leadingDigits s = [] := by
  rw [strtoul]
  split
  next h => simp [h]
  next h =>
    have hpos : 0 < (leadingDigits s).length := List.length_pos_iff.mpr h
    have hds : (leadingDigits s).length ≤ (skipSign (skipSpace s)).length :=
      (List.takeWhile_sublist _).length_le
    have hsign := length_skipSign_le (skipSpace s)
    have hspace := length_skipSpace_le s
    simp only [h, iff_false]
    omega

theorem skip_of_isDigit {c : Char} {s : List Char} (h : c.isDigit = true) :
    skipSpace (c :: s) = c :: s ∧ skipSign (c :: s) = c :: s ∧ isNegative (c :: s) = false := by
  have hc : 48 ≤ c.toNat ∧ c.toNat ≤ 57 := by
    rw [Char.isDigit, Bool.and_eq_true, decide_eq_true_eq, decide_eq_true_eq] at h
    exact h
  have hminus : c ≠ '-' := by
    rintro rfl
    exact absurd hc.1 (by decide)
  have hplus : c ≠ '+' := by
    rintro rfl
    exact absurd hc.1 (by decide)
  refine ⟨?_, ?_, ?_⟩
  · rw [skipSpace, List.dropWhile_cons_of_neg]
    simp [isSpace]
    omega
  · unfold skipSign
    split <;> simp_all
  · unfold isNegative
    split <;> simp_all

theorem strtoul_of_isNumeral {W : Nat} {s : List Char} (h : IsNumeral s)
    (hfits : ofDigits s < 2 ^ W) : strtoul W s = (ofDigits s, s.length) := by
  obtain ⟨hne, hdigits⟩ := h
  obtain ⟨c, s', rfl⟩ := List.exists_cons_of_ne_nil hne
  obtain ⟨hspace, hsign, hneg⟩ := @skip_of_isDigit c s' (hdigits c List.mem_cons_self)
  have hall : leadingDigits (c :: s') = c :: s' := by
    rw [leadingDigits, hspace, hsign]
    exact List.takeWhile_eq_self_iff.mpr hdigits
  rw [strtoul, hall, hspace, hsign, hneg, if_neg (List.cons_ne_nil c s'),
    if_neg (Nat.not_le.mpr hfits)]
  simp

/-! ### Searching -/

/-- `strstr(hay, needle) - hay`, with `none` for the null pointer. -/
def strstr (hay needle : List Char) : Option Nat :=
  if needle.isPrefixOf hay then some 0
  else
    match hay with
    | [] => none
    | _ :: hay => (strstr hay needle).map (· + 1)

def strcasestr (hay needle : List Char) : Option Nat :=
  strstr (hay.map Char.toLower) (needle.map Char.toLower)

/-- A string is found at its own start exactly if it is a prefix. -/
theorem strstr_eq_zero {hay needle : List Char} : strstr hay needle = some 0 ↔ needle <+: hay := by
  rw [← List.isPrefixOf_iff_prefix, strstr.eq_def]
  split
  next h => simp [h]
  next h => cases hay <;> simp [h]

theorem strcasestr_eq_zero {hay needle : List Char} :
    strcasestr hay needle = some 0 ↔ needle.map Char.toLower <+: hay.map Char.toLower := by
  rw [strcasestr, strstr_eq_zero]

/-- The part of a string before the first `c`, which may be the whole. -/
def before (c : Char) (s : List Char) : List Char := s.takeWhile (· ≠ c)

theorem notMem_before (c : Char) (s : List Char) : c ∉ before c s := by
  intro h
  have hne := List.mem_takeWhile_imp h
  simp at hne

/-- A string without `c` comes before the first `c` of its extensions by nothing or `c`,
and of no other. -/
theorem before_append {c : Char} {s : List Char} (h : c ∉ s) (t : List Char) :
    before c (s ++ t) = s ↔ t.head? = none ∨ t.head? = some c := by
  have hs : ∀ x ∈ s, decide (x ≠ c) = true := by
    intro x hx
    refine decide_eq_true ?_
    rintro rfl
    exact h hx
  rw [before, List.takeWhile_append_of_pos hs, List.append_right_eq_self]
  cases t with
  | nil => simp
  | cons x t => by_cases hx : x = c <;> simp [hx]

theorem before_eq_self {c : Char} {s : List Char} (h : c ∉ s) : before c s = s := by
  have happ := (before_append h []).mpr (.inl rfl)
  rwa [List.append_nil] at happ

/-- A prefix of the images without that of `c` comes before the first `c`. -/
theorem prefix_map_before {f : Char → Char} {c : Char} {w s : List Char} (hc : f c ∉ w) :
    w <+: (before c s).map f ↔ w <+: s.map f := by
  refine ⟨fun h => h.trans ((List.takeWhile_prefix _).map f), ?_⟩
  intro h
  induction s generalizing w with
  | nil => exact h
  | cons x s ih =>
    cases w with
    | nil => exact List.nil_prefix
    | cons y w =>
      rw [List.map_cons, List.cons_prefix_cons] at h
      obtain ⟨rfl, h⟩ := h
      have hx : x ≠ c := by
        rintro rfl
        exact hc List.mem_cons_self
      rw [before, List.takeWhile_cons_of_pos (by simpa using hx), List.map_cons,
        List.cons_prefix_cons]
      exact ⟨rfl, ih (fun hmem => hc (List.mem_cons_of_mem _ hmem)) h⟩

/-- What comes before the first `c` ends at the latest where the string ends. -/
theorem before_append_end {c : Char} (s : List Char) {t : List Char}
    (h : t.head? = none ∨ t.head? = some c) : before c (s ++ t) = before c s := by
  have ht : before c t = [] := by
    cases t with
    | nil => rfl
    | cons x t =>
      have hx : x = c := by simpa using h
      rw [before, List.takeWhile_cons_of_neg (by simpa using hx)]
  induction s with
  | nil => exact ht
  | cons x s ih =>
    rw [before, List.cons_append, List.takeWhile_cons, before, List.takeWhile_cons]
    split
    · exact congrArg (x :: ·) ih
    · rfl

/-- `strtok` with one delimiter: the token, and where the next call goes on. -/
def strtok (c : Char) (s : List Char) : Option (List Char × List Char) :=
  match s.dropWhile (· = c) with
  | [] => none
  | u => some (before c u, u.drop ((before c u).length + 1))

/-- The token is a word if the string starts with it and then ends or has a delimiter. -/
theorem strtok_word {c : Char} {w : List Char} (hne : w ≠ []) (hw : c ∉ w) {t : List Char}
    (ht : t.head? = none ∨ t.head? = some c) : strtok c (w ++ t) = some (w, t.drop 1) := by
  obtain ⟨x, w, rfl⟩ := List.exists_cons_of_ne_nil hne
  have hx : ¬ x = c := fun hx => hw (hx ▸ List.mem_cons_self)
  have hskip : (x :: w ++ t).dropWhile (· = c) = x :: w ++ t :=
    List.dropWhile_cons_of_neg (by simpa using hx)
  rw [strtok, hskip]
  show some (before c (x :: w ++ t), (x :: w ++ t).drop ((before c (x :: w ++ t)).length + 1)) = _
  rw [(before_append hw t).mpr ht, ← List.drop_drop, List.drop_left]

end CString
