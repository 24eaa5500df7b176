import Raspberries.IrAlarm.IrShmem
import Raspberries.IrAlarm.Settings
import Raspberries.Lib.CString

/-!
# Reading and writing an object in `iralarmctl.c`

`do_get` and `do_set` access an object through the pointer of its type, and
`set_object` is what the option `-s ID -v VALUE` and the shell command `SET ID VALUE`
have in common: `str2int` on the text of the value, `irmem_getptr`, `do_set`.

`set_exact_iff` says for which texts that stores the number the text denotes, or
nothing.  `str2int` only tests that `strtoul` has consumed something, and `do_set`
stores the last bytes of the value; so trailing text is ignored, a minus sign negates,
and a number that is too large is cut to the width of the object.
-/

namespace Raspberries.IrAlarm

open Bytes CString

/-- `str2int`, with an `unsigned long` of `W` bits. -/
def str2int (W : Nat) (buf : List Char) : Option Nat :=
  let (val, consumed) := strtoul W buf
  if consumed = 0 then none else some val

/-- What `do_get` and `do_set` print. -/
structure Shown where
  desc : String
  value : Option Nat
  deriving DecidableEq, Repr

section Objects

variable (initial : List ShmObject) (id ptr : Nat)

def doGet (seg : Memory) : Shown where
  desc := irsmDesc.getD id ""
  value := (irmemType initial id).map fun type => readLE seg ptr type.size

/-- The store goes through a pointer of the object's type to the `unsigned long`. -/
def doSet (value : Nat) (seg : Memory) : Memory × Shown :=
  match irmemType initial id with
  | some type =>
    let seg := writeLE seg ptr type.size value
    (seg, doGet initial id ptr seg)
  | none => (seg, doGet initial id ptr seg)

end Objects

/-- The set operation; `none` when it is refused, which leaves the segment as it was. -/
def setObject (W : Nat) (initial : List ShmObject) (id : Nat) (s : List Char) (seg : Memory) :
    Option (Memory × Shown) :=
  match str2int W s, irmemGetptr initial id with
  | some value, some ptr => some (doSet initial id ptr value seg)
  | _, _ => none

/-! ### What is stored -/

/-- The text is a numeral and its number fits the object. -/
def Fits (initial : List ShmObject) (id : Nat) (s : List Char) : Prop :=
  IsNumeral s ∧ ∃ type, irmemType initial id = some type ∧ ofDigits s < 256 ^ type.size

/-- The operation stores the number the text denotes, and refuses a text that denotes
none or one that does not fit. -/
structure SetsExactly (W : Nat) (initial : List ShmObject) (id : Nat) (s : List Char)
    (seg : Memory) : Prop where
  stored : ∀ r, setObject W initial id s seg = some r → IsNumeral s ∧
    ∃ ptr, irmemGetptr initial id = some ptr ∧
      (doGet initial id ptr r.1).value = some (ofDigits s)
  refused : ¬ Fits initial id s → setObject W initial id s seg = none

theorem str2int_eq_none {W : Nat} {s : List Char} : str2int W s = none ↔ leadingDigits s = [] := by
  rw [← @strtoul_consumed W s, str2int]
  simp

theorem setObject_eq_none {W : Nat} {initial : List ShmObject} {id : Nat} {s : List Char}
    {seg : Memory} : setObject W initial id s seg = none ↔
      id ≥ initial.length ∨ leadingDigits s = [] := by
  rw [← @str2int_eq_none W s, setObject, irmemGetptr]
  by_cases hid : id ≥ initial.length
  · simp [hid]
  · cases hstr : str2int W s <;> simp [hid]

theorem doGet_doSet {initial : List ShmObject} {id ptr value : Nat} {seg : Memory}
    {type : ShmObject} (h : irmemType initial id = some type) :
    (doGet initial id ptr (doSet initial id ptr value seg).1).value =
      some (value % 256 ^ type.size) := by
  simp [doSet, doGet, h]

theorem setObject_of_fits {W : Nat} {initial : List ShmObject} {id : Nat} {s : List Char}
    {seg : Memory} (hW : ∀ type ∈ initial, 8 * type.size ≤ W) (h : Fits initial id s) :
    ∃ ptr r, irmemGetptr initial id = some ptr ∧ setObject W initial id s seg = some r ∧
      (doGet initial id ptr r.1).value = some (ofDigits s) := by
  obtain ⟨hnum, type, htype, hlt⟩ := h
  have hmem := List.mem_of_getElem? htype
  have hid : ¬ id ≥ initial.length := by
    have hlt := (List.getElem?_eq_some_iff.mp htype).1
    omega
  have hwidth : ofDigits s < 2 ^ W := by
    have hle : (256 : Nat) ^ type.size ≤ 2 ^ W := by
      rw [show (256 : Nat) = 2 ^ 8 by rfl, ← Nat.pow_mul]
      exact Nat.pow_le_pow_right (by decide) (hW type hmem)
    omega
  have hstr : str2int W s = some (ofDigits s) := by
    rw [str2int, strtoul_of_isNumeral hnum hwidth]
    simp [hnum.1]
  refine ⟨_, _, by rw [irmemGetptr, if_neg hid],
    by rw [setObject, hstr, irmemGetptr, if_neg hid], ?_⟩
  rw [doGet_doSet htype, Nat.mod_eq_of_lt hlt]

/-- **When SET is exact.**  It stores what was asked or changes nothing exactly if there
is no such object, or the text has no digit behind white space and one sign, or the
whole text is a numeral whose number fits the object. -/
theorem set_exact_iff {W : Nat} (hW : 32 ≤ W) (id : Nat) (s : List Char) (seg : Memory) :
    SetsExactly W irsmData id s seg ↔
      id ≥ irsmData.length ∨ leadingDigits s = [] ∨ Fits irsmData id s := by
  have hsizes : ∀ type ∈ irsmData, 8 * type.size ≤ W := by
    intro type htype
    have hsize : type.size ≤ 4 := by
      revert type
      decide
    omega
  refine ⟨?_, ?_⟩
  · intro hexact
    by_cases hfits : Fits irsmData id s
    · exact Or.inr (Or.inr hfits)
    · exact (setObject_eq_none.mp (hexact.refused hfits)).imp_right Or.inl
  · intro h
    by_cases hfits : Fits irsmData id s
    · obtain ⟨ptr, r, hptr, hset, hget⟩ := @setObject_of_fits W irsmData id s seg hsizes hfits
      refine ⟨fun r' hr => ?_, fun hnot => absurd hfits hnot⟩
      obtain rfl := Option.some.inj (hset.symm.trans hr)
      exact ⟨hfits.1, ptr, hptr, hget⟩
    · have hrefused : setObject W irsmData id s seg = none := by
        apply setObject_eq_none.mpr
        rcases h with h | h | h
        · exact Or.inl h
        · exact Or.inr h
        · exact absurd h hfits
      refine ⟨?_, ?_⟩
      · intro r hr
        rw [hrefused] at hr
        cases hr
      · exact fun _ => hrefused

theorem set_exact_twelve : SetsExactly 32 irsmData shmMinalrms "12".toList fun _ => 0 :=
  (set_exact_iff (by decide) _ _ _).mpr
    (Or.inr (Or.inr ⟨by decide, .int32, by decide, by decide⟩))

/-- A negative number is stored, as `4294967295`. -/
theorem set_negative_stored :
    ¬ ∀ (id : Nat) (s : List Char) (seg : Memory), SetsExactly 32 irsmData id s seg := by
  intro h
  have hnot : ¬ Fits irsmData shmMinalrms "-1".toList := fun hfits => absurd hfits.1 (by decide)
  have hrefused := (h shmMinalrms "-1".toList fun _ => 0).refused hnot
  have hsome : (setObject 32 irsmData shmMinalrms "-1".toList fun _ => 0).isSome = true := by
    decide
  rw [hrefused] at hsome
  cases hsome

end Raspberries.IrAlarm
