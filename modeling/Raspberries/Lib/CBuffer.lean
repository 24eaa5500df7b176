import Mathlib.Algebra.Ring.Nat
import Mathlib.Data.List.GetD
import Mathlib.Logic.Function.Basic
import Mathlib.Tactic.Common

/-!
# Stores into a buffer of characters

A buffer has `n` cells.  A store is checked against `n`, so that `none` is a store
outside; the text that a buffer holds from its beginning ends before a zero.
-/

namespace CBuffer

def nul : Char := Char.ofNat 0

def store (n : Nat) (buf : Nat → Char) (i : Nat) (c : Char) : Option (Nat → Char) :=
  if i < n then some (Function.update buf i c) else none

/-- Stores of the characters of `cs`, from cell `off` on. -/
def storeAll (n : Nat) (buf : Nat → Char) (off : Nat) : List Char → Option (Nat → Char)
  | [] => some buf
  | c :: cs => (store n buf off c).bind fun buf => storeAll n buf (off + 1) cs

/-- The contents with `cs` from cell `off` on. -/
def overwrite (buf : Nat → Char) (off : Nat) (cs : List Char) : Nat → Char := fun i =>
  if off ≤ i then cs.getD (i - off) (buf i) else buf i

/-- `INT_MAX` of a 32-bit `int`. -/
def intMax : Nat := 2 ^ 31 - 1

/-- `snprintf(buf + off, size, "%s", text)`: as much of the text as there is room for before
a zero, and the length of the whole text.  There is none for a length that is no `int`. -/
def snprintf (n : Nat) (buf : Nat → Char) (off size : Nat) (text : List Char) :
    Option ((Nat → Char) × Nat) :=
  if text.length ≤ intMax then
    (if size = 0 then some buf else storeAll n buf off (text.take (size - 1) ++ [nul])).map
      fun buf => (buf, text.length)
  else none

/-- The buffer holds the text and its terminating zero. -/
def HoldsText (buf : Nat → Char) (text : List Char) : Prop :=
  (∀ i < text.length, some (buf i) = text[i]?) ∧ buf text.length = nul

section Stores

variable {n off i : Nat} {buf buf' : Nat → Char} {cs : List Char}

theorem store_eq_some_iff {c : Char} :
    store n buf i c = some buf' ↔ i < n ∧ buf' = Function.update buf i c := by
  rw [store, Option.ite_none_right_eq_some, Option.some.injEq, eq_comm]

theorem overwrite_nil (buf : Nat → Char) (off : Nat) : overwrite buf off [] = buf := by
  funext i
  simp [overwrite]

theorem overwrite_cons (buf : Nat → Char) (off : Nat) (c : Char) (cs : List Char) :
    overwrite buf off (c :: cs) = overwrite (Function.update buf off c) (off + 1) cs := by
  funext i
  simp only [overwrite, Function.update_apply]
  by_cases hlow : off + 1 ≤ i
  · have hsucc : i - off = i - (off + 1) + 1 := by omega
    rw [if_pos (by omega), if_pos hlow, if_neg (by omega), hsucc, List.getD_cons_succ]
  · rw [if_neg hlow]
    by_cases heq : i = off
    · rw [heq, if_pos (Nat.le_refl off), if_pos rfl, Nat.sub_self, List.getD_cons_zero]
    · rw [if_neg (by omega), if_neg heq]

theorem storeAll_eq (h : off + cs.length ≤ n) (buf : Nat → Char) :
    storeAll n buf off cs = some (overwrite buf off cs) := by
  induction cs generalizing buf off with
  | nil => rw [storeAll, overwrite_nil]
  | cons c cs ih =>
    rw [List.length_cons] at h
    rw [storeAll, store, if_pos (by omega), Option.bind_some, ih (by omega), overwrite_cons]

/-- Behind a text that is already there, an overwriting extends it. -/
theorem overwrite_append (buf : Nat → Char) (off : Nat) (cs ds : List Char) :
    overwrite (overwrite buf off cs) (off + cs.length) ds = overwrite buf off (cs ++ ds) := by
  induction cs generalizing buf off with
  | nil => rw [overwrite_nil, List.length_nil, Nat.add_zero, List.nil_append]
  | cons c cs ih =>
    rw [List.cons_append, overwrite_cons, overwrite_cons, ← ih, List.length_cons,
      Nat.add_right_comm off 1, Nat.add_assoc]

theorem overwrite_overwrite (buf : Nat → Char) (off : Nat) {cs ds : List Char}
    (h : cs.length ≤ ds.length) :
    overwrite (overwrite buf off cs) off ds = overwrite buf off ds := by
  funext i
  simp only [overwrite]
  by_cases hlow : off ≤ i
  · rw [if_pos hlow, if_pos hlow, if_pos hlow]
    by_cases hin : i - off < ds.length
    · rw [List.getD_eq_getElem _ _ hin, List.getD_eq_getElem _ _ hin]
    · rw [List.getD_eq_default _ _ (by omega), List.getD_eq_default _ _ (by omega),
        List.getD_eq_default _ _ (by omega)]
  · rw [if_neg hlow, if_neg hlow, if_neg hlow]

theorem snprintf_eq {size : Nat} {text : List Char} (hint : text.length ≤ intMax)
    (hsize : text.length < size) (hfits : off + size ≤ n) (buf : Nat → Char) :
    snprintf n buf off size text = some (overwrite buf off (text ++ [nul]), text.length) := by
  have hlen : off + (text ++ [nul]).length ≤ n := by
    rw [List.length_append, List.length_singleton]
    omega
  rw [snprintf, if_pos hint, if_neg (by omega), List.take_of_length_le (by omega),
    storeAll_eq hlen]
  rfl

/-- Whatever the text is, what is returned is its length. -/
theorem snprintf_length {size : Nat} {text : List Char} {r : (Nat → Char) × Nat}
    (h : snprintf n buf off size text = some r) : r.2 = text.length := by
  rw [snprintf, Option.ite_none_right_eq_some] at h
  obtain ⟨_, -, rfl⟩ := Option.map_eq_some_iff.mp h.2
  rfl

theorem overwrite_at_zero (buf : Nat → Char) (cs : List Char) (i : Nat) :
    overwrite buf 0 cs i = cs.getD i (buf i) := by
  rw [overwrite, if_pos (Nat.zero_le i), Nat.sub_zero]

end Stores

end CBuffer
