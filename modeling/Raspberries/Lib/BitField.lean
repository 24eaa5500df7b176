import Mathlib.Logic.Function.Basic
import Mathlib.Tactic.Common

/-!
# Fields of a bank of words

A layout cuts the words of a bank into fields of one width, the same number in each
word.  The fields are numbered through the bank.  A field is replaced by a
read-modify-write of its word: mask the field out, put the new value in.  Nothing but
the field changes, and replacements of two fields commute.
-/

namespace BitField

/-- `perWord` fields of `k` bits in each word of `w` bits. -/
structure Layout (w k : Nat) where
  perWord : Nat
  perWord_pos : 0 < perWord
  fits : k * perWord ≤ w

def mask (w k : Nat) : BitVec w := (BitVec.allOnes k).setWidth w

namespace Layout

variable {w k : Nat} (L : Layout w k)

def word (i : Nat) : Nat := i / L.perWord

def shift (i : Nat) : Nat := k * (i % L.perWord)

def get (bank : Nat → BitVec w) (i : Nat) : BitVec k :=
  (bank (L.word i)).extractLsb' (L.shift i) k

/-- The word `x` with `v` in the place of field `i`. -/
def putWord (i : Nat) (v : BitVec k) (x : BitVec w) : BitVec w :=
  x &&& ~~~(mask w k <<< L.shift i) ||| v.setWidth w <<< L.shift i

def put (i : Nat) (v : BitVec k) (bank : Nat → BitVec w) : Nat → BitVec w :=
  Function.update bank (L.word i) (L.putWord i v (bank (L.word i)))

theorem shift_add_width_le (i : Nat) : L.shift i + k ≤ w := by
  have hlt : i % L.perWord + 1 ≤ L.perWord := Nat.mod_lt i L.perWord_pos
  calc L.shift i + k = k * (i % L.perWord + 1) := by rw [shift, Nat.mul_succ]
    _ ≤ k * L.perWord := Nat.mul_le_mul_left _ hlt
    _ ≤ w := L.fits

theorem shift_disjoint {i j : Nat} (hword : L.word i = L.word j) (hne : i ≠ j) :
    L.shift i + k ≤ L.shift j ∨ L.shift j + k ≤ L.shift i := by
  have hmod : i % L.perWord ≠ j % L.perWord := by
    intro heq
    apply hne
    rw [← Nat.div_add_mod i L.perWord, ← Nat.div_add_mod j L.perWord, heq]
    rw [word, word] at hword
    rw [hword]
  rw [shift, shift, ← Nat.mul_succ, ← Nat.mul_succ]
  cases Nat.lt_or_gt_of_ne hmod with
  | inl hlt => exact .inl (Nat.mul_le_mul_left _ hlt)
  | inr hgt => exact .inr (Nat.mul_le_mul_left _ hgt)

theorem getLsbD_putWord (i : Nat) (v : BitVec k) (x : BitVec w) {b : Nat} (hb : b < w) :
    (L.putWord i v x).getLsbD b =
      if L.shift i ≤ b ∧ b < L.shift i + k then v.getLsbD (b - L.shift i)
      else x.getLsbD b := by
  simp only [putWord, mask, BitVec.getLsbD_or, BitVec.getLsbD_and, BitVec.getLsbD_not,
    BitVec.getLsbD_shiftLeft, BitVec.getLsbD_setWidth, BitVec.getLsbD_allOnes, hb, decide_true,
    Bool.true_and]
  by_cases hlow : L.shift i ≤ b
  · by_cases hhigh : b < L.shift i + k
    · have hin : b - L.shift i < k := by omega
      have hsub : b - L.shift i < w := by omega
      simp [hlow, hhigh, hin, hsub, Nat.not_lt.2 hlow]
    · have hout : ¬ b - L.shift i < k := by omega
      have hzero : v.getLsbD (b - L.shift i) = false := BitVec.getLsbD_of_ge _ _ (by omega)
      simp [hhigh, hout, hzero]
  · simp [hlow, Nat.lt_of_not_le hlow]

theorem put_same_word (i : Nat) (v : BitVec k) (bank : Nat → BitVec w) :
    L.put i v bank (L.word i) = L.putWord i v (bank (L.word i)) :=
  Function.update_self _ _ _

theorem put_other_word {i n : Nat} (hne : n ≠ L.word i) (v : BitVec k)
    (bank : Nat → BitVec w) : L.put i v bank n = bank n :=
  Function.update_of_ne hne _ _

theorem get_put_self (i : Nat) (v : BitVec k) (bank : Nat → BitVec w) :
    L.get (L.put i v bank) i = v := by
  apply BitVec.eq_of_getLsbD_eq
  intro b hb
  have hend := L.shift_add_width_le i
  have hin : L.shift i ≤ L.shift i + b ∧ L.shift i + b < L.shift i + k := by omega
  rw [get, put_same_word, BitVec.getLsbD_extractLsb', L.getLsbD_putWord i v _ (by omega),
    if_pos hin, Nat.add_sub_cancel_left]
  simp [hb]

theorem get_put_ne {i j : Nat} (hne : j ≠ i) (v : BitVec k) (bank : Nat → BitVec w) :
    L.get (L.put i v bank) j = L.get bank j := by
  by_cases hword : L.word j = L.word i
  · apply BitVec.eq_of_getLsbD_eq
    intro b hb
    have hend := L.shift_add_width_le j
    have hdisj := L.shift_disjoint hword hne
    rw [get, get, hword, put_same_word, BitVec.getLsbD_extractLsb', BitVec.getLsbD_extractLsb',
      L.getLsbD_putWord i v _ (by omega), if_neg (by omega)]
  · rw [get, get, L.put_other_word hword]

theorem put_spare_bit (i : Nat) (v : BitVec k) (bank : Nat → BitVec w) (n : Nat) {b : Nat}
    (hb : b < w) (hspare : k * L.perWord ≤ b) :
    (L.put i v bank n).getLsbD b = (bank n).getLsbD b := by
  by_cases hword : n = L.word i
  · have hlt : i % L.perWord + 1 ≤ L.perWord := Nat.mod_lt i L.perWord_pos
    have hend : L.shift i + k ≤ b := by
      rw [shift, ← Nat.mul_succ]
      exact Nat.le_trans (Nat.mul_le_mul_left _ hlt) hspare
    rw [hword, put_same_word, L.getLsbD_putWord i v _ hb, if_neg (by omega)]
  · rw [L.put_other_word hword]

theorem put_comm {i j : Nat} (hne : i ≠ j) (u v : BitVec k) (bank : Nat → BitVec w) :
    L.put i u (L.put j v bank) = L.put j v (L.put i u bank) := by
  funext n
  by_cases hi : n = L.word i
  · by_cases hj : n = L.word j
    · subst hi
      have hdisj := L.shift_disjoint hj hne
      rw [put_same_word, hj, put_same_word, put_same_word, ← hj, put_same_word]
      apply BitVec.eq_of_getLsbD_eq
      intro b hb
      rw [L.getLsbD_putWord i u _ hb, L.getLsbD_putWord j v _ hb, L.getLsbD_putWord j v _ hb,
        L.getLsbD_putWord i u _ hb]
      by_cases hin : L.shift i ≤ b ∧ b < L.shift i + k
      · rw [if_pos hin, if_neg (by omega), if_pos hin]
      · rw [if_neg hin, if_neg hin]
    · rw [L.put_other_word hj, hi, put_same_word, put_same_word, L.put_other_word (hi ▸ hj)]
  · rw [L.put_other_word hi]
    by_cases hj : n = L.word j
    · rw [hj, put_same_word, put_same_word, L.put_other_word (hj ▸ hi)]
    · rw [L.put_other_word hj, L.put_other_word hj, L.put_other_word hi]

end Layout

end BitField
