import Mathlib.Algebra.Ring.Nat
import Mathlib.Logic.Function.Basic
import Mathlib.Tactic.Common

/-!
# Byte memory in little endian order

A memory is a function from addresses to bytes.  `readLE m a n` is the number in the
`n` bytes from `a` on and `writeLE m a n v` stores the last `n` bytes of `v` there; a
number that does not fit is cut off, as by a store of a narrower type.
-/

namespace Bytes

abbrev Memory := Nat → BitVec 8

def readLE (m : Memory) (a : Nat) : Nat → Nat
  | 0 => 0
  | n + 1 => (m a).toNat + 256 * readLE m (a + 1) n

def writeLE (m : Memory) (a : Nat) : Nat → Nat → Memory
  | 0, _ => m
  | n + 1, v => writeLE (Function.update m a (BitVec.ofNat 8 v)) (a + 1) n (v / 256)

theorem writeLE_of_lt {a b : Nat} (h : b < a) (n v : Nat) (m : Memory) :
    writeLE m a n v b = m b := by
  induction n generalizing m a v with
  | zero => rfl
  | succ n ih =>
    rw [writeLE, ih (by omega), Function.update_of_ne (by omega)]

/-- A load after a store to the same place, of no more bytes than were stored. -/
theorem readLE_writeLE_of_le {k n : Nat} (h : k ≤ n) (m : Memory) (a v : Nat) :
    readLE (writeLE m a n v) a k = v % 256 ^ k := by
  induction k generalizing m a n v with
  | zero => rw [readLE, Nat.pow_zero, Nat.mod_one]
  | succ k ih =>
    obtain ⟨n, rfl⟩ : ∃ j, n = j + 1 := ⟨n - 1, by omega⟩
    have hbyte : (writeLE m a (n + 1) v a).toNat = v % 256 := by
      rw [writeLE, writeLE_of_lt (by omega), Function.update_self, BitVec.toNat_ofNat]
    rw [readLE, hbyte, writeLE, ih (by omega), Nat.pow_succ', Nat.mod_mul]

@[simp] theorem readLE_writeLE_self (m : Memory) (a n v : Nat) :
    readLE (writeLE m a n v) a n = v % 256 ^ n :=
  readLE_writeLE_of_le (Nat.le_refl n) m a v

theorem writeLE_mod (m : Memory) (a n v : Nat) : writeLE m a n (v % 256 ^ n) = writeLE m a n v := by
  induction n generalizing m a v with
  | zero => rfl
  | succ n ih =>
    have hbyte : BitVec.ofNat 8 (v % 256 ^ (n + 1)) = BitVec.ofNat 8 v := by
      apply BitVec.eq_of_toNat_eq
      rw [BitVec.toNat_ofNat, BitVec.toNat_ofNat, Nat.pow_succ']
      exact Nat.mod_mul_right_mod v 256 (256 ^ n)
    have hrest : v % 256 ^ (n + 1) / 256 = v / 256 % 256 ^ n := by
      rw [Nat.pow_succ', Nat.mod_mul_right_div_self]
    rw [writeLE, hbyte, hrest, ih, writeLE]

theorem writeLE_of_ge {a b n : Nat} (h : a + n ≤ b) (v : Nat) (m : Memory) :
    writeLE m a n v b = m b := by
  induction n generalizing m a v with
  | zero => rfl
  | succ n ih =>
    rw [writeLE, ih (by omega), Function.update_of_ne (by omega)]

theorem readLE_congr {m m' : Memory} {a n : Nat} (h : ∀ b, a ≤ b → b < a + n → m b = m' b) :
    readLE m a n = readLE m' a n := by
  induction n generalizing a with
  | zero => rfl
  | succ n ih =>
    rw [readLE, readLE, h a (by omega) (by omega), ih fun b hb hlt => h b (by omega) (by omega)]

theorem readLE_writeLE_of_disjoint {a b n k : Nat} (h : a + n ≤ b ∨ b + k ≤ a) (v : Nat)
    (m : Memory) : readLE (writeLE m b k v) a n = readLE m a n := by
  apply readLE_congr
  intro c hge hlt
  rcases h with h | h
  · exact writeLE_of_lt (by omega) k v m
  · exact writeLE_of_ge (by omega) v m

end Bytes
