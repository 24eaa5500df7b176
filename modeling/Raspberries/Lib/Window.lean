import Mathlib.Order.Interval.Finset.Nat
import Mathlib.Tactic.Common

/-!
# Counting in windows, and the counter that never goes below zero

`count p j n` is the number of indices in `[j, n)` at which `p` holds.

`level x a m` is a counter that starts at `0` before index `a` and then, at each
of the `m` indices that follow, goes up by one where `x` holds and down by one
where it does not, but never below `0`.  `lt_level_iff` says what such a counter
measures: it is above `k` exactly when some window that ends now has at least
`k + 1` more ups than downs.
-/

namespace Window

/-- How often `p` holds in `[j, n)`. -/
def count (p : Nat → Prop) [DecidablePred p] (j n : Nat) : Nat :=
  ((Finset.Ico j n).filter p).card

section Count

variable (p : Nat → Prop) [DecidablePred p]

@[simp] theorem count_self (j : Nat) : count p j j = 0 := by
  simp [count]

theorem count_succ {j n : Nat} (h : j ≤ n) :
    count p j (n + 1) = count p j n + if p n then 1 else 0 := by
  have hIco : Finset.Ico j (n + 1) = insert n (Finset.Ico j n) := by
    ext k
    simp only [Finset.mem_Ico, Finset.mem_insert]
    omega
  rw [count, count, hIco, Finset.filter_insert]
  by_cases hp : p n
  · rw [if_pos hp, if_pos hp, Finset.card_insert_of_notMem (by simp)]
  · rw [if_neg hp, if_neg hp, Nat.add_zero]

theorem count_of_all {j n : Nat} (h : ∀ k, j ≤ k → k < n → p k) : count p j n = n - j := by
  have hall : (Finset.Ico j n).filter p = Finset.Ico j n :=
    Finset.filter_true_of_mem fun k hk => h k (Finset.mem_Ico.mp hk).1 (Finset.mem_Ico.mp hk).2
  rw [count, hall, Nat.card_Ico]

theorem count_of_none {j n : Nat} (h : ∀ k, j ≤ k → k < n → ¬ p k) : count p j n = 0 := by
  rw [count, Finset.card_eq_zero, Finset.filter_eq_empty_iff]
  intro k hk
  exact h k (Finset.mem_Ico.mp hk).1 (Finset.mem_Ico.mp hk).2

end Count

/-! ### The counter -/

section Level

variable (x : Nat → Prop) [DecidablePred x]

/-- The counter after the `m` indices `a, …, a + m - 1`, from `0`. -/
def level (a : Nat) : Nat → Nat
  | 0 => 0
  | m + 1 => if x (a + m) then level a m + 1 else level a m - 1

/-- Ups minus downs in `[j, n)`. -/
def rise (j n : Nat) : Int := (count x j n : Int) - count (fun k => ¬ x k) j n

@[simp] theorem rise_self (j : Nat) : rise x j j = 0 := by
  simp [rise]

theorem rise_succ {j n : Nat} (h : j ≤ n) :
    rise x j (n + 1) = rise x j n + if x n then 1 else -1 := by
  rw [rise, rise, count_succ x h, count_succ (fun k => ¬ x k) h]
  by_cases hx : x n
  · simp only [hx, if_true, not_true_eq_false, if_false]; omega
  · simp only [hx, if_false, not_false_eq_true, if_true]; omega

/-- **What the counter measures.** -/
theorem lt_level_iff (a : Nat) : ∀ (m k : Nat),
    k < level x a m ↔ ∃ j, a ≤ j ∧ j ≤ a + m ∧ (k : Int) < rise x j (a + m) := by
  intro m
  induction m with
  | zero =>
    intro k
    refine ⟨fun h => absurd h (Nat.not_lt_zero k), ?_⟩
    intro hex
    obtain ⟨j, h1, h2, h3⟩ := hex
    obtain rfl : j = a := by omega
    rw [Nat.add_zero, rise_self] at h3
    omega
  | succ m ih =>
    intro k
    rw [level, ← Nat.add_assoc]
    by_cases hx : x (a + m)
    · rw [if_pos hx]
      refine ⟨?_, ?_⟩
      · intro h
        cases k with
        | zero =>
          -- the last index alone is a window with one up
          refine ⟨a + m, by omega, by omega, ?_⟩
          rw [rise_succ x (Nat.le_refl _), rise_self, if_pos hx]
          decide
        | succ k =>
          obtain ⟨j, h1, h2, h3⟩ := (ih k).mp (by omega)
          refine ⟨j, h1, by omega, ?_⟩
          rw [rise_succ x h2, if_pos hx]
          omega
      · intro hex
        obtain ⟨j, h1, h2, h3⟩ := hex
        by_cases hj : j ≤ a + m
        · rw [rise_succ x hj, if_pos hx] at h3
          cases k with
          | zero => omega
          | succ k => have := (ih k).mpr ⟨j, h1, hj, by omega⟩; omega
        · obtain rfl : j = a + m + 1 := by omega
          rw [rise_self] at h3
          omega
    · rw [if_neg hx]
      refine ⟨?_, ?_⟩
      · intro h
        obtain ⟨j, h1, h2, h3⟩ := (ih (k + 1)).mp (by omega)
        refine ⟨j, h1, by omega, ?_⟩
        rw [rise_succ x h2, if_neg hx]
        omega
      · intro hex
        obtain ⟨j, h1, h2, h3⟩ := hex
        by_cases hj : j ≤ a + m
        · rw [rise_succ x hj, if_neg hx] at h3
          have := (ih (k + 1)).mpr ⟨j, h1, hj, by omega⟩
          omega
        · obtain rfl : j = a + m + 1 := by omega
          rw [rise_self] at h3
          omega

end Level

end Window
