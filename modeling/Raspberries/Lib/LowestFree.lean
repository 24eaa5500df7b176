import Mathlib.Data.List.Nodup
import Mathlib.Data.List.Perm.Subperm
import Mathlib.Order.Bounds.Defs

/-!
# The lowest free number

An allocator hands out the numbers below `n`.  Its state is the list of those that are
live, in the order in which they were given out; the next one is the lowest that is not
in the list.
-/

namespace LowestFree

/-- The lowest number below `n` that is not live. -/
def lowestFree (n : Nat) (live : List Nat) : Option Nat :=
  (List.range n).find? fun i => decide (i ∉ live)

/-- The live numbers are different and below `n`. -/
structure Allocated (n : Nat) (live : List Nat) : Prop where
  nodup : live.Nodup
  lt : ∀ i ∈ live, i < n

variable {n i : Nat} {live : List Nat}

theorem lowestFree_eq_some_iff :
    lowestFree n live = some i ↔ IsLeast {j | j < n ∧ j ∉ live} i := by
  rw [lowestFree, List.find?_range_eq_some]
  refine ⟨?_, ?_⟩
  · intro h
    obtain ⟨hfree, hrange, hbelow⟩ := h
    refine ⟨⟨List.mem_range.mp hrange, of_decide_eq_true hfree⟩, ?_⟩
    intro j hj
    by_cases hlt : j < i
    · have hlive := hbelow j hlt
      simp [hj.2] at hlive
    · omega
  · intro h
    obtain ⟨⟨hlt, hfree⟩, hleast⟩ := h
    refine ⟨decide_eq_true hfree, List.mem_range.mpr hlt, ?_⟩
    intro j hj
    by_cases hlive : j ∈ live
    · simp [hlive]
    · have hle : i ≤ j := hleast ⟨by omega, hlive⟩
      omega

theorem lowestFree_eq_none_iff : lowestFree n live = none ↔ ∀ i < n, i ∈ live := by
  rw [lowestFree, List.find?_range_eq_none]
  simp

/-- There is none left exactly if `n` numbers are live. -/
theorem Allocated.lowestFree_eq_none_iff (h : Allocated n live) :
    lowestFree n live = none ↔ live.length = n := by
  have hsub : live ⊆ List.range n := fun i hi => List.mem_range.mpr (h.lt i hi)
  have hsubperm := h.nodup.subperm hsub
  rw [LowestFree.lowestFree_eq_none_iff]
  refine ⟨?_, ?_⟩
  · intro hall
    have hsub' : List.range n ⊆ live := fun i hi => hall i (List.mem_range.mp hi)
    have hge := (List.nodup_range.subperm hsub').length_le
    have hle := hsubperm.length_le
    rw [List.length_range] at hge hle
    omega
  · intro hlen i hi
    have hperm := hsubperm.perm_of_length_le (by simp [hlen])
    exact hperm.mem_iff.mpr (List.mem_range.mpr hi)

theorem Allocated.concat (h : Allocated n live) (hlt : i < n) (hfree : i ∉ live) :
    Allocated n (live ++ [i]) where
  nodup := List.nodup_append.mpr
    ⟨h.nodup, List.nodup_singleton i, by
      intro j hj k hk
      rw [List.mem_singleton.mp hk]
      exact ne_of_mem_of_not_mem hj hfree⟩
  lt := by
    intro j hj
    cases List.mem_append.mp hj with
    | inl hj => exact h.lt j hj
    | inr hj => exact List.mem_singleton.mp hj ▸ hlt

theorem Allocated.erase (h : Allocated n live) (i : Nat) : Allocated n (live.erase i) where
  nodup := h.nodup.erase i
  lt := fun j hj => h.lt j (List.mem_of_mem_erase hj)

end LowestFree
