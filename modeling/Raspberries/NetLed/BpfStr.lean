import Raspberries.Lib.CBuffer
import Raspberries.NetLed.Sniffer

/-!
# The filter string

`build_bpf_str` prints the filters one behind the other, each with ` or ` behind it, and
cuts the last ` or ` off.  Every store is checked against the buffer; the running length
`siz` is an `int`, and where a sum is none the result is undefined, which is `none` too.

`siz` counts what `snprintf` would have written.  Where that does not fit, the loop stops
too late, and the zeros behind the loop are stored outside (`build_inside_iff`,
`long_filter_stores_outside`).  The cut has a guard that compares with the size of
` or ` and its zero, so that one filter of one character keeps its ` or `
(`build_join_iff`, `short_filter_keeps_or`).
-/

namespace Raspberries.NetLed

open CBuffer

def linkStr : List Char := " or ".toList

/-- `ARRAY_SIZE(link_str)`, with the terminating zero. -/
def linkStrSize : Nat := 5

structure BpfState where
  buf : Nat → Char
  siz : Nat

/-- `siz += n` for an `int`. -/
def addInt (siz n : Nat) : Option Nat := if siz + n ≤ intMax then some (siz + n) else none

def bpfLoop (bufsiz : Nat) : List (List Char) → BpfState → Option BpfState
  | [], s => some s
  | bpfStr :: rest, s =>
      if bufsiz < s.siz then some s
      else
        (snprintf bufsiz s.buf s.siz (bufsiz - s.siz) (bpfStr ++ linkStr)).bind fun r =>
        (addInt s.siz r.2).bind fun siz => bpfLoop bufsiz rest ⟨r.1, siz⟩

/-- `build_bpf_str`, for the filters `bpf_str` of the table. -/
def buildBpfStr (bufsiz : Nat) (filters : List (List Char)) (buf : Nat → Char) :
    Option (Nat → Char) :=
  (bpfLoop bufsiz filters ⟨buf, 0⟩).bind fun s =>
  (if linkStrSize < s.siz then store bufsiz s.buf (s.siz - 4) nul else some s.buf).bind fun buf =>
  if bufsiz = 0 then store bufsiz buf (s.siz - 1) nul else store bufsiz buf s.siz nul

/-! ### The loop -/

def linked (filters : List (List Char)) : List Char := filters.flatMap (· ++ linkStr)

def linkedLength (filters : List (List Char)) : Nat := (filters.map fun f => f.length + 4).sum

theorem linkedLength_cons (f : List Char) (rest : List (List Char)) :
    linkedLength (f :: rest) = (f ++ linkStr).length + linkedLength rest := by
  rw [linkedLength, List.map_cons, List.sum_cons, List.length_append]
  rfl

theorem length_linked (filters : List (List Char)) :
    (linked filters).length = linkedLength filters := by
  simp only [linked, List.length_flatMap, List.length_append]
  rfl

theorem addInt_eq_some_iff {a b c : Nat} : addInt a b = some c ↔ a + b ≤ intMax ∧ c = a + b := by
  rw [addInt, Option.ite_none_right_eq_some, Option.some.injEq, eq_comm]

section Loop

variable {bufsiz : Nat} {filters : List (List Char)}

theorem bpfLoop_eq (s : BpfState) (hne : filters ≠ [])
    (hint : s.siz + linkedLength filters ≤ intMax)
    (hfits : s.siz + linkedLength filters < bufsiz) :
    bpfLoop bufsiz filters s =
      some ⟨overwrite s.buf s.siz (linked filters ++ [nul]), s.siz + linkedLength filters⟩ := by
  induction filters generalizing s with
  | nil => exact absurd rfl hne
  | cons bpfStr rest ih =>
    rw [linkedLength_cons] at hint hfits
    have hadd : addInt s.siz (bpfStr ++ linkStr).length =
        some (s.siz + (bpfStr ++ linkStr).length) := addInt_eq_some_iff.mpr ⟨by omega, rfl⟩
    rw [bpfLoop, if_neg (by omega), snprintf_eq (by omega) (by omega) (by omega), Option.bind_some,
      hadd, Option.bind_some, linkedLength_cons]
    by_cases hrest : rest = []
    · subst hrest
      simp [bpfLoop, linked, linkedLength]
    · rw [ih _ hrest (by simp only; omega) (by simp only; omega)]
      -- the zero of this turn is the first cell of the next
      have hnul : [nul].length ≤ (linked rest ++ [nul]).length := by simp
      have hwhole : linked (bpfStr :: rest) = bpfStr ++ linkStr ++ linked rest := rfl
      rw [← overwrite_append s.buf s.siz (bpfStr ++ linkStr) [nul],
        overwrite_overwrite _ _ hnul, overwrite_append, ← List.append_assoc, ← hwhole,
        Nat.add_assoc]

/-- Either every filter was counted, or the loop ran over the end of the buffer. -/
theorem bpfLoop_siz {s s' : BpfState} (hs : s.siz ≤ intMax)
    (h : bpfLoop bufsiz filters s = some s') :
    (s'.siz = s.siz + linkedLength filters ∧ s'.siz ≤ intMax) ∨ bufsiz < s'.siz := by
  induction filters generalizing s with
  | nil =>
    obtain rfl := Option.some.inj h
    exact .inl ⟨rfl, hs⟩
  | cons bpfStr rest ih =>
    rw [bpfLoop] at h
    split at h
    next hover =>
      obtain rfl := Option.some.inj h
      exact .inr hover
    next =>
      obtain ⟨r, hr, h⟩ := Option.bind_eq_some_iff.mp h
      obtain ⟨siz, hsiz, h⟩ := Option.bind_eq_some_iff.mp h
      obtain ⟨hle, rfl⟩ := addInt_eq_some_iff.mp hsiz
      rw [snprintf_length hr] at hle h
      cases ih hle h with
      | inl hall =>
        refine .inl ⟨?_, hall.2⟩
        rw [hall.1, linkedLength_cons, Nat.add_assoc]
      | inr hover => exact .inr hover

end Loop

/-! ### Inside the buffer -/

section Result

variable {bufsiz : Nat} {filters : List (List Char)}

def finished (filters : List (List Char)) (buf : Nat → Char) : Nat → Char :=
  let printed := if filters = [] then buf else overwrite buf 0 (linked filters ++ [nul])
  let cut :=
    if linkStrSize < linkedLength filters then
      Function.update printed (linkedLength filters - 4) nul
    else printed
  Function.update cut (linkedLength filters) nul

theorem buildBpfStr_eq (hint : linkedLength filters ≤ intMax)
    (hfits : linkedLength filters < bufsiz) (buf : Nat → Char) :
    buildBpfStr bufsiz filters buf = some (finished filters buf) := by
  have hloop : bpfLoop bufsiz filters ⟨buf, 0⟩ =
      some ⟨if filters = [] then buf else overwrite buf 0 (linked filters ++ [nul]),
        linkedLength filters⟩ := by
    by_cases hnil : filters = []
    · subst hnil
      rfl
    · rw [bpfLoop_eq _ hnil (by simp only; omega) (by simp only; omega), if_neg hnil, Nat.zero_add]
  rw [buildBpfStr, hloop, Option.bind_some, finished]
  by_cases hcut : linkStrSize < linkedLength filters
  · simp only [if_pos hcut]
    rw [store, if_pos (by omega), Option.bind_some, if_neg (by omega), store, if_pos hfits]
  · simp only [if_neg hcut]
    rw [Option.bind_some, if_neg (by omega), store, if_pos hfits]

/-- The last store is inside only if every filter was counted and the sum is inside. -/
theorem linkedLength_of_build {buf buf' : Nat → Char}
    (h : buildBpfStr bufsiz filters buf = some buf') :
    linkedLength filters < bufsiz ∧ linkedLength filters ≤ intMax := by
  rw [buildBpfStr] at h
  obtain ⟨s, hloop, h⟩ := Option.bind_eq_some_iff.mp h
  obtain ⟨_, -, h⟩ := Option.bind_eq_some_iff.mp h
  have hlast : s.siz < bufsiz := by
    split at h
    next hzero =>
      have hlt := (store_eq_some_iff.mp h).1
      omega
    next => exact (store_eq_some_iff.mp h).1
  cases bpfLoop_siz (Nat.zero_le intMax) hloop with
  | inl hall =>
    simp only [Nat.zero_add] at hall
    exact ⟨hall.1 ▸ hlast, hall.1 ▸ hall.2⟩
  | inr hover => omega

/-- **No store outside the buffer.**  `build_bpf_str` stores inside and leaves a zero
inside exactly if all filters, each followed by ` or `, are fewer characters than the
buffer has, and their number is an `int`. -/
theorem build_inside_iff (bufsiz : Nat) (filters : List (List Char)) (buf : Nat → Char) :
    (∃ buf', buildBpfStr bufsiz filters buf = some buf' ∧ ∃ i < bufsiz, buf' i = nul) ↔
      linkedLength filters < bufsiz ∧ linkedLength filters ≤ intMax := by
  refine ⟨?_, ?_⟩
  · intro h
    obtain ⟨buf', hbuild, -⟩ := h
    exact linkedLength_of_build hbuild
  · intro h
    refine ⟨_, buildBpfStr_eq h.2 h.1 buf, linkedLength filters, h.1, ?_⟩
    exact Function.update_self _ _ _

/-- One filter of 300 characters and the 256 bytes of `main`. -/
theorem long_filter_stores_outside :
    ¬ ∀ (bufsiz : Nat) (filters : List (List Char)) (buf : Nat → Char), 1 ≤ bufsiz →
      ∃ buf', buildBpfStr bufsiz filters buf = some buf' ∧ ∃ i < bufsiz, buf' i = nul := by
  intro h
  obtain ⟨buf', hbuild, -⟩ := h 256 [List.replicate 300 'x'] (fun _ => nul) (by decide)
  have hlt := (linkedLength_of_build hbuild).1
  rw [linkedLength, List.map_singleton, List.length_replicate] at hlt
  exact absurd hlt (by decide)

/-! ### The join -/

def joined (filters : List (List Char)) : List Char := linkStr.intercalate filters

theorem linked_eq_joined (hne : filters ≠ []) : linked filters = joined filters ++ linkStr := by
  induction filters with
  | nil => exact absurd rfl hne
  | cons f rest ih =>
    by_cases hrest : rest = []
    · subst hrest
      simp [linked, joined]
    · have htail := ih hrest
      rw [linked, joined] at htail ⊢
      rw [List.flatMap_cons, htail, List.intercalate_cons_of_ne_nil hrest]
      simp only [List.append_assoc]

theorem linkedLength_le_iff (hne : filters ≠ []) (hfilters : ∀ f ∈ filters, f ≠ []) :
    linkedLength filters ≤ linkStrSize ↔ ∃ c, filters = [[c]] := by
  refine ⟨?_, ?_⟩
  · intro hle
    cases filters with
    | nil => exact absurd rfl hne
    | cons f rest =>
      have hlink : linkStr.length = 4 := rfl
      have hf : 0 < f.length := List.length_pos_iff.mpr (hfilters f List.mem_cons_self)
      rw [linkedLength_cons, List.length_append, linkStrSize] at hle
      cases rest with
      | nil =>
        obtain ⟨c, rfl⟩ := List.length_eq_one_iff.mp (show f.length = 1 by omega)
        exact ⟨c, rfl⟩
      | cons g rest =>
        rw [linkedLength_cons, List.length_append] at hle
        omega
  · intro h
    obtain ⟨c, rfl⟩ := h
    exact Nat.le_refl 5

theorem finished_holds_joined (hne : filters ≠ []) (hlong : linkStrSize < linkedLength filters)
    (buf : Nat → Char) : HoldsText (finished filters buf) (joined filters) := by
  have hlen : linkedLength filters = (joined filters).length + 4 := by
    rw [← length_linked, linked_eq_joined hne, List.length_append]
    rfl
  have hcut : linkedLength filters - 4 = (joined filters).length := by omega
  rw [finished]
  simp only [if_neg hne, if_pos hlong, hcut]
  refine ⟨?_, ?_⟩
  · intro i hi
    rw [Function.update_of_ne (by omega), Function.update_of_ne (by omega), overwrite_at_zero,
      linked_eq_joined hne, List.append_assoc, List.getD_append _ _ _ _ hi,
      List.getD_eq_getElem _ _ hi, List.getElem?_eq_getElem hi]
  · rw [Function.update_of_ne (by omega), Function.update_self]

theorem finished_short (c : Char) (buf : Nat → Char) :
    ¬ HoldsText (finished [[c]] buf) (joined [[c]]) := by
  intro h
  have hzero : finished [[c]] buf 1 = nul := h.2
  have hblank : finished [[c]] buf 1 = ' ' := rfl
  exact absurd (hzero.symm.trans hblank) (by decide)

/-- **The filter string is a join.**  For filters that fit with their ` or `, the buffer
holds the filters with ` or ` between them exactly if they are not one filter of one
character, and their number of characters is an `int`. -/
theorem build_join_iff (hne : filters ≠ []) (hfilters : ∀ f ∈ filters, f ≠ [])
    (hfits : linkedLength filters ≤ bufsiz - 1) (buf : Nat → Char) :
    (∃ buf', buildBpfStr bufsiz filters buf = some buf' ∧ HoldsText buf' (joined filters)) ↔
      (¬ ∃ c, filters = [[c]]) ∧ linkedLength filters ≤ intMax := by
  have hpos : 0 < linkedLength filters := by
    cases filters with
    | nil => exact absurd rfl hne
    | cons f rest =>
      have hlink : linkStr.length = 4 := rfl
      rw [linkedLength_cons, List.length_append]
      omega
  refine ⟨?_, ?_⟩
  · intro h
    obtain ⟨buf', hbuild, hholds⟩ := h
    have hint := (linkedLength_of_build hbuild).2
    rw [buildBpfStr_eq hint (by omega)] at hbuild
    obtain rfl := Option.some.inj hbuild
    refine ⟨?_, hint⟩
    intro hex
    obtain ⟨c, rfl⟩ := hex
    exact finished_short c buf hholds
  · intro h
    have hlong : linkStrSize < linkedLength filters := by
      rw [← Nat.not_le, linkedLength_le_iff hne hfilters]
      exact h.1
    exact ⟨_, buildBpfStr_eq h.2 (by omega) buf, finished_holds_joined hne hlong buf⟩

end Result

/-- The table in use and the buffer of `main`, with zeros in it. -/
theorem build_join_in_use :
    ∃ buf', buildBpfStr 256 (p2f.map (·.bpfStr)) (fun _ => nul) = some buf' ∧
      HoldsText buf' "icmp or udp or arp or (!ip)".toList :=
  (build_join_iff (by decide) (by decide) (by decide) _).mpr ⟨by simp [p2f], by decide⟩

/-- One filter `x` and the 256 bytes of `main`: the buffer holds `x or `. -/
theorem short_filter_keeps_or :
    ¬ ∀ (bufsiz : Nat) (filters : List (List Char)) (buf : Nat → Char), filters ≠ [] →
      (∀ f ∈ filters, f ≠ []) → linkedLength filters ≤ bufsiz - 1 →
      ∃ buf', buildBpfStr bufsiz filters buf = some buf' ∧ HoldsText buf' (joined filters) := by
  intro h
  obtain ⟨buf', hbuild, hholds⟩ := h 256 ["x".toList] (fun _ => nul) (by decide) (by decide)
    (by decide)
  rw [buildBpfStr_eq (by decide) (by decide)] at hbuild
  obtain rfl := Option.some.inj hbuild
  exact finished_short 'x' _ hholds

end Raspberries.NetLed
