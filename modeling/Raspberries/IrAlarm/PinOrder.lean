import Mathlib.Data.List.Basic
import Raspberries.IrAlarm.PinHandoff

/-!
# Calls of `__isr_init` in the order of their stores

In `Rpio.isrInit` a call is one step.  Here the calls and the threads of `PinSys` take
their steps in any order, and `isr_in_store_order` says that when no call is under way,
the functions, the running threads and the open files are those of `Rpio.isrInit` applied
to one call after another, in the order in which the calls wrote `isrFunctions`.

The files are an exception for a pin whose `open` failed in one call while another call
was under way: the `-1` of the failed one then overwrites the descriptor of the other.
-/

namespace Raspberries.IrAlarm

open Transition

namespace PinSys

variable {ι H : Type*} (req : ι → IsrCall H)

/-- The state of `irpio.c` after the calls `order`, one after another, each in one step. -/
def inOrder (order : List ι) : Rpio H :=
  order.foldl (fun r i => (r.isrInit (req i).pin (req i).function true).2) Rpio.blank

theorem inOrder_concat (order : List ι) (i : ι) :
    inOrder req (order ++ [i]) =
      ((inOrder req order).isrInit (req i).pin (req i).function true).2 := by
  rw [inOrder, List.foldl_append]
  rfl

section Opened

variable {H : Type*} (r : Rpio H) (pin : Nat) (function : H)

theorem isrInit_functions : (r.isrInit pin function true).2.isrFunctions =
    Function.update r.isrFunctions pin (some function) := by
  simp [Rpio.isrInit]

theorem isrInit_handlers : (r.isrInit pin function true).2.handlers = pin :: r.handlers := by
  simp [Rpio.isrInit]

theorem isrInit_sysFds : (r.isrInit pin function true).2.sysFds =
    Function.update r.sysFds pin (some ((r.sysFds pin).getD ⟨pin⟩)) := by
  simp [Rpio.isrInit]

end Opened

theorem inOrder_handlers (order : List ι) :
    (inOrder req order).handlers = (order.map fun i => (req i).pin).reverse := by
  induction order using List.reverseRecOn with
  | nil => rfl
  | append_singleton order i ih => simp [inOrder_concat, isrInit_handlers, ih]

theorem inOrder_functions (order : List ι) (pin : Nat) (f : H)
    (h : (inOrder req order).isrFunctions pin = some f) :
    ∃ j ∈ order, (req j).pin = pin ∧ (req j).function = f := by
  induction order using List.reverseRecOn with
  | nil => cases h
  | append_singleton order i ih =>
    rw [inOrder_concat, isrInit_functions] at h
    by_cases hpin : pin = (req i).pin
    · subst hpin
      rw [Function.update_self] at h
      exact ⟨i, by simp, rfl, Option.some.inj h⟩
    · rw [Function.update_of_ne hpin] at h
      obtain ⟨j, hj, hp, hf⟩ := ih h
      exact ⟨j, by simp [hj], hp, hf⟩

theorem inOrder_functions_of_mem {order : List ι} {i : ι} (h : i ∈ order) :
    ∃ f, (inOrder req order).isrFunctions (req i).pin = some f := by
  induction order using List.reverseRecOn with
  | nil => cases h
  | append_singleton order k ih =>
    rw [inOrder_concat, isrInit_functions]
    by_cases hpin : (req i).pin = (req k).pin
    · rw [hpin]
      exact ⟨_, Function.update_self ..⟩
    · rw [Function.update_of_ne hpin]
      refine ih ?_
      rcases List.mem_append.mp h with h | h
      · exact h
      · rw [List.mem_singleton.mp h] at hpin
        exact absurd rfl hpin

/-- After `order` the file of a pin is open exactly if one of the calls was for it. -/
theorem inOrder_sysFds (order : List ι) (pin : Nat) :
    (∃ i ∈ order, (req i).pin = pin) ∧ (inOrder req order).sysFds pin = some ⟨pin⟩ ∨
    (¬ ∃ i ∈ order, (req i).pin = pin) ∧ (inOrder req order).sysFds pin = none := by
  induction order using List.reverseRecOn with
  | nil => exact Or.inr ⟨by simp, rfl⟩
  | append_singleton order k ih =>
    rw [inOrder_concat, isrInit_sysFds]
    by_cases hpin : pin = (req k).pin
    · subst hpin
      refine Or.inl ⟨⟨k, by simp, rfl⟩, ?_⟩
      rw [Function.update_self]
      rcases ih with ⟨-, ih⟩ | ⟨-, ih⟩ <;> rw [ih] <;> rfl
    · rw [Function.update_of_ne hpin]
      rcases ih with ⟨⟨i, hi, hp⟩, ih⟩ | ⟨hnone, ih⟩
      · exact Or.inl ⟨⟨i, by simp [hi], hp⟩, ih⟩
      · refine Or.inr ⟨?_, ih⟩
        intro hex
        obtain ⟨i, hi, hp⟩ := hex
        rcases List.mem_append.mp hi with hi | hi
        · exact hnone ⟨i, hi, hp⟩
        · rw [List.mem_singleton.mp hi] at hp
          exact hpin hp.symm

/-- The functions are those of the calls in the order of their stores, and what the threads
have called was registered for their pin. -/
structure Registered (s : PinSys ι H) : Prop where
  mem : ∀ i, i ∈ s.stored ↔ (s.calls i).HasStored
  nodup : s.stored.Nodup
  functions : s.isrFunctions = (inOrder req s.stored).isrFunctions
  fired : ∀ e ∈ s.fired, ∃ j ∈ s.stored, (req j).pin = (req e.1).pin ∧ e.2 = some (req j).function

section Registered

variable {req} {s t : PinSys ι H} {i : ι}

/-- A thread that is about to call finds a function that was registered for its pin. -/
theorem Registered.function (hoff : s.HandsOff req) (hs : s.Registered req) {pin : Nat}
    (hh : s.handlers i = .fire (some pin)) :
    ∃ j ∈ s.stored, (req j).pin = (req i).pin ∧ s.isrFunctions pin = some (req j).function := by
  have hpin : pin = (req i).pin := Option.some.inj ((hoff.placed i).hasPin (Or.inr hh))
  have hi : i ∈ s.stored := (hs.mem i).mpr ((hoff.placed i).hasStored (by rw [hh]; simp))
  obtain ⟨f, hf⟩ := inOrder_functions_of_mem req hi
  obtain ⟨j, hj, hp, hfun⟩ := inOrder_functions req s.stored _ f hf
  refine ⟨j, hj, hp, ?_⟩
  rw [hs.functions, hpin, hf, hfun]

variable [DecidableEq ι]

theorem StepTo.hasStored (h : StepTo req s i t) :
    t.stored = s.stored ∧ t.isrFunctions = s.isrFunctions ∧
      (∀ j, (t.calls j).HasStored ↔ (s.calls j).HasStored) ∨
    s.calls i = .store ∧ t = ({ s with
      isrFunctions := Function.update s.isrFunctions (req i).pin (some (req i).function)
      stored := s.stored ++ [i] }.setCall i .lock) := by
  have hmoves : ∀ {u : PinSys ι H} {c : IsrPc}, u.calls = s.calls →
      (c.HasStored ↔ (s.calls i).HasStored) →
      ∀ j, ((u.setCall i c).calls j).HasStored ↔ (s.calls j).HasStored := by
    intro u c hu hc j
    by_cases hj : j = i
    · rw [hj, setCall_self, hc]
    · rw [setCall_of_ne u i c hj, hu]
  cases h with
  | stays | loads | clears | wakes | fires => exact Or.inl ⟨rfl, rfl, fun _ => Iff.rfl⟩
  | begins c hc hto =>
    refine Or.inl ⟨rfl, rfl, hmoves rfl ?_⟩
    rcases hto with rfl | ⟨rfl, -⟩ <;> simp [IsrPc.HasStored, hc]
  | opens hc | fails hc => exact Or.inl ⟨rfl, rfl, hmoves rfl (by simp [IsrPc.HasStored, hc])⟩
  | locks hc | passes hc | creates hc | lacks hc | sees hc | unlocks hc =>
    exact Or.inl ⟨rfl, rfl, hmoves rfl (by simp [IsrPc.HasStored, hc])⟩
  | stores hc => exact Or.inr ⟨hc, rfl⟩

theorem StepTo.fired (h : StepTo req s i t) : t.fired = s.fired ∨
    ∃ pin, s.handlers i = .fire (some pin) ∧ t.fired = (i, s.isrFunctions pin) :: s.fired := by
  cases h with
  | fires pin hh => exact Or.inr ⟨pin, hh, rfl⟩
  | stays | begins | opens | fails | stores | locks | passes | creates | lacks | sees | unlocks
  | loads | clears | wakes => exact Or.inl rfl

theorem registered_step {a : PinAct ι} (hoff : s.HandsOff req) (hs : s.Registered req)
    (h : step req s a = some t) : t.Registered req := by
  obtain ⟨i, hto⟩ := stepTo_of_step h
  have hfired : ∀ e ∈ t.fired, ∃ j ∈ s.stored, (req j).pin = (req e.1).pin ∧
      e.2 = some (req j).function := by
    rcases hto.fired with hf | ⟨pin, hh, hf⟩ <;> rw [hf]
    · exact hs.fired
    · intro e he
      rcases List.mem_cons.mp he with rfl | he
      · exact hs.function hoff hh
      · exact hs.fired e he
  rcases hto.hasStored with ⟨hst, hfun, hmem⟩ | ⟨hc, rfl⟩
  · refine ⟨fun j => ?_, ?_, ?_, ?_⟩
    · rw [hst, hmem j]
      exact hs.mem j
    · rw [hst]
      exact hs.nodup
    · rw [hst, hfun]
      exact hs.functions
    · rw [hst]
      exact hfired
  · refine ⟨fun j => ?_, ?_, ?_, fun e he => ?_⟩
    · by_cases hj : j = i
      · subst hj
        rw [setCall_self]
        simp [setCall, IsrPc.HasStored]
      · rw [setCall_of_ne _ i _ hj]
        simpa [setCall, hj] using hs.mem j
    · refine List.nodup_append.mpr ⟨hs.nodup, List.pairwise_singleton _ _, ?_⟩
      intro j hj k hk heq
      rw [List.mem_singleton.mp hk] at heq
      rw [heq, hs.mem i, hc] at hj
      exact absurd hj (by simp [IsrPc.HasStored])
    · show Function.update s.isrFunctions _ _ = _
      rw [hs.functions]
      exact ((inOrder_concat req s.stored i).symm ▸ isrInit_functions _ _ _).symm
    · obtain ⟨j, hj, hp, hf⟩ := hfired e he
      exact ⟨j, List.mem_append_left _ hj, hp, hf⟩

theorem registered (hs : Reach (step req) anyStep (· = initial) s) : s.Registered req := by
  apply hs.invariant_of (I := HandsOff req) (fun _ => handsOff)
  · intro u hu
    subst hu
    exact ⟨fun i => by simp [initial, IsrPc.HasStored], List.nodup_nil, rfl, by simp [initial]⟩
  · exact fun _ _ _ hoff hreg _ h => registered_step hoff hreg h

end Registered

/-! ### The files -/

/-- The call has found the file of its pin open, or has opened it. -/
def PassedOpen (s : PinSys ι H) (i : ι) : Prop := s.calls i = .store ∨ (s.calls i).HasStored

/-- An open file is that of the pin, and some call has passed `open` for it.  It is open if
a call has, unless an `open` has failed. -/
structure Opened (s : PinSys ι H) : Prop where
  named : ∀ pin, s.sysFds pin ≠ none →
    s.sysFds pin = some ⟨pin⟩ ∧ ∃ i, s.PassedOpen i ∧ (req i).pin = pin
  opened : ∀ i, s.PassedOpen i → s.sysFds (req i).pin ≠ none ∨
    ∃ j, s.calls j = .failed ∧ (req j).pin = (req i).pin

section Opened

variable {req} [DecidableEq ι] {s t : PinSys ι H} {i : ι}

theorem StepTo.keeps (h : StepTo req s i t) (j : ι) :
    (s.PassedOpen j → t.PassedOpen j) ∧ (s.calls j = .failed → t.calls j = .failed) := by
  by_cases hj : j = i
  · subst hj
    cases h with
    | stays | loads | clears | wakes | fires => exact ⟨id, id⟩
    | begins c hc | opens hc | fails hc | stores hc | locks hc | passes hc | creates hc
    | lacks hc | sees hc | unlocks hc => simp [PassedOpen, IsrPc.HasStored, hc]
  · rw [PassedOpen, PassedOpen, (h.other hj).1]
    exact ⟨id, id⟩

theorem StepTo.files (h : StepTo req s i t) :
    t.sysFds = s.sysFds ∧ (t.PassedOpen i → s.PassedOpen i ∨ s.sysFds (req i).pin ≠ none) ∨
    t.sysFds = Function.update s.sysFds (req i).pin (some ⟨(req i).pin⟩) ∧ t.PassedOpen i ∨
    t.sysFds = Function.update s.sysFds (req i).pin none ∧ t.calls i = .failed := by
  cases h with
  | stays | loads | clears | wakes | fires => exact Or.inl ⟨rfl, Or.inl⟩
  | begins c hc hto =>
    refine Or.inl ⟨rfl, fun hpassed => ?_⟩
    rcases hto with rfl | ⟨-, hfd⟩
    · simp [PassedOpen, IsrPc.HasStored] at hpassed
    · exact Or.inr hfd
  | opens hc => exact Or.inr (Or.inl ⟨rfl, Or.inl (setCall_self ..)⟩)
  | fails hc => exact Or.inr (Or.inr ⟨rfl, setCall_self ..⟩)
  | stores hc | locks hc | passes hc | creates hc | lacks hc | sees hc | unlocks hc =>
    exact Or.inl ⟨rfl, fun _ => Or.inl (by simp [PassedOpen, IsrPc.HasStored, hc])⟩

theorem opened_step {a : PinAct ι} (hs : s.Opened req) (h : step req s a = some t) :
    t.Opened req := by
  obtain ⟨i, hto⟩ := stepTo_of_step h
  have hkeeps : ∀ pin, (∃ j, s.PassedOpen j ∧ (req j).pin = pin) →
      ∃ j, t.PassedOpen j ∧ (req j).pin = pin := by
    intro pin hex
    obtain ⟨j, hj, hp⟩ := hex
    exact ⟨j, (hto.keeps j).1 hj, hp⟩
  have hbefore : ∀ j, s.PassedOpen j → s.sysFds (req j).pin ≠ none ∨
      ∃ k, t.calls k = .failed ∧ (req k).pin = (req j).pin := by
    intro j hj
    rcases hs.opened j hj with hfd | ⟨k, hk, hp⟩
    · exact Or.inl hfd
    · exact Or.inr ⟨k, (hto.keeps k).2 hk, hp⟩
  have hself : ∀ j, j ≠ i → t.PassedOpen j → s.PassedOpen j := by
    intro j hj hpassed
    rwa [PassedOpen, (hto.other hj).1] at hpassed
  rcases hto.files with ⟨hfds, hnew⟩ | ⟨hfds, hpassed⟩ | ⟨hfds, hfailed⟩
  · refine ⟨fun pin hfd => ?_, fun j hj => ?_⟩
    · rw [hfds] at hfd ⊢
      exact ⟨(hs.named pin hfd).1, hkeeps pin (hs.named pin hfd).2⟩
    · rw [hfds]
      by_cases hji : j = i
      · subst hji
        rcases hnew hj with hj | hfd
        · exact hbefore j hj
        · exact Or.inl hfd
      · exact hbefore j (hself j hji hj)
  · refine ⟨fun pin hfd => ?_, fun j hj => ?_⟩
    · rw [hfds] at hfd ⊢
      by_cases hp : pin = (req i).pin
      · subst hp
        exact ⟨Function.update_self .., i, hpassed, rfl⟩
      · rw [Function.update_of_ne hp] at hfd ⊢
        exact ⟨(hs.named pin hfd).1, hkeeps pin (hs.named pin hfd).2⟩
    · rw [hfds]
      by_cases hp : (req j).pin = (req i).pin
      · rw [hp, Function.update_self]
        exact Or.inl (Option.some_ne_none _)
      · rw [Function.update_of_ne hp]
        exact hbefore j (hself j (fun h => hp (by rw [h])) hj)
  · refine ⟨fun pin hfd => ?_, fun j hj => ?_⟩
    · rw [hfds] at hfd ⊢
      by_cases hp : pin = (req i).pin
      · rw [hp, Function.update_self] at hfd
        exact absurd rfl hfd
      · rw [Function.update_of_ne hp] at hfd ⊢
        exact ⟨(hs.named pin hfd).1, hkeeps pin (hs.named pin hfd).2⟩
    · by_cases hp : (req j).pin = (req i).pin
      · exact Or.inr ⟨i, hfailed, hp.symm⟩
      · rw [hfds, Function.update_of_ne hp]
        exact hbefore j (hself j (fun h => hp (by rw [h])) hj)

theorem opened (hs : Reach (step req) anyStep (· = initial) s) : s.Opened req := by
  apply hs.invariant_from
  · refine ⟨fun pin h => absurd rfl h, ?_⟩
    intro i h
    simp [PassedOpen, initial, IsrPc.HasStored] at h
  · exact fun _ _ _ hopen _ h => opened_step hopen h

end Opened

/-! ### Main results -/

def Quiet (s : PinSys ι H) : Prop :=
  ∀ i, s.calls i = .idle ∨ s.calls i = .failed ∨ s.calls i = .returned

def runningPin (s : PinSys ι H) (i : ι) : Option Nat :=
  match s.handlers i with
  | .poll pin | .fire pin => pin
  | _ => none

section Main

variable {req} {s : PinSys ι H}

theorem Quiet.mem_stored (hquiet : s.Quiet) (hreg : s.Registered req) (i : ι) :
    i ∈ s.stored ↔ s.calls i = .returned := by
  rw [hreg.mem i]
  rcases hquiet i with h | h | h <;> simp [h, IsrPc.HasStored]

variable [DecidableEq ι]

/-- **The calls are as if made one after another.**  In every reachable state in which no
call is under way there is an order of the calls that have returned, namely that of their
stores, such that the registered functions, the running threads and the open files are
those after `Rpio.isrInit` for one after another.  The file of a pin is left out if an
`open` of it has failed. -/
theorem isr_in_store_order (hs : Reach (step req) anyStep (· = initial) s) (hquiet : s.Quiet) :
    s.stored.Nodup ∧ (∀ i, i ∈ s.stored ↔ s.calls i = .returned) ∧
    s.isrFunctions = (inOrder req s.stored).isrFunctions ∧
    s.stored.reverse.filterMap s.runningPin = (inOrder req s.stored).handlers ∧
    (∀ i, i ∉ s.stored → s.handlers i = .absent) ∧
    ∀ pin, s.sysFds pin = (inOrder req s.stored).sysFds pin ∨
      ∃ i, s.calls i = .failed ∧ (req i).pin = pin := by
  have hreg := registered hs
  have hopen := opened hs
  have hmem := hquiet.mem_stored hreg
  have hout : ∀ i, (s.calls i).Outside (req i).pin (s.handlers i) := by
    intro i
    refine (((handsOff hs).placed i).outside ?_).2
    rcases hquiet i with h | h | h <;> rw [h] <;> exact id
  refine ⟨hreg.nodup, hmem, hreg.functions, ?_, ?_, ?_⟩
  · have hpins : ∀ i ∈ s.stored.reverse, s.runningPin i = (some ∘ fun i => (req i).pin) i := by
      intro i hi
      have hhas := hout i
      rw [(hmem i).mp (List.mem_reverse.mp hi)] at hhas
      rcases hhas with hh | hh <;> rw [runningPin, hh] <;> rfl
    rw [List.filterMap_congr hpins, List.filterMap_eq_map, inOrder_handlers, List.map_reverse]
  · intro i hi
    have habsent := hout i
    rcases hquiet i with h | h | h
    · rwa [h] at habsent
    · rwa [h] at habsent
    · exact absurd ((hmem i).mpr h) hi
  · intro pin
    have hpassed : ∀ i, s.PassedOpen i ↔ i ∈ s.stored := by
      intro i
      rw [PassedOpen, ← hreg.mem i]
      refine ⟨fun h => h.resolve_left ?_, Or.inr⟩
      rcases hquiet i with h | h | h <;> simp [h]
    rcases inOrder_sysFds req s.stored pin with ⟨⟨i, hi, hp⟩, hfd⟩ | ⟨hnone, hfd⟩
    · subst hp
      rcases hopen.opened i ((hpassed i).mpr hi) with hsome | hfailed
      · exact Or.inl ((hopen.named _ hsome).1.trans hfd.symm)
      · exact Or.inr hfailed
    · left
      rw [hfd]
      by_contra hsome
      obtain ⟨-, i, hi, hp⟩ := hopen.named pin hsome
      exact hnone ⟨i, (hpassed i).mp hi, hp⟩

section Witness

def twice (i : Fin 2) : IsrCall Nat := ⟨3, i⟩

def wholeCall (i : Fin 2) : List (PinAct (Fin 2)) :=
  [.call i true, .call i true, .call i true, .call i true, .call i true, .handler i true,
    .handler i true, .call i true, .call i true]

/-- Both calls, the first with a step for `open`, with an interrupt for each thread. -/
def twiceRun : List (PinAct (Fin 2)) :=
  .call 0 true :: (wholeCall 0 ++ wholeCall 1 ++
    [.handler 0 true, .handler 0 true, .handler 1 true, .handler 1 true])

theorem twiceRun_isSome : (exec (step twice) anyStep initial twiceRun).isSome := by decide

def twiceEnd : PinSys (Fin 2) Nat :=
  (exec (step twice) anyStep initial twiceRun).get twiceRun_isSome

/-- `isr_in_store_order` after two calls for one pin. -/
theorem isr_in_store_order_twice :
    twiceEnd.stored = [0, 1] ∧
    twiceEnd.stored.reverse.filterMap twiceEnd.runningPin =
      (inOrder twice twiceEnd.stored).handlers :=
  ⟨by decide, (isr_in_store_order (reach_get _ _ twiceRun_isSome)
    (show ∀ i, twiceEnd.calls i = _ ∨ twiceEnd.calls i = _ ∨ twiceEnd.calls i = _
      by decide)).2.2.2.1⟩

/-- The second call finds the file closed, the first opens it, and the second fails. -/
def overwriteRun : List (PinAct (Fin 2)) :=
  [.call 1 true] ++ (.call 0 true :: wholeCall 0) ++ [.call 1 false]

example : (exec (step twice) anyStep initial overwriteRun).map
    (fun s => (s.calls 0, s.sysFds 3)) = some (.returned, none) := by decide

end Witness

/-- **No thread calls a wrong function.**  In every reachable state all that the threads have
called are functions that a call for their own pin had registered, and a thread that is
about to call finds such a function. -/
theorem handlers_call_registered (hs : Reach (step req) anyStep (· = initial) s) :
    (∀ e ∈ s.fired, ∃ j ∈ s.stored, (req j).pin = (req e.1).pin ∧ e.2 = some (req j).function) ∧
    ∀ i pin, s.handlers i = .fire (some pin) →
      ∃ j ∈ s.stored, (req j).pin = (req i).pin ∧ s.isrFunctions pin = some (req j).function :=
  ⟨(registered hs).fired, fun _ _ hh => (registered hs).function (handsOff hs) hh⟩

/-- `handlers_call_registered` after `twiceRun`: both threads have called the second function. -/
theorem handlers_call_registered_twice :
    twiceEnd.fired = [(1, some 1), (0, some 1)] ∧
    ∀ e ∈ twiceEnd.fired, ∃ j ∈ twiceEnd.stored, (twice j).pin = (twice e.1).pin ∧
      e.2 = some (twice j).function :=
  ⟨by decide, (handlers_call_registered (reach_get _ _ twiceRun_isSome)).1⟩

end Main

end PinSys

end Raspberries.IrAlarm
