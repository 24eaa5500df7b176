import Raspberries.IrAlarm.IrPio
import Raspberries.Lib.Transition

/-!
# The hand-off of a pin to its `interruptHandler`

`__isr_init` gives the pin to the thread it creates through the variable `pinPass`: under
`pinMutex` it stores the pin, creates the thread and sleeps until the thread has put `-1`
back.  Here any number of calls and of threads take their steps in any order.

The arrays are functions of the pin here, which has to be below their 64 entries in the C
code: `__isr_init` does not test it.

`isr_handoff` says that every thread gets the pin of the call that created it.  The result
of `pthread_create` is not looked at, and `failed_create_blocks` says what a failure leaves
behind: no call returns any more.
-/

namespace Raspberries.IrAlarm

open Transition

/-- The arguments of a call of `__isr_init` (`mode` is not used there). -/
structure IsrCall (H : Type*) where
  pin : Nat
  function : H

inductive IsrPc
  | idle
  | opening
  | store
  | lock
  | pass
  | create
  | waits
  | unlock
  | returned
  | failed
  deriving DecidableEq, Repr

/-- Where the thread of a call is; `myPin` is `none` for `-1`. -/
inductive HandlerPc
  | absent
  | load
  | clear (myPin : Option Nat)
  | poll (myPin : Option Nat)
  | fire (myPin : Option Nat)
  deriving DecidableEq, Repr

/-- The static variables of the interrupt code and the threads, one for each call.
`stored` are the calls that have written `isrFunctions`, in that order, and `fired` is what
the threads have called. -/
structure PinSys (ι H : Type*) where
  sysFds : Nat → Option ValueFile
  isrFunctions : Nat → Option H
  pinMutex : Option ι
  pinPass : Option Nat
  calls : ι → IsrPc
  handlers : ι → HandlerPc
  stored : List ι
  fired : List (ι × Option H)

/-- `call i ok` is a step of call `i`, and `ok` is whether `open` or `pthread_create`
succeeds; `handler i event` is a step of its thread, and `event` is whether `poll` reports
something. -/
inductive PinAct (ι : Type*)
  | call (i : ι) (ok : Bool)
  | handler (i : ι) (event : Bool)
  deriving DecidableEq, Repr

/-- The thread has read `pin` and put `-1` back. -/
def HandlerPc.HasPin (pin : Nat) (h : HandlerPc) : Prop :=
  h = .poll (some pin) ∨ h = .fire (some pin)

/-- The thread has not put `-1` back: it is not there, or has not read `pin` yet, or has. -/
def HandlerPc.Lacks (pin : Nat) (h : HandlerPc) : Prop :=
  h = .absent ∨ h = .load ∨ h = .clear (some pin)

/-- The call has written `isrFunctions`. -/
def IsrPc.HasStored (c : IsrPc) : Prop :=
  c = .lock ∨ c = .pass ∨ c = .create ∨ c = .waits ∨ c = .unlock ∨ c = .returned

/-- A call with `pin` between lock and unlock, its thread and `pinPass`. -/
def IsrPc.Inside (pin : Nat) (h : HandlerPc) (pinPass : Option Nat) : IsrPc → Prop
  | .pass => h = .absent ∧ pinPass = none
  | .create => h = .absent ∧ pinPass = some pin
  | .waits => h.Lacks pin ∧ pinPass = some pin ∨ h.HasPin pin ∧ pinPass = none
  | .unlock => h.HasPin pin ∧ pinPass = none
  | _ => False

/-- A call with `pin` before the lock or after the unlock, and its thread. -/
def IsrPc.Outside (pin : Nat) (h : HandlerPc) : IsrPc → Prop
  | .idle | .opening | .store | .lock | .failed => h = .absent
  | .returned => h.HasPin pin
  | _ => False

theorem IsrPc.Inside.of_pass {pin p : Nat} {h : HandlerPc} {pinPass : Option Nat} {c : IsrPc}
    (hin : c.Inside pin h pinPass) (hpass : pinPass = some p) :
    pin = p ∧ (c = .create ∨ c = .waits) := by
  subst hpass
  cases c with
  | create => exact ⟨(Option.some.inj hin.2).symm, Or.inl rfl⟩
  | waits =>
    rcases hin with ⟨-, hp⟩ | ⟨-, hp⟩
    · exact ⟨(Option.some.inj hp).symm, Or.inr rfl⟩
    · cases hp
  | pass | unlock => cases hin.2
  | idle | opening | store | lock | returned | failed => exact hin.elim

namespace PinSys

variable {ι H : Type*}

def initial : PinSys ι H where
  sysFds := fun _ => none
  isrFunctions := fun _ => none
  pinMutex := none
  pinPass := none
  calls := fun _ => .idle
  handlers := fun _ => .absent
  stored := []
  fired := []

section Step

variable [DecidableEq ι]

def setCall (s : PinSys ι H) (i : ι) (c : IsrPc) : PinSys ι H :=
  { s with calls := Function.update s.calls i c }

def setHandler (s : PinSys ι H) (i : ι) (h : HandlerPc) : PinSys ι H :=
  { s with handlers := Function.update s.handlers i h }

section Fields

variable (s : PinSys ι H) (i : ι)

@[simp] theorem setCall_self (c : IsrPc) : (s.setCall i c).calls i = c := Function.update_self ..

@[simp] theorem setHandler_self (h : HandlerPc) : (s.setHandler i h).handlers i = h :=
  Function.update_self ..

theorem setCall_of_ne (c : IsrPc) {j : ι} (hj : j ≠ i) :
    (s.setCall i c).calls j = s.calls j := Function.update_of_ne hj ..

theorem setHandler_of_ne (h : HandlerPc) {j : ι} (hj : j ≠ i) :
    (s.setHandler i h).handlers j = s.handlers j := Function.update_of_ne hj ..

end Fields

variable (req : ι → IsrCall H)

/-- `__isr_init`.  The pending interrupts that it reads away between `open` and the store
of the function change nothing here. -/
def callStep (s : PinSys ι H) (i : ι) (ok : Bool) : Option (PinSys ι H) :=
  let pin := (req i).pin
  match s.calls i with
  | .idle => some (s.setCall i (if s.sysFds pin = none then .opening else .store))
  -- `sysFds[pin] = open(..)` also stores the `-1` of an `open` that failed
  | .opening =>
    if ok then
      some ({ s with sysFds := Function.update s.sysFds pin (some ⟨pin⟩) }.setCall i .store)
    else some ({ s with sysFds := Function.update s.sysFds pin none }.setCall i .failed)
  | .store =>
    some ({ s with
      isrFunctions := Function.update s.isrFunctions pin (some (req i).function)
      stored := s.stored ++ [i] }.setCall i .lock)
  | .lock =>
    if s.pinMutex = none then some ({ s with pinMutex := some i }.setCall i .pass) else none
  | .pass => some ({ s with pinPass := some pin }.setCall i .create)
  | .create => some ((if ok then s.setHandler i .load else s).setCall i .waits)
  | .waits => some (if s.pinPass = none then s.setCall i .unlock else s)
  | .unlock => some ({ s with pinMutex := none }.setCall i .returned)
  | .returned => none
  | .failed => none

/-- `interruptHandler`.  `waitForInterrupt` returns at once when the file is not open; an
access at `-1` has no step. -/
def handlerStep (s : PinSys ι H) (i : ι) (event : Bool) : Option (PinSys ι H) :=
  match s.handlers i with
  | .absent => none
  | .load => some (s.setHandler i (.clear s.pinPass))
  | .clear myPin => some ({ s with pinPass := none }.setHandler i (.poll myPin))
  | .poll none => none
  | .poll (some pin) =>
    some (if s.sysFds pin ≠ none ∧ event then s.setHandler i (.fire (some pin)) else s)
  | .fire none => none
  | .fire (some pin) =>
    some ({ s with fired := (i, s.isrFunctions pin) :: s.fired }.setHandler i (.poll (some pin)))

def step (s : PinSys ι H) : PinAct ι → Option (PinSys ι H)
  | .call i ok => callStep req s i ok
  | .handler i event => handlerStep s i event

/-! ### What one step does -/

inductive StepTo (s : PinSys ι H) (i : ι) : PinSys ι H → Prop
  | stays : StepTo s i s
  | begins (c : IsrPc) : s.calls i = .idle →
      c = .opening ∨ c = .store ∧ s.sysFds (req i).pin ≠ none → StepTo s i (s.setCall i c)
  | opens : s.calls i = .opening → StepTo s i
      ({ s with sysFds := Function.update s.sysFds (req i).pin (some ⟨(req i).pin⟩) }.setCall
        i .store)
  | fails : s.calls i = .opening → StepTo s i
      ({ s with sysFds := Function.update s.sysFds (req i).pin none }.setCall i .failed)
  | stores : s.calls i = .store → StepTo s i
      ({ s with
        isrFunctions := Function.update s.isrFunctions (req i).pin (some (req i).function)
        stored := s.stored ++ [i] }.setCall i .lock)
  | locks : s.calls i = .lock → s.pinMutex = none → StepTo s i
      ({ s with pinMutex := some i }.setCall i .pass)
  | passes : s.calls i = .pass → StepTo s i
      ({ s with pinPass := some (req i).pin }.setCall i .create)
  | creates : s.calls i = .create → StepTo s i ((s.setHandler i .load).setCall i .waits)
  | lacks : s.calls i = .create → StepTo s i (s.setCall i .waits)
  | sees : s.calls i = .waits → s.pinPass = none → StepTo s i (s.setCall i .unlock)
  | unlocks : s.calls i = .unlock → StepTo s i ({ s with pinMutex := none }.setCall i .returned)
  | loads : s.handlers i = .load → StepTo s i (s.setHandler i (.clear s.pinPass))
  | clears (myPin : Option Nat) : s.handlers i = .clear myPin → StepTo s i
      ({ s with pinPass := none }.setHandler i (.poll myPin))
  | wakes (pin : Nat) : s.handlers i = .poll (some pin) →
      StepTo s i (s.setHandler i (.fire (some pin)))
  | fires (pin : Nat) : s.handlers i = .fire (some pin) → StepTo s i
      ({ s with fired := (i, s.isrFunctions pin) :: s.fired }.setHandler i (.poll (some pin)))

section StepTo

variable {req} {s t : PinSys ι H}

theorem stepTo_of_callStep {i : ι} {ok : Bool} (h : callStep req s i ok = some t) :
    StepTo req s i t := by
  unfold callStep at h
  cases hc : s.calls i with
  | idle =>
    rw [hc] at h
    obtain rfl := Option.some.inj h
    refine .begins _ hc ?_
    split
    next => exact Or.inl rfl
    next hfd => exact Or.inr ⟨rfl, hfd⟩
  | opening =>
    rw [hc] at h
    cases ok with
    | true => obtain rfl := Option.some.inj h; exact .opens hc
    | false => obtain rfl := Option.some.inj h; exact .fails hc
  | store => rw [hc] at h; obtain rfl := Option.some.inj h; exact .stores hc
  | lock =>
    rw [hc] at h
    dsimp only at h
    split at h
    next hfree => obtain rfl := Option.some.inj h; exact .locks hc hfree
    next => cases h
  | pass => rw [hc] at h; obtain rfl := Option.some.inj h; exact .passes hc
  | create =>
    rw [hc] at h
    cases ok with
    | true => obtain rfl := Option.some.inj h; exact .creates hc
    | false => obtain rfl := Option.some.inj h; exact .lacks hc
  | waits =>
    rw [hc] at h
    obtain rfl := Option.some.inj h
    split
    next hpass => exact .sees hc hpass
    next => exact .stays
  | unlock => rw [hc] at h; obtain rfl := Option.some.inj h; exact .unlocks hc
  | returned | failed => rw [hc] at h; cases h

theorem stepTo_of_handlerStep {i : ι} {event : Bool} (h : handlerStep s i event = some t) :
    StepTo req s i t := by
  unfold handlerStep at h
  cases hh : s.handlers i with
  | absent => rw [hh] at h; cases h
  | load => rw [hh] at h; obtain rfl := Option.some.inj h; exact .loads hh
  | clear myPin => rw [hh] at h; obtain rfl := Option.some.inj h; exact .clears myPin hh
  | poll myPin =>
    rw [hh] at h
    cases myPin with
    | none => cases h
    | some pin =>
      obtain rfl := Option.some.inj h
      split
      next => exact .wakes pin hh
      next => exact .stays
  | fire myPin =>
    rw [hh] at h
    cases myPin with
    | none => cases h
    | some pin => obtain rfl := Option.some.inj h; exact .fires pin hh

theorem stepTo_of_step {a : PinAct ι} (h : step req s a = some t) : ∃ i, StepTo req s i t := by
  cases a with
  | call i ok => exact ⟨i, stepTo_of_callStep h⟩
  | handler i event => exact ⟨i, stepTo_of_handlerStep h⟩

theorem StepTo.other {i j : ι} (h : StepTo req s i t) (hj : j ≠ i) :
    t.calls j = s.calls j ∧ t.handlers j = s.handlers j := by
  cases h with
  | stays => exact ⟨rfl, rfl⟩
  | creates => exact ⟨setCall_of_ne _ i _ hj, setHandler_of_ne s i _ hj⟩
  | begins | opens | fails | stores | locks | passes | lacks | sees | unlocks =>
    exact ⟨setCall_of_ne _ i _ hj, rfl⟩
  | loads | clears | wakes | fires => exact ⟨rfl, setHandler_of_ne _ i _ hj⟩

end StepTo

end Step

/-! ### The thread gets the pin of its call -/

variable (req : ι → IsrCall H)

/-- Call `i` and its thread are where the lock and `pinPass` say. -/
def Placed (s : PinSys ι H) (i : ι) : Prop :=
  s.pinMutex = some i ∧ (s.calls i).Inside (req i).pin (s.handlers i) s.pinPass ∨
  s.pinMutex ≠ some i ∧ (s.calls i).Outside (req i).pin (s.handlers i)

/-- Every call is placed, and a pin is in transit under the lock only. -/
structure HandsOff (s : PinSys ι H) : Prop where
  placed : ∀ i, s.Placed req i
  free : s.pinMutex = none → s.pinPass = none

section HandsOff

variable {req} {s t : PinSys ι H} {i : ι}

theorem Placed.inside (h : s.Placed req i)
    (hc : ¬ (s.calls i).Outside (req i).pin (s.handlers i)) :
    s.pinMutex = some i ∧ (s.calls i).Inside (req i).pin (s.handlers i) s.pinPass := by
  cases h with
  | inl h => exact h
  | inr h => exact absurd h.2 hc

theorem Placed.outside (h : s.Placed req i)
    (hc : ¬ (s.calls i).Inside (req i).pin (s.handlers i) s.pinPass) :
    s.pinMutex ≠ some i ∧ (s.calls i).Outside (req i).pin (s.handlers i) := by
  cases h with
  | inl h => exact absurd h.2 hc
  | inr h => exact h

theorem Placed.taking (h : s.Placed req i)
    (hh : s.handlers i = .load ∨ ∃ p, s.handlers i = .clear p) :
    s.pinMutex = some i ∧ s.calls i = .waits ∧ s.pinPass = some (req i).pin ∧
      (s.handlers i).Lacks (req i).pin := by
  have hpin : ¬ (s.handlers i).HasPin (req i).pin := by
    rcases hh with hh | ⟨p, hh⟩ <;> rw [hh] <;> simp [HandlerPc.HasPin]
  have hthere : s.handlers i ≠ .absent := by
    rcases hh with hh | ⟨p, hh⟩ <;> simp [hh]
  rcases h with ⟨hm, hin⟩ | ⟨-, hout⟩
  · cases hc : s.calls i with
    | waits =>
      rw [hc] at hin
      rcases hin with ⟨hlacks, hpass⟩ | ⟨hhas, -⟩
      · exact ⟨hm, rfl, hpass, hlacks⟩
      · exact absurd hhas hpin
    | pass | create => rw [hc] at hin; exact absurd hin.1 hthere
    | unlock => rw [hc] at hin; exact absurd hin.1 hpin
    | idle | opening | store | lock | returned | failed => rw [hc] at hin; exact hin.elim
  · cases hc : s.calls i with
    | idle | opening | store | lock | failed => rw [hc] at hout; exact absurd hout hthere
    | returned => rw [hc] at hout; exact absurd hout hpin
    | pass | create | waits | unlock => rw [hc] at hout; exact hout.elim

theorem Placed.hasPin (h : s.Placed req i) {p : Option Nat}
    (hh : s.handlers i = .poll p ∨ s.handlers i = .fire p) : p = some (req i).pin := by
  have hsome : ∀ c : IsrPc, c.Inside (req i).pin (s.handlers i) s.pinPass ∨
      c.Outside (req i).pin (s.handlers i) → (s.handlers i).HasPin (req i).pin := by
    intro c hc
    cases c <;> rcases hh with hh | hh <;>
      simp_all [IsrPc.Inside, IsrPc.Outside, HandlerPc.Lacks]
  have hhas := hsome (s.calls i) (h.imp And.right And.right)
  rcases hh with hh | hh <;> rw [hh] at hhas <;> simpa [HandlerPc.HasPin] using hhas

/-- Past the hand-off it does not matter to the call where the thread is. -/
theorem Placed.moved {h : HandlerPc} {pin : Nat} (hs : s.Placed req i)
    (hpin : some pin = some (req i).pin) (hold : (s.handlers i).HasPin pin) (hnew : h.HasPin pin) :
    s.pinMutex = some i ∧ (s.calls i).Inside (req i).pin h s.pinPass ∨
      s.pinMutex ≠ some i ∧ (s.calls i).Outside (req i).pin h := by
  rw [Option.some.inj hpin] at hold hnew
  have hthere : s.handlers i ≠ .absent := by
    rcases hold with hold | hold <;> rw [hold] <;> simp
  rcases hs with ⟨hm, hin⟩ | ⟨hm, hout⟩
  · refine Or.inl ⟨hm, ?_⟩
    cases hc : s.calls i with
    | waits =>
      rw [hc] at hin
      rcases hin with ⟨hlacks, -⟩ | ⟨-, hpass⟩
      · exact absurd hold (by rcases hlacks with h | h | h <;> rw [h] <;> simp [HandlerPc.HasPin])
      · exact Or.inr ⟨hnew, hpass⟩
    | pass | create => rw [hc] at hin; exact absurd hin.1 hthere
    | unlock => rw [hc] at hin; exact ⟨hnew, hin.2⟩
    | idle | opening | store | lock | returned | failed => rw [hc] at hin; exact hin.elim
  · refine Or.inr ⟨hm, ?_⟩
    cases hc : s.calls i with
    | idle | opening | store | lock | failed => rw [hc] at hout; exact absurd hout hthere
    | returned => exact hnew
    | pass | create | waits | unlock => rw [hc] at hout; exact hout.elim

theorem Placed.hasStored (h : s.Placed req i) (hh : s.handlers i ≠ .absent) :
    (s.calls i).HasStored := by
  rcases h with ⟨-, hin⟩ | ⟨-, hout⟩
  · cases hc : s.calls i with
    | waits | unlock | pass | create => simp [IsrPc.HasStored]
    | idle | opening | store | lock | returned | failed => rw [hc] at hin; exact hin.elim
  · cases hc : s.calls i with
    | idle | opening | store | lock | failed => rw [hc] at hout; exact absurd hout hh
    | returned => simp [IsrPc.HasStored]
    | pass | create | waits | unlock => rw [hc] at hout; exact hout.elim

variable [DecidableEq ι]

theorem StepTo.lock (hs : s.HandsOff req) (h : StepTo req s i t) :
    t.pinMutex = s.pinMutex ∧ t.pinPass = s.pinPass ∨
    (s.pinMutex = none ∨ s.pinMutex = some i) ∧ (t.pinMutex = none ∨ t.pinMutex = some i) := by
  have hp := hs.placed i
  cases h with
  | stays | begins | opens | fails | stores | creates | lacks | sees | loads | wakes | fires =>
    exact Or.inl ⟨rfl, rfl⟩
  | locks _ hfree => exact Or.inr ⟨Or.inl hfree, Or.inr rfl⟩
  | passes hc =>
    have hm := (hp.inside (by rw [hc]; exact id)).1
    exact Or.inr ⟨Or.inr hm, Or.inr hm⟩
  | unlocks hc => exact Or.inr ⟨Or.inr (hp.inside (by rw [hc]; exact id)).1, Or.inl rfl⟩
  | clears myPin hh =>
    have hm := (hp.taking (Or.inr ⟨myPin, hh⟩)).1
    exact Or.inr ⟨Or.inr hm, Or.inr hm⟩

/-- The other calls stay placed. -/
theorem StepTo.placed_other (hs : s.HandsOff req) (h : StepTo req s i t) {j : ι} (hj : j ≠ i) :
    t.Placed req j := by
  obtain ⟨hc, hh⟩ := h.other hj
  have hp := hs.placed j
  rw [Placed, hc, hh]
  rcases h.lock hs with ⟨hm, hpass⟩ | ⟨hm, hm'⟩
  · rw [hm, hpass]
    exact hp
  · have hne : ∀ m, m = none ∨ m = some i → m ≠ some j := by
      intro m hm
      rcases hm with rfl | rfl <;> simp [Ne.symm hj]
    refine Or.inr ⟨hne _ hm', ?_⟩
    rcases hp with ⟨hheld, -⟩ | ⟨-, hout⟩
    · exact absurd hheld (hne _ hm)
    · exact hout

/-- Call `i` itself and its thread stay placed. -/
theorem StepTo.placed_self (hs : s.HandsOff req) (h : StepTo req s i t) : t.Placed req i := by
  have hp := hs.placed i
  cases h with
  | stays => exact hp
  | begins c hc hto =>
    obtain ⟨hm, hout⟩ := hp.outside (by rw [hc]; exact id)
    rw [hc] at hout
    refine Or.inr ⟨hm, ?_⟩
    rw [setCall_self]
    rcases hto with rfl | ⟨rfl, -⟩ <;> exact hout
  | opens hc | fails hc | stores hc =>
    obtain ⟨hm, hout⟩ := hp.outside (by rw [hc]; exact id)
    rw [hc] at hout
    refine Or.inr ⟨hm, ?_⟩
    rw [setCall_self]
    exact hout
  | locks hc hfree =>
    obtain ⟨hm, hout⟩ := hp.outside (by rw [hc]; exact id)
    rw [hc] at hout
    refine Or.inl ⟨rfl, ?_⟩
    rw [setCall_self]
    exact ⟨hout, hs.free hfree⟩
  | passes hc =>
    obtain ⟨hm, hin⟩ := hp.inside (by rw [hc]; exact id)
    rw [hc] at hin
    refine Or.inl ⟨hm, ?_⟩
    rw [setCall_self]
    exact ⟨hin.1, rfl⟩
  | creates hc =>
    obtain ⟨hm, hin⟩ := hp.inside (by rw [hc]; exact id)
    rw [hc] at hin
    refine Or.inl ⟨hm, ?_⟩
    rw [setCall_self]
    exact Or.inl ⟨Or.inr (Or.inl (setHandler_self s i .load)), hin.2⟩
  | lacks hc =>
    obtain ⟨hm, hin⟩ := hp.inside (by rw [hc]; exact id)
    rw [hc] at hin
    refine Or.inl ⟨hm, ?_⟩
    rw [setCall_self]
    exact Or.inl ⟨Or.inl hin.1, hin.2⟩
  | sees hc hpass =>
    obtain ⟨hm, hin⟩ := hp.inside (by rw [hc]; exact id)
    rw [hc] at hin
    refine Or.inl ⟨hm, ?_⟩
    rw [setCall_self]
    rcases hin with ⟨-, hsome⟩ | hin
    · rw [hpass] at hsome
      cases hsome
    · exact hin
  | unlocks hc =>
    obtain ⟨hm, hin⟩ := hp.inside (by rw [hc]; exact id)
    rw [hc] at hin
    refine Or.inr ⟨Option.some_ne_none i |>.symm, ?_⟩
    rw [setCall_self]
    exact hin.1
  | loads hh =>
    obtain ⟨hm, hc, hpass, -⟩ := hp.taking (Or.inl hh)
    refine Or.inl ⟨hm, ?_⟩
    rw [setHandler_self]
    show (s.calls i).Inside _ _ s.pinPass
    rw [hc, hpass]
    exact Or.inl ⟨Or.inr (Or.inr rfl), rfl⟩
  | clears myPin hh =>
    obtain ⟨hm, hc, hpass, hlacks⟩ := hp.taking (Or.inr ⟨myPin, hh⟩)
    refine Or.inl ⟨hm, ?_⟩
    rw [setHandler_self]
    show (s.calls i).Inside _ _ none
    rw [hc]
    rw [hh] at hlacks
    refine Or.inr ⟨Or.inl ?_, rfl⟩
    simpa [HandlerPc.Lacks] using hlacks
  | wakes pin hh =>
    rw [Placed, setHandler_self]
    exact hp.moved (hp.hasPin (Or.inl hh)) (Or.inl hh) (Or.inr rfl)
  | fires pin hh =>
    rw [Placed, setHandler_self]
    exact hp.moved (hp.hasPin (Or.inr hh)) (Or.inr hh) (Or.inl rfl)

theorem StepTo.free (hs : s.HandsOff req) (h : StepTo req s i t) (hfree : t.pinMutex = none) :
    t.pinPass = none := by
  have hp := hs.placed i
  cases h with
  | stays | begins | opens | fails | stores | creates | lacks | sees | loads | wakes | fires =>
    exact hs.free hfree
  | locks => cases hfree
  | passes hc =>
    have hm := (hp.inside (by rw [hc]; exact id)).1
    rw [show s.pinMutex = none from hfree] at hm
    cases hm
  | unlocks hc =>
    have hin := (hp.inside (by rw [hc]; exact id)).2
    rw [hc] at hin
    exact hin.2
  | clears => rfl

theorem handsOff_step {a : PinAct ι} (hs : s.HandsOff req) (h : step req s a = some t) :
    t.HandsOff req := by
  obtain ⟨i, hto⟩ := stepTo_of_step h
  refine ⟨fun j => ?_, hto.free hs⟩
  by_cases hj : j = i
  · rw [hj]
    exact hto.placed_self hs
  · exact hto.placed_other hs hj

theorem handsOff (hs : Reach (step req) anyStep (· = initial) s) : s.HandsOff req := by
  apply hs.invariant_from
  · exact ⟨fun i => Or.inr ⟨nofun, rfl⟩, fun _ => rfl⟩
  · exact fun _ _ _ hoff _ h => handsOff_step hoff h

end HandsOff

/-! ### Main results -/

variable {req} [DecidableEq ι] {s t : PinSys ι H}

/-- **Every thread gets the pin of its call.**  In every reachable state a thread that has
read `pinPass` has read the pin of the call that created it, and that call returns only
when the thread has it.  A pin is in `pinPass` only while its call holds `pinMutex`. -/
theorem isr_handoff (hs : Reach (step req) anyStep (· = initial) s) (i : ι) :
    (∀ p, s.handlers i = .clear p ∨ s.handlers i = .poll p ∨ s.handlers i = .fire p →
      p = some (req i).pin) ∧
    (s.calls i = .returned → (s.handlers i).HasPin (req i).pin) ∧
    ∀ p, s.pinPass = some p → ∃ j, s.pinMutex = some j ∧ (req j).pin = p ∧
      (s.calls j = .create ∨ s.calls j = .waits) := by
  have hoff := handsOff hs
  have hp := hoff.placed i
  refine ⟨?_, ?_, ?_⟩
  · intro p hh
    rcases hh with hh | hh | hh
    · have hlacks := (hp.taking (Or.inr ⟨p, hh⟩)).2.2.2
      rw [hh] at hlacks
      simpa [HandlerPc.Lacks] using hlacks
    · exact hp.hasPin (Or.inl hh)
    · exact hp.hasPin (Or.inr hh)
  · intro hc
    have hout := (hp.outside (by rw [hc]; exact id)).2
    rwa [hc] at hout
  · intro p hpass
    cases hm : s.pinMutex with
    | none =>
      rw [hoff.free hm] at hpass
      cases hpass
    | some j =>
      refine ⟨j, rfl, ?_⟩
      rcases hoff.placed j with ⟨-, hin⟩ | ⟨hfree, -⟩
      · exact hin.of_pass hpass
      · exact absurd hm hfree

section Witness

def threeUp (i : Nat) : IsrCall Nat := ⟨i + 3, i⟩

def upToCreate (i : Nat) (ok : Bool) : List (PinAct Nat) :=
  List.replicate 5 (.call i true) ++ [.call i ok]

def handoffRun : List (PinAct Nat) :=
  upToCreate 0 true ++ [.call 1 true, .handler 0 false, .call 1 true, .handler 0 false,
    .call 0 true, .call 1 true, .call 0 true, .call 1 true]

theorem handoffRun_isSome : (exec (step threeUp) anyStep initial handoffRun).isSome := by decide

/-- `isr_handoff` after a run in which call `0` has returned. -/
theorem isr_handoff_run :
    ((exec (step threeUp) anyStep initial handoffRun).get handoffRun_isSome).calls 0 = .returned ∧
    (((exec (step threeUp) anyStep initial handoffRun).get handoffRun_isSome).handlers
      0).HasPin 3 :=
  ⟨by decide, (isr_handoff (reach_get _ _ handoffRun_isSome) 0).2.1 (by decide)⟩

end Witness

theorem StepTo.blocked (hs : s.HandsOff req) {i k : ι} (hm : s.pinMutex = some i) (hk : k ≠ i)
    (h : StepTo req s k t) (j : ι) :
    (t.calls j = .returned ↔ s.calls j = .returned) ∧
      (t.handlers j = .absent ↔ s.handlers j = .absent) := by
  by_cases hj : j = k
  · subst hj
    have hp := hs.placed j
    have hnot : s.pinMutex ≠ some j := by
      rw [hm]
      exact fun h => hk (Option.some.inj h).symm
    cases h with
    | stays => exact ⟨Iff.rfl, Iff.rfl⟩
    | begins c hc hto =>
      refine ⟨?_, Iff.rfl⟩
      rw [setCall_self, hc]
      rcases hto with rfl | ⟨rfl, -⟩ <;> simp
    | opens hc | fails hc | stores hc => simp [hc, setCall]
    | locks _ hfree =>
      rw [hm] at hfree
      cases hfree
    | passes hc | creates hc | lacks hc | sees hc | unlocks hc =>
      exact absurd (hp.inside (by rw [hc]; exact id)).1 hnot
    | loads hh => exact absurd (hp.taking (Or.inl hh)).1 hnot
    | clears myPin hh => exact absurd (hp.taking (Or.inr ⟨myPin, hh⟩)).1 hnot
    | wakes pin hh | fires pin hh => simp [hh, setHandler]
  · obtain ⟨hc, hh⟩ := h.other hj
    rw [hc, hh]
    exact ⟨Iff.rfl, Iff.rfl⟩

theorem StepTo.waiting {i : ι} (h : StepTo req s i t) (hc : s.calls i = .waits)
    (hh : s.handlers i = .absent) {p : Nat} (hpass : s.pinPass = some p) : t = s := by
  cases h with
  | stays => rfl
  | begins _ h | opens h | fails h | stores h | locks h | passes h | creates h | lacks h
  | unlocks h =>
    rw [hc] at h
    cases h
  | sees _ h =>
    rw [hpass] at h
    cases h
  | loads h | clears _ h | wakes _ h | fires _ h =>
    rw [hh] at h
    cases h

/-- **A failed `pthread_create` stops every registration.**  A call that waits without a
thread waits forever with `pinMutex` locked: in every state reached later no further call
has returned and no further thread has been created. -/
theorem failed_create_blocks (hs : Reach (step req) anyStep (· = initial) s) {i : ι}
    (hc : s.calls i = .waits) (hh : s.handlers i = .absent)
    (ht : Reach (step req) anyStep (· = s) t) :
    (t.calls i = .waits ∧ t.pinMutex = some i ∧ t.pinPass = some (req i).pin) ∧
    ∀ j, (t.calls j = .returned ↔ s.calls j = .returned) ∧
      (t.handlers j = .absent ↔ s.handlers j = .absent) := by
  have hwaits : ∀ u : PinSys ι H, u.HandsOff req → u.calls i = .waits → u.handlers i = .absent →
      u.pinMutex = some i ∧ u.pinPass = some (req i).pin := by
    intro u hoff hcu hhu
    obtain ⟨hm, hin⟩ := (hoff.placed i).inside (by rw [hcu]; exact id)
    rw [hcu, hhu] at hin
    rcases hin with ⟨-, hpass⟩ | ⟨hhas, -⟩
    · exact ⟨hm, hpass⟩
    · exact absurd hhas (by simp [HandlerPc.HasPin])
  have hinv : t.HandsOff req ∧ (t.calls i = .waits ∧ t.handlers i = .absent) ∧
      ∀ j, (t.calls j = .returned ↔ s.calls j = .returned) ∧
        (t.handlers j = .absent ↔ s.handlers j = .absent) := by
    apply ht.invariant_from
    · exact ⟨handsOff hs, ⟨hc, hh⟩, fun j => ⟨Iff.rfl, Iff.rfl⟩⟩
    · intro u a v hu _ hstep
      obtain ⟨hoff, ⟨hcu, hhu⟩, hsame⟩ := hu
      obtain ⟨hm, hpass⟩ := hwaits u hoff hcu hhu
      refine ⟨handsOff_step hoff hstep, ?_⟩
      obtain ⟨k, hto⟩ := stepTo_of_step hstep
      by_cases hk : k = i
      · subst hk
        have hstays : v = u := hto.waiting hcu hhu hpass
        rw [hstays]
        exact ⟨⟨hcu, hhu⟩, hsame⟩
      · obtain ⟨hcalls, hhandlers⟩ := hto.other (Ne.symm hk)
        rw [hcalls, hhandlers]
        refine ⟨⟨hcu, hhu⟩, fun j => ?_⟩
        obtain ⟨hr, ha⟩ := hto.blocked hoff hm hk j
        exact ⟨hr.trans (hsame j).1, ha.trans (hsame j).2⟩
  obtain ⟨hoff, ⟨hct, hht⟩, hsame⟩ := hinv
  exact ⟨⟨hct, hwaits t hoff hct hht⟩, hsame⟩

section Witness

theorem failedCreate_isSome :
    (exec (step threeUp) anyStep initial (upToCreate 0 false)).isSome := by decide

def alone : PinSys Nat Nat :=
  (exec (step threeUp) anyStep initial (upToCreate 0 false)).get failedCreate_isSome

def secondCall : List (PinAct Nat) := [.call 1 true, .call 0 true, .call 1 true, .call 1 true]

theorem secondCall_isSome : (exec (step threeUp) anyStep alone secondCall).isSome := by decide

/-- `failed_create_blocks` when a second call stands before the lock. -/
theorem failed_create_blocks_run :
    ((exec (step threeUp) anyStep alone secondCall).get secondCall_isSome).calls 1 = .lock ∧
    ((exec (step threeUp) anyStep alone secondCall).get secondCall_isSome).pinMutex = some 0 :=
  ⟨by decide, (failed_create_blocks (reach_get _ _ failedCreate_isSome) (by decide) (by decide)
    (reach_get alone _ secondCall_isSome)).1.2.1⟩

end Witness

end PinSys

end Raspberries.IrAlarm
