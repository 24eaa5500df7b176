import Raspberries.IrAlarm.IrPio
import Raspberries.Lib.Transition

/-!
# What a PWM write touches

`pwmWrite` looks its pin up in `gpioToPwmPort`, a table for GPIO numbers in which `0`
stands for "no PWM" and is the control register.  No pin number has the port of its GPIO,
so a write never reaches the duty register of its pin; most reach the control register
(`pwm_writes_iff`).

The second part follows the control register through any sequence of `irpio_init`,
`irpio_setpwm` and `irpio_setvalue`.
-/

namespace Raspberries.IrAlarm

open Transition

def pwmPort (pin : Nat) : Nat := gpioToPwmPort.getD pin 0

/-- The duty register of the GPIO that a pin maps to, if that GPIO has PWM. -/
def dutyRegister (rev : BoardRev) (pin : Nat) : Option Nat :=
  match rev.gpio pin with
  | some g => if pwmPort g = 0 then none else some (pwmPort g)
  | none => none

/-- The calls of `irpio.c` that touch the PWM. -/
inductive IrpioCall
  | init (env : Rpio.InitEnv)
  | setpwm (clock range : Int)
  | setvalue (p : Nat) (value : Int)
  deriving DecidableEq, Repr

/-- `irpio_init` comes as far as the registers. -/
def IrpioCall.Succeeds : IrpioCall → Prop
  | .init env => env.root = true ∧ env.mapped = true
  | _ => False

/-- An entry of the pinout whose PWM writes go to the control register. -/
def Irpio.ControlEntry (e : Irpio) : Prop :=
  e.enabled = true ∧ e.mode = .pwmOutput ∧ onBoard e.pin = true ∧ pwmPort e.pin = 0

instance (e : Irpio) : Decidable e.ControlEntry := inferInstanceAs (Decidable (_ ∧ _))

namespace Rpio

variable {H : Type*}

/-- `irpio_setpwm`: the new `pwm_range`, and the registers. -/
def irpioSetpwm (clock range : Int) (s : Rpio H) : Int × Rpio H :=
  (range, pwmSetRange (BitVec.ofInt 32 range) (pwmSetClock (BitVec.ofInt 32 clock).toNat s))

def runCall (pipi : List Irpio) (s : Rpio H) : IrpioCall → Rpio H
  | .init env => irpioInit pipi env s
  | .setpwm clock range => (irpioSetpwm clock range s).2
  | .setvalue p value => irpioSetvalue pipi p value s

/-- The write stores the value in the duty register of the pin, or changes nothing if the
pin has none. -/
def WritesDuty (rev : BoardRev) (pin : Nat) (value : Int) (s : Rpio H) : Prop :=
  pwmWrite pin value s =
    match dutyRegister rev pin with
    | some r => s.setPwm r (BitVec.ofInt 32 value)
    | none => s

def BothEnabled (s : Rpio H) : Prop := s.pwm pwmControl &&& 0x0101#32 = 0x0101#32

/-- After each call, if an `irpio_init` has succeeded by then, both channels are enabled. -/
def StaysEnabled (pipi : List Irpio) (start : Rpio H) (calls : List IrpioCall) : Prop :=
  EveryStep (fun cs c => (∃ c' ∈ cs ++ [c], c'.Succeeds) →
    BothEnabled ((cs ++ [c]).foldl (runCall pipi) start)) calls

/-! ### One write -/

/-- Two registers hold what is stored exactly if it does not matter in which it is. -/
theorem update_eq_update_iff {α β : Type*} [DecidableEq α] {f : α → β} {a b : α} {v : β}
    (hne : a ≠ b) : Function.update f a v = Function.update f b v ↔ f a = v ∧ f b = v := by
  refine ⟨?_, ?_⟩
  · intro h
    have ha := congrFun h a
    have hb := congrFun h b
    rw [Function.update_self, Function.update_of_ne hne] at ha
    rw [Function.update_self, Function.update_of_ne hne.symm] at hb
    exact ⟨ha.symm, hb⟩
  · intro h
    rw [Function.update_eq_self_iff.mpr h.1.symm, Function.update_eq_self_iff.mpr h.2.symm]

theorem pwmPort_ne_dutyRegister {rev : BoardRev} {pin r : Nat} (hpin : pin < 64)
    (hr : dutyRegister rev pin = some r) : pwmPort pin ≠ r := by
  have hall : ∀ i < 64, ∀ r ∈ dutyRegister rev i, pwmPort i ≠ r := by
    cases rev <;> decide
  exact hall pin hpin r hr

theorem pwmWrite_onBoard {pin : Nat} (hpin : pin < 64) (value : Int) (s : Rpio H) :
    pwmWrite pin value s = s.setPwm (pwmPort pin) (BitVec.ofInt 32 value) := by
  have hall : ∀ i < 64, onBoard i = true := by decide
  exact if_pos (hall pin hpin)

theorem pwm_injective {s : Rpio H} {f g : Nat → BitVec 32} :
    ({ s with pwm := f } : Rpio H) = { s with pwm := g } ↔ f = g := by
  refine ⟨?_, ?_⟩
  · intro h
    exact congrArg Rpio.pwm h
  · intro h
    rw [h]

/-- **When a write touches only the duty register of its pin.**  Exactly if it changes
nothing, and nothing had to be changed. -/
theorem writesDuty_iff (rev : BoardRev) {pin : Nat} (hpin : pin < 64) (value : Int)
    (s : Rpio H) :
    WritesDuty rev pin value s ↔
      s.pwm (pwmPort pin) = BitVec.ofInt 32 value ∧
        ∀ r, dutyRegister rev pin = some r → s.pwm r = BitVec.ofInt 32 value := by
  rw [WritesDuty, pwmWrite_onBoard hpin]
  cases hr : dutyRegister rev pin with
  | none =>
    have hself : s.setPwm (pwmPort pin) (BitVec.ofInt 32 value) = s ↔
        s.pwm (pwmPort pin) = BitVec.ofInt 32 value := by
      rw [setPwm]
      exact pwm_injective.trans (Function.update_eq_self_iff.trans eq_comm)
    simp [hself]
  | some r =>
    have hboth := @update_eq_update_iff _ _ _ s.pwm _ _ (BitVec.ofInt 32 value)
      (pwmPort_ne_dutyRegister hpin hr)
    simp only [setPwm, pwm_injective, hboth, Option.some.injEq, forall_eq']

/-! ### The control register -/

theorem digitalWrite_pwm (pin : Nat) (value : Int) (s : Rpio H) :
    (digitalWrite pin value s).pwm = s.pwm := by
  rw [digitalWrite]
  split
  · split <;> rfl
  · rfl

theorem pwmSetRange_control (range : BitVec 32) (s : Rpio H) :
    (pwmSetRange range s).pwm pwmControl = s.pwm pwmControl := by
  have hne0 : pwmControl ≠ pwm0Range := by decide
  have hne1 : pwmControl ≠ pwm1Range := by decide
  simp only [pwmSetRange, setPwm, Function.update_of_ne hne0, Function.update_of_ne hne1]

theorem pwmSetClock_control (divisor : Nat) (s : Rpio H) :
    (pwmSetClock divisor s).pwm pwmControl = s.pwm pwmControl := by
  simp [pwmSetClock, setPwm, setClk]

theorem pwmSetMode_control (s : Rpio H) :
    (pwmSetMode false s).pwm pwmControl = 0x0101#32 := by
  simp [pwmSetMode, setPwm]

theorem irpioSetpwm_control (clock range : Int) (s : Rpio H) :
    (irpioSetpwm clock range s).2.pwm pwmControl = s.pwm pwmControl := by
  rw [irpioSetpwm, pwmSetRange_control, pwmSetClock_control]

theorem pwmWrite_control (pin : Nat) (value : Int) (s : Rpio H) :
    (pwmWrite pin value s).pwm pwmControl =
      if onBoard pin = true ∧ pwmPort pin = 0 then BitVec.ofInt 32 value
      else s.pwm pwmControl := by
  rw [pwmWrite]
  cases hboard : onBoard pin with
  | false => simp
  | true =>
    show Function.update s.pwm (pwmPort pin) (BitVec.ofInt 32 value) pwmControl = _
    by_cases hport : pwmPort pin = pwmControl
    · rw [hport, Function.update_self, if_pos ⟨rfl, rfl⟩]
    · rw [Function.update_of_ne (Ne.symm hport), if_neg fun h => hport h.2]

/-- A value reaches the control register through the entries that are mapped there. -/
theorem irpioSetvalue_control {pipi : List Irpio} {p : Nat} {e : Irpio} (he : pipi[p]? = some e)
    (value : Int) (s : Rpio H) :
    (irpioSetvalue pipi p value s).pwm pwmControl =
      if e.ControlEntry then BitVec.ofInt 32 value else s.pwm pwmControl := by
  rw [irpioSetvalue, he]
  cases henabled : e.enabled with
  | false => simp [Irpio.ControlEntry, henabled]
  | true =>
    cases hmode : e.mode with
    | input => simp [Irpio.ControlEntry, henabled, hmode]
    | output => simp [Irpio.ControlEntry, henabled, hmode, digitalWrite_pwm]
    | pwmOutput => simp [Irpio.ControlEntry, henabled, hmode, pwmWrite_control]

/-- A pin that `pinMode` finds to have PWM has the control register as port. -/
theorem pwmPort_of_alt {rev : BoardRev} {pin : Nat}
    (halt : gpioToPwmALT.getD (byteOf rev.table pin) 0 ≠ 0) : pwmPort pin = 0 := by
  by_cases hpin : pin < 64
  · have hall : ∀ i < 64, gpioToPwmALT.getD (byteOf rev.table i) 0 ≠ 0 → pwmPort i = 0 := by
      cases rev <;> decide
    exact hall pin hpin halt
  · have hlen : gpioToPwmPort.length = 64 := by decide
    rw [pwmPort, List.getD_eq_getElem?_getD, List.getElem?_eq_none (by omega)]
    rfl

/-- `pinMode` leaves the control register alone, except for a pin whose own port it is. -/
theorem pinMode_control {rev : BoardRev} {s : Rpio H} (htable : s.pinToGpio = rev.table)
    (pin : Nat) (mode : PinMode) :
    (pinMode pin mode s).pwm pwmControl = s.pwm pwmControl ∨
      mode = .pwmOutput ∧ onBoard pin = true ∧ pwmPort pin = 0 := by
  rw [pinMode]
  cases hboard : onBoard pin with
  | false => exact Or.inl rfl
  | true =>
    cases mode with
    | input => exact Or.inl rfl
    | output => exact Or.inl rfl
    | pwmOutput =>
      by_cases halt : gpioToPwmALT.getD (byteOf rev.table pin) 0 = 0
      · left
        rw [if_pos rfl, htable]
        dsimp only
        rw [if_pos halt]
      · exact Or.inr ⟨rfl, rfl, pwmPort_of_alt halt⟩

theorem pinMode_pinToGpio (pin : Nat) (mode : PinMode) (s : Rpio H) :
    (pinMode pin mode s).pinToGpio = s.pinToGpio := by
  rw [pinMode]
  split
  · cases mode with
    | input => rfl
    | output => rfl
    | pwmOutput =>
      dsimp only
      split <;> rfl
  · rfl

theorem irpioSetvalue_pinToGpio (pipi : List Irpio) (p : Nat) (value : Int) (s : Rpio H) :
    (irpioSetvalue pipi p value s).pinToGpio = s.pinToGpio := by
  rw [irpioSetvalue]
  split
  next e _ =>
    split
    · cases e.mode with
      | input => rfl
      | output =>
        dsimp only
        rw [digitalWrite]
        split
        · split <;> rfl
        · rfl
      | pwmOutput =>
        dsimp only
        rw [pwmWrite]
        split <;> rfl
    · rfl
  next => rfl

/-! ### `irpio_init` -/

def initEntry (pipi : List Irpio) (s : Rpio H) (i : Nat) : Rpio H :=
  match pipi[i]? with
  | some e => if e.enabled then irpioSetvalue pipi i 0 (pinMode e.pin e.mode s) else s
  | none => s

section Init

variable {pipi : List Irpio} {rev : BoardRev} {s : Rpio H} {i : Nat}

theorem initEntry_pinToGpio : (initEntry pipi s i).pinToGpio = s.pinToGpio := by
  rw [initEntry]
  split
  next e _ =>
    split
    · rw [irpioSetvalue_pinToGpio, pinMode_pinToGpio]
    · rfl
  next => rfl

/-- A turn for an entry that is mapped there clears the control register. -/
theorem initEntry_control (htable : s.pinToGpio = rev.table) {e : Irpio}
    (he : pipi[i]? = some e) :
    (initEntry pipi s i).pwm pwmControl =
      if e.ControlEntry then 0#32 else s.pwm pwmControl := by
  rw [initEntry, he]
  dsimp only
  cases henabled : e.enabled with
  | false => simp [Irpio.ControlEntry, henabled]
  | true =>
    rw [if_pos rfl, irpioSetvalue_control he]
    by_cases hcontrol : e.ControlEntry
    · rw [if_pos hcontrol, if_pos hcontrol]
      rfl
    · rw [if_neg hcontrol, if_neg hcontrol]
      rcases pinMode_control htable e.pin e.mode with hkeep | ⟨hmode, hboard, hport⟩
      · exact hkeep
      · exact absurd ⟨henabled, hmode, hboard, hport⟩ hcontrol

/-- The loop leaves the control register `0` as soon as there is one such entry. -/
theorem initLoop_control (htable : s.pinToGpio = rev.table) {k : Nat} (hk : k ≤ pipi.length) :
    ((List.range k).foldl (initEntry pipi) s).pinToGpio = rev.table ∧
      ((List.range k).foldl (initEntry pipi) s).pwm pwmControl =
        if ∃ e ∈ pipi.take k, e.ControlEntry then 0#32 else s.pwm pwmControl := by
  induction k with
  | zero => exact ⟨htable, by simp⟩
  | succ k ih =>
    obtain ⟨hpin, hcontrol⟩ := ih (by omega)
    have he : pipi[k]? = some (pipi.get ⟨k, hk⟩) := List.getElem?_eq_getElem hk
    have htake : pipi.take (k + 1) = pipi.take k ++ [pipi.get ⟨k, hk⟩] := by
      rw [List.take_add_one, he]
      rfl
    rw [List.range_succ, List.foldl_append]
    refine ⟨initEntry_pinToGpio.trans hpin, ?_⟩
    show (initEntry pipi _ k).pwm pwmControl = _
    rw [initEntry_control hpin he, hcontrol, htake]
    by_cases hlast : (pipi.get ⟨k, hk⟩).ControlEntry
    · rw [if_pos hlast, if_pos ⟨_, List.mem_append_right _ (List.mem_singleton.mpr rfl), hlast⟩]
    · have hmem : (∃ e ∈ pipi.take k ++ [pipi.get ⟨k, hk⟩], e.ControlEntry) ↔
          ∃ e ∈ pipi.take k, e.ControlEntry := by
        refine ⟨?_, ?_⟩
        · intro h
          obtain ⟨e, he, hcontrol⟩ := h
          cases List.mem_append.mp he with
          | inl he => exact ⟨e, he, hcontrol⟩
          | inr he => exact absurd (List.mem_singleton.mp he ▸ hcontrol) hlast
        · intro h
          obtain ⟨e, he, hcontrol⟩ := h
          exact ⟨e, List.mem_append_left _ he, hcontrol⟩
      rw [if_neg hlast]
      simp only [hmem]

/-- **After `irpio_init`** both channels are enabled, or the control register is `0`. -/
theorem irpioInit_control {env : InitEnv} (hok : (IrpioCall.init env).Succeeds) (s : Rpio H) :
    (irpioInit pipi env s).pwm pwmControl =
      if ∃ e ∈ pipi, e.ControlEntry then 0#32 else 0x0101#32 := by
  have hinit : initGpio env s = (true, { s with pinToGpio := env.rev.table }) := by
    rw [initGpio, if_neg (by rw [hok.1]; exact Bool.noConfusion), hok.2]
  have hloop := (@initLoop_control H pipi env.rev
    (pwmSetMode false { s with pinToGpio := env.rev.table }) rfl _ (Nat.le_refl _)).2
  rw [List.take_length, pwmSetMode_control] at hloop
  rw [irpioInit, hinit]
  exact hloop

theorem irpioInit_of_not {env : InitEnv} (hfail : ¬ (IrpioCall.init env).Succeeds) (s : Rpio H) :
    (irpioInit pipi env s).pwm = s.pwm := by
  rw [irpioInit, initGpio]
  cases hroot : env.root with
  | false => rfl
  | true =>
    cases hmapped : env.mapped with
    | false => rfl
    | true => exact absurd ⟨hroot, hmapped⟩ hfail

end Init

/-! ### Sequences of calls -/

section Calls

variable {pipi : List Irpio} {start : Rpio H}

theorem bothEnabled_of_control {s : Rpio H} (h : s.pwm pwmControl = 0x0101#32) :
    s.BothEnabled := by
  rw [BothEnabled, h]
  decide

/-- Without an entry that is mapped to it the control register changes only in an
`irpio_init` that succeeds. -/
theorem runCall_control (hnone : ∀ e ∈ pipi, ¬ e.ControlEntry) (c : IrpioCall) (s : Rpio H) :
    (runCall pipi s c).pwm pwmControl = s.pwm pwmControl ∨
      (runCall pipi s c).pwm pwmControl = 0x0101#32 := by
  cases c with
  | init env =>
    by_cases hok : (IrpioCall.init env).Succeeds
    · right
      rw [runCall, irpioInit_control hok, if_neg]
      intro h
      obtain ⟨e, he, hcontrol⟩ := h
      exact hnone e he hcontrol
    · left
      rw [runCall, irpioInit_of_not hok]
  | setpwm clock range => exact Or.inl (irpioSetpwm_control clock range s)
  | setvalue p value =>
    left
    cases he : pipi[p]? with
    | none => simp [runCall, irpioSetvalue, he]
    | some e =>
      rw [runCall, irpioSetvalue_control he, if_neg (hnone e (List.mem_of_getElem? he))]

theorem bothEnabled_foldl (hnone : ∀ e ∈ pipi, ¬ e.ControlEntry) {calls : List IrpioCall}
    (hinit : ∃ c ∈ calls, c.Succeeds) : (calls.foldl (runCall pipi) start).BothEnabled := by
  apply bothEnabled_of_control
  induction calls using List.reverseRecOn with
  | nil =>
    obtain ⟨c, hc, -⟩ := hinit
    cases hc
  | append_singleton calls c ih =>
    rw [List.foldl_append]
    show (runCall pipi _ c).pwm pwmControl = _
    by_cases hbefore : ∃ c ∈ calls, c.Succeeds
    · rcases runCall_control hnone c (calls.foldl (runCall pipi) start) with hkeep | hset
      · exact hkeep.trans (ih hbefore)
      · exact hset
    · -- the first one that succeeds is the last call
      obtain ⟨c', hc', hok⟩ := hinit
      cases List.mem_append.mp hc' with
      | inl hc' => exact absurd ⟨c', hc', hok⟩ hbefore
      | inr hc' =>
        obtain rfl := List.mem_singleton.mp hc'
        cases c' with
        | init env =>
          rw [runCall, irpioInit_control hok, if_neg]
          intro h
          obtain ⟨e, he, hcontrol⟩ := h
          exact hnone e he hcontrol
        | setpwm clock range => exact hok.elim
        | setvalue p value => exact hok.elim

/-- **When the control register keeps its channels.**  Exactly if no `irpio_init` succeeds,
or no entry of the pinout is mapped to that register. -/
theorem staysEnabled_iff (pipi : List Irpio) (start : Rpio H) (calls : List IrpioCall) :
    StaysEnabled pipi start calls ↔
      ((∃ c ∈ calls, c.Succeeds) → ∀ e ∈ pipi, ¬ e.ControlEntry) := by
  refine ⟨?_, ?_⟩
  · intro h hinit e he hcontrol
    obtain ⟨c, hc, hok⟩ := hinit
    obtain ⟨cs, hlaw⟩ := h.mem hc
    have henabled := hlaw ⟨c, List.mem_append_right _ (List.mem_singleton.mpr rfl), hok⟩
    rw [List.foldl_append] at henabled
    cases c with
    | init env =>
      have hzero : (irpioInit pipi env (cs.foldl (runCall pipi) start)).pwm pwmControl = 0#32 := by
        rw [irpioInit_control hok, if_pos ⟨e, he, hcontrol⟩]
      have hbits : (irpioInit pipi env (cs.foldl (runCall pipi) start)).pwm pwmControl &&&
          0x0101#32 = 0x0101#32 := henabled
      rw [hzero] at hbits
      revert hbits
      decide
    | setpwm clock range => exact hok
    | setvalue p value => exact hok
  · intro h cs c hle hinit
    have hsub : ∃ c ∈ calls, c.Succeeds := by
      obtain ⟨c', hc', hok⟩ := hinit
      exact ⟨c', hle.subset hc', hok⟩
    exact bothEnabled_foldl (h hsub) hinit

/-- **When PWM writes keep to the duty registers.**  A write does exactly if it and the duty
register of its pin already have the value; and both channels stay enabled exactly if no
`irpio_init` succeeds or no entry of the pinout is mapped to the control register. -/
theorem pwm_writes_iff :
    (∀ (rev : BoardRev) (pin : Nat) (value : Int) (s : Rpio H), pin < 64 →
      (WritesDuty rev pin value s ↔
        s.pwm (pwmPort pin) = BitVec.ofInt 32 value ∧
          ∀ r, dutyRegister rev pin = some r → s.pwm r = BitVec.ofInt 32 value)) ∧
    ∀ (pipi : List Irpio) (start : Rpio H) (calls : List IrpioCall),
      StaysEnabled pipi start calls ↔
        ((∃ c ∈ calls, c.Succeeds) → ∀ e ∈ pipi, ¬ e.ControlEntry) :=
  ⟨fun rev _ value s hpin => writesDuty_iff rev hpin value s, staysEnabled_iff⟩

end Calls

/-- Half the range on the IR LED, GPIO 18: the control register gets the value.  And after
`irpio_init` on the pinout both channels are off. -/
theorem irled_writes_control :
    (¬ ∀ (rev : BoardRev) (pin : Nat) (value : Int) (s : Rpio Unit), pin < 64 →
      WritesDuty rev pin value s) ∧
    ¬ ∀ (pipi : List Irpio) (start : Rpio Unit) (calls : List IrpioCall),
      StaysEnabled pipi start calls := by
  refine ⟨?_, ?_⟩
  · intro h
    have hpwm := congrArg Rpio.pwm (h .r1 1 512 blank (by decide))
    exact absurd (congrFun hpwm pwmControl) (by decide)
  · intro h
    have henabled := h rpioPinout blank [.init ⟨true, .r1, true⟩] [] _ List.prefix_rfl
      ⟨_, List.mem_singleton.mpr rfl, rfl, rfl⟩
    revert henabled
    unfold BothEnabled
    decide

end Rpio

end Raspberries.IrAlarm
