import Mathlib.Logic.Function.Basic
import Mathlib.Tactic.Common

/-!
# The GPIO access of `irpio.c`

This is the build without `USE_WIPI`.  A pin number of the pinout is a wiringPi
number; `pinToGpioR1` and `pinToGpioR2` map it to the GPIO number of the chip for the
two board revisions.  The mapped registers are words: `gpio` has the function selects
in the words 0 to 5, `GPSET` in 7 and 8 and `GPCLR` in 10 and 11.

The tables are arrays of `int`, but `__init_gpio` stores a `const uint8_t *` to them,
so `pinToGpio[pin]` is a byte of the array (`byteOf`); the ARM is little endian.  A
sysfs value file is named by the number that `sprintf` puts into its path.

The registers are memory here.  The wait in `pwmSetClock` reads back the word that was
just written, whose `BUSY` bit is clear, and ends at once.
-/

namespace Raspberries.IrAlarm

inductive PinMode
  | input
  | output
  | pwmOutput
  deriving DecidableEq, Repr

structure Irpio where
  name : String
  pin : Nat
  mode : PinMode
  enabled : Bool
  deriving DecidableEq, Repr

def rpioPinout : List Irpio :=
  [⟨"IR-LED", 1, .pwmOutput, true⟩, ⟨"IR-RECIEVER", 3, .input, true⟩,
    ⟨"SPEAKER", 2, .output, true⟩, ⟨"ALARM-LED", 0, .output, true⟩,
    ⟨"STATUS-LED", 4, .output, true⟩]

/-! ### Tables -/

def pinToGpioR1 : List Int :=
  [17, 18, 21, 22, 23, 24, 25, 4, 0, 1, 8, 7, 10, 9, 11, 14, 15] ++ List.replicate 47 (-1)

def pinToGpioR2 : List Int :=
  [17, 18, 27, 22, 23, 24, 25, 4, 2, 3, 8, 7, 10, 9, 11, 14, 15, 28, 29, 30, 31,
    5, 6, 13, 19, 26, 12, 16, 20, 21, 0, 1] ++ List.replicate 32 (-1)

def gpioToGPFSEL : List Nat :=
  List.replicate 10 0 ++ List.replicate 10 1 ++ List.replicate 10 2 ++ List.replicate 10 3 ++
    List.replicate 10 4 ++ List.replicate 10 5

def gpioToShift : List Nat :=
  (List.replicate 5 [0, 3, 6, 9, 12, 15, 18, 21, 24, 27]).flatten

def fselAlt0 : Nat := 0b100
def fselAlt5 : Nat := 0b010

def gpioToPwmALT : List Nat :=
  List.replicate 12 0 ++ [fselAlt0, fselAlt0] ++ List.replicate 4 0 ++ [fselAlt5, fselAlt5] ++
    List.replicate 20 0 ++ [fselAlt0, fselAlt0, 0, 0, 0, fselAlt0] ++ List.replicate 18 0

def pwmControl : Nat := 0
def pwm0Range : Nat := 4
def pwm1Range : Nat := 8
def pwm0Data : Nat := 5
def pwm1Data : Nat := 9
def pwmclkCntl : Nat := 40
def pwmclkDiv : Nat := 41
def bcmPassword : BitVec 32 := 0x5A000000

def gpioToPwmPort : List Nat :=
  List.replicate 12 0 ++ [pwm0Data, pwm1Data] ++ List.replicate 4 0 ++ [pwm0Data, pwm1Data] ++
    List.replicate 20 0 ++ [pwm0Data, pwm1Data, 0, 0, 0, pwm1Data] ++ List.replicate 18 0

def gpioToGPSET : List Nat := List.replicate 32 7 ++ List.replicate 32 8

def gpioToGPCLR : List Nat := List.replicate 32 10 ++ List.replicate 32 11

/-! ### The board -/

/-- What `piBoardRev` tells apart: revision 1, and everything else. -/
inductive BoardRev
  | r1
  | other
  deriving DecidableEq, Repr

def BoardRev.table : BoardRev → List Int
  | .r1 => pinToGpioR1
  | .other => pinToGpioR2

/-- Entry `pin` of the table, where it is a GPIO. -/
def BoardRev.gpio (rev : BoardRev) (pin : Nat) : Option Nat :=
  match rev.table[pin]? with
  | some (.ofNat g) => some g
  | _ => none

/-- Byte `i` of an array of 32-bit integers in little endian order. -/
def byteOf (table : List Int) (i : Nat) : Nat :=
  (BitVec.ofInt 32 (table.getD (i / 4) 0) >>> (8 * (i % 4))).toNat % 256

/-- The file `/sys/class/gpio/gpio<gpio>/value`. -/
structure ValueFile where
  gpio : Nat
  deriving DecidableEq, Repr

/-- The static variables and the mapped registers; `H` are the functions that can be
registered, and `handlers` the pins with a running `interruptHandler`. -/
structure Rpio (H : Type*) where
  pinToGpio : List Int
  gpio : Nat → BitVec 32
  pwm : Nat → BitVec 32
  clk : Nat → BitVec 32
  sysFds : Nat → Option ValueFile
  isrFunctions : Nat → Option H
  handlers : List Nat

/-- `(pin & PI_GPIO_MASK) == 0`. -/
def onBoard (pin : Nat) : Bool := BitVec.ofNat 32 pin &&& 0xFFFFFFC0#32 == 0#32

namespace Rpio

variable {H : Type*}

/-- Before `irpio_init`, with all registers `0`. -/
def blank : Rpio H where
  pinToGpio := []
  gpio := fun _ => 0
  pwm := fun _ => 0
  clk := fun _ => 0
  sysFds := fun _ => none
  isrFunctions := fun _ => none
  handlers := []

/-- `*(gpio + i) = v`. -/
def setGpio (s : Rpio H) (i : Nat) (v : BitVec 32) : Rpio H :=
  { s with gpio := Function.update s.gpio i v }

/-- `*(pwm + i) = v`. -/
def setPwm (s : Rpio H) (i : Nat) (v : BitVec 32) : Rpio H :=
  { s with pwm := Function.update s.pwm i v }

/-- `*(clk + i) = v`. -/
def setClk (s : Rpio H) (i : Nat) (v : BitVec 32) : Rpio H :=
  { s with clk := Function.update s.clk i v }

/-- `pwmSetMode`; `ms` is `PWM_MODE_MS`. -/
def pwmSetMode (ms : Bool) (s : Rpio H) : Rpio H :=
  s.setPwm pwmControl (if ms then 0x0001#32 ||| 0x0100 ||| 0x0080 ||| 0x8000
    else 0x0001#32 ||| 0x0100)

def pwmSetClock (divisor : Nat) (s : Rpio H) : Rpio H :=
  let divisor := BitVec.ofNat 32 divisor &&& 4095
  let control := s.pwm pwmControl
  let s := s.setPwm pwmControl 0
  let s := s.setClk pwmclkCntl (bcmPassword ||| 0x01)
  let s := s.setClk pwmclkDiv (bcmPassword ||| divisor <<< 12)
  let s := s.setClk pwmclkCntl (bcmPassword ||| 0x11)
  s.setPwm pwmControl control

def pwmSetRange (range : BitVec 32) (s : Rpio H) : Rpio H :=
  (s.setPwm pwm0Range range).setPwm pwm1Range range

def pinMode (pin : Nat) (mode : PinMode) (s : Rpio H) : Rpio H :=
  if onBoard pin then
    let pin := byteOf s.pinToGpio pin
    let fSel := gpioToGPFSEL.getD pin 0
    let shift := gpioToShift.getD pin 0
    let cleared := s.gpio fSel &&& ~~~(7#32 <<< shift)
    match mode with
    | .input => s.setGpio fSel cleared
    | .output => s.setGpio fSel (cleared ||| 1#32 <<< shift)
    | .pwmOutput =>
      let alt := gpioToPwmALT.getD pin 0
      if alt = 0 then s
      else
        pwmSetClock 32 (pwmSetRange 1024 (pwmSetMode false
          (s.setGpio fSel (cleared ||| BitVec.ofNat 32 alt <<< shift))))
  else s

def digitalWrite (pin : Nat) (value : Int) (s : Rpio H) : Rpio H :=
  if onBoard pin then
    if value = 0 then s.setGpio (gpioToGPCLR.getD pin 0) (1#32 <<< (pin &&& 31))
    else s.setGpio (gpioToGPSET.getD pin 0) (1#32 <<< (pin &&& 31))
  else s

def pwmWrite (pin : Nat) (value : Int) (s : Rpio H) : Rpio H :=
  if onBoard pin then s.setPwm (gpioToPwmPort.getD pin 0) (BitVec.ofInt 32 value) else s

/-- `__isr_init`; `opens` says whether `open` succeeds. -/
def isrInit (pin : Nat) (function : H) (opens : Bool) (s : Rpio H) : Int × Rpio H :=
  if s.sysFds pin = none ∧ opens = false then (-1, s)
  else
    (0, { s with
      sysFds := Function.update s.sysFds pin (some ((s.sysFds pin).getD ⟨pin⟩))
      isrFunctions := Function.update s.isrFunctions pin (some function)
      handlers := pin :: s.handlers })

/-- What `__init_gpio` meets: whether it runs as root, the board, and whether `/dev/mem`
can be mapped. -/
structure InitEnv where
  root : Bool
  rev : BoardRev
  mapped : Bool
  deriving DecidableEq, Repr

/-- `__init_gpio`, with `false` for an error. -/
def initGpio (env : InitEnv) (s : Rpio H) : Bool × Rpio H :=
  if env.root = false then (false, s)
  else (env.mapped, { s with pinToGpio := env.rev.table })

section Pinout

variable (pipi : List Irpio)

def irpioSetvalue (p : Nat) (value : Int) (s : Rpio H) : Rpio H :=
  match pipi[p]? with
  | some e =>
    if e.enabled then
      match e.mode with
      | .output => digitalWrite e.pin value s
      | .pwmOutput => pwmWrite e.pin value s
      | .input => s
    else s
  | none => s

def irpioInit (env : InitEnv) (s : Rpio H) : Rpio H :=
  match initGpio env s with
  | (false, s) => s
  | (true, s) =>
    (List.range pipi.length).foldl (fun s i =>
      match pipi[i]? with
      | some e => if e.enabled then irpioSetvalue pipi i 0 (pinMode e.pin e.mode s) else s
      | none => s) (pwmSetMode false s)

end Pinout

def irpioDigitalWrite (pin : Nat) (value : Int) (s : Rpio H) : Rpio H := digitalWrite pin value s

def irpioIsr (pin : Nat) (function : H) (opens : Bool) (s : Rpio H) : Int × Rpio H :=
  isrInit pin function opens s

end Rpio

end Raspberries.IrAlarm
