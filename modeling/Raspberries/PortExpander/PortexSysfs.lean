import Raspberries.Lib.CString
import Raspberries.PortExpander.PortexSpi

/-!
# The sysfs half of the port expander

The files `gpio0` to `gpio15` and `gpio_all` of the class.  A store handler is given the
text that is written to its file, and `spi` says what `spi_write` returns for the first,
the second, ... transfer it makes.  The direction files are not implemented, and neither
is reading `gpio_all`.
-/

namespace Raspberries.PortExpander

open CString

/-! ### `sscanf` of the kernel -/

/-- `isspace` of the kernel, which knows the no-break space of Latin-1 too. -/
def isKernelSpace (c : Char) : Bool := isSpace c || c.toNat = 160

/-- The conversion `%u` into 32 bits. -/
def sscanfU (str : List Char) : Option (BitVec 32) :=
  let digits := (str.dropWhile isKernelSpace).takeWhile Char.isDigit
  if digits = [] then none else some (BitVec.ofNat 32 (ofDigits digits))

/-- The conversion `%d` into an `int` of 32 bits: a minus sign may come before the digits,
and what does not fit is cut off. -/
def sscanfD (buf : List Char) : Option (BitVec 32) :=
  match buf.dropWhile isKernelSpace with
  | '-' :: str =>
      let digits := str.takeWhile Char.isDigit
      if digits = [] then none else some (-BitVec.ofNat 32 (ofDigits digits))
  | str =>
      let digits := str.takeWhile Char.isDigit
      if digits = [] then none else some (BitVec.ofNat 32 (ofDigits digits))

/-! ### Attributes -/

/-- `sscanf(name, "gpio%u", &idx)`. -/
def scanGpio (name : List Char) : Option (BitVec 32) :=
  match name with
  | 'g' :: 'p' :: 'i' :: 'o' :: str => sscanfU str
  | _ => none

/-- An attribute whose name `get_gpio` reads a number from. -/
structure ClassAttribute where
  name : List Char
  numbered : (scanGpio name).isSome

def getGpio (attr : ClassAttribute) : Nat := ((scanGpio attr.name).get attr.numbered).toNat

def gpioName (n : Fin 16) : List Char := "gpio".toList ++ Nat.toDigits 10 n

theorem scanGpio_gpioName : ∀ n : Fin 16, scanGpio (gpioName n) = some (BitVec.ofNat 32 n) := by
  decide

def gpioAttr (n : Fin 16) : ClassAttribute :=
  ⟨gpioName n, by rw [scanGpio_gpioName]; rfl⟩

@[simp] theorem getGpio_gpioAttr (n : Fin 16) : getGpio (gpioAttr n) = n := by
  have hscan : (scanGpio (gpioAttr n).name).get (gpioAttr n).numbered = BitVec.ofNat 32 n :=
    Option.get_of_eq_some _ (scanGpio_gpioName n)
  rw [getGpio, hscan, BitVec.toNat_ofNat]
  omega

/-! ### Handlers -/

/-- The register of a pin and the number of its bit in it. -/
def portPin (gpio : Nat) : Nat × Nat :=
  if gpio > 7 then (mcp23s17RegGpio, gpio - 8) else (mcp23s08RegGpio, gpio)

def gpioGet (attr : ClassAttribute) (d : Device) : List Char :=
  let pin := portPin (getGpio attr)
  Nat.toDigits 10 (portexReadCached pin.1 (BitVec.ofNat 8 pin.2) d) ++ ['\n']

/-- The `int` goes into a parameter of eight bits. -/
def gpioSet (spi : Nat → Int) (attr : ClassAttribute) (buf : List Char) (count : Nat)
    (d : Device) : Nat × Device :=
  match sscanfD buf with
  | none => (count, d)
  | some value =>
      let pin := portPin (getGpio attr)
      (count, portexWriteCached (spi 0) pin.1 (BitVec.ofNat 8 (1 <<< pin.2))
        (value.setWidth 8) d)

def gpioAllSet (spi : Nat → Int) (buf : List Char) (count : Nat) (d : Device) : Nat × Device :=
  match sscanfD buf with
  | none => (count, d)
  | some value =>
      (count, portexWriteCached (spi 1) mcp23s17RegGpio 0xFF#8 (value.setWidth 8)
        (portexWriteCached (spi 0) mcp23s08RegGpio 0xFF#8 (value.setWidth 8) d))

inductive File
  | gpio (n : Fin 16)
  | gpioAll
  deriving DecidableEq, Repr

def File.store (file : File) (spi : Nat → Int) (buf : List Char) (d : Device) : Nat × Device :=
  match file with
  | .gpio n => gpioSet spi (gpioAttr n) buf buf.length d
  | .gpioAll => gpioAllSet spi buf buf.length d

end Raspberries.PortExpander
