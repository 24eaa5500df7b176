import Mathlib.Logic.Function.Basic
import Mathlib.Tactic.Common

/-!
# The SPI half of the port expander

The driver keeps one byte for each register of the chip, and `portex_write_cached` sends
the whole byte after it has changed the bits of a mask in it.

About the chip two things are assumed: that it is a register file under the numbers of
`portex.h`, and that it has just been reset when the driver starts.  A transfer is given
the value that `spi_write` returns: on a negative one the chip keeps its registers.
-/

namespace Raspberries.PortExpander

/-! ### Registers -/

def mcp23s08Addr00 : Nat := 0x0

/-- `GPIO` of port A. -/
def mcp23s08RegGpio : Nat := 0x09

/-- `GPIO` of port B. -/
def mcp23s17RegGpio : Nat := 0x19

/-- `cache_mcp23s17` and the registers of the chip. -/
structure Device where
  cache : Nat → BitVec 8
  chip : Nat → BitVec 8

/-- After the reset of the chip and `mcp23s17_probe`, which sets all directions to out. -/
def Device.initial : Device := ⟨fun _ => 0#8, fun _ => 0#8⟩

/-! ### Transfers -/

/-- What the chip makes of a message: a control byte for writing at its address 0, a
register and a value. -/
def receive (tx : List (BitVec 8)) (chip : Nat → BitVec 8) : Nat → BitVec 8 :=
  match tx with
  | [control, reg, value] =>
      if control = 0x40#8 then Function.update chip reg.toNat value else chip
  | _ => chip

/-- The message is sent, and `spi_write` returns `ret`. -/
def mcp23s17Write (ret : Int) (addr reg : Nat) (value : BitVec 8) (chip : Nat → BitVec 8) :
    Int × (Nat → BitVec 8) :=
  (ret,
    if 0 ≤ ret then receive [0x40#8 ||| BitVec.ofNat 8 addr, BitVec.ofNat 8 reg, value] chip
    else chip)

theorem mcp23s17Write_eq (ret : Int) {reg : Nat} (hreg : reg < 256) (value : BitVec 8)
    (chip : Nat → BitVec 8) :
    mcp23s17Write ret mcp23s08Addr00 reg value chip =
      (ret, if 0 ≤ ret then Function.update chip reg value else chip) := by
  have hnumber : (BitVec.ofNat 8 reg).toNat = reg := by
    rw [BitVec.toNat_ofNat]
    omega
  have hcontrol : 0x40#8 ||| BitVec.ofNat 8 mcp23s08Addr00 = 0x40#8 := by decide
  rw [mcp23s17Write, receive, if_pos hcontrol, hnumber]

theorem mcp23s17Write_zero {reg : Nat} (hreg : reg < 256) (value : BitVec 8)
    (chip : Nat → BitVec 8) :
    mcp23s17Write 0 mcp23s08Addr00 reg value chip = (0, Function.update chip reg value) := by
  rw [mcp23s17Write_eq 0 hreg, if_pos (by omega)]

/-! ### Cached bytes -/

/-- The byte with the bits of the mask cleared, or set if `value` is not zero. -/
def changeBits (pinMask value byte : BitVec 8) : BitVec 8 :=
  if value = 0#8 then byte &&& ~~~pinMask else byte ||| pinMask

def portexWriteCached (ret : Int) (reg : Nat) (pinMask value : BitVec 8) (d : Device) : Device :=
  let cache := Function.update d.cache reg (changeBits pinMask value (d.cache reg))
  { cache := cache
    chip := (mcp23s17Write ret mcp23s08Addr00 reg (cache reg) d.chip).2 }

def portexReadCached (reg : Nat) (pinNmb : BitVec 8) (d : Device) : Nat :=
  ((d.cache reg >>> pinNmb.toNat) &&& 1#8).toNat

theorem getLsbD_changeBits (pinMask value byte : BitVec 8) (i : Nat) :
    (changeBits pinMask value byte).getLsbD i =
      if pinMask.getLsbD i then decide (value ≠ 0#8) else byte.getLsbD i := by
  by_cases hvalue : value = 0#8
  · rw [changeBits, if_pos hvalue]
    by_cases hi : i < 8
    · rw [BitVec.getLsbD_and, BitVec.getLsbD_not]
      cases pinMask.getLsbD i with
      | true => simp [hvalue]
      | false => simp [hi]
    · have hmask : pinMask.getLsbD i = false := BitVec.getLsbD_of_ge _ _ (by omega)
      have hbyte : byte.getLsbD i = false := BitVec.getLsbD_of_ge _ _ (by omega)
      simp [hmask, hbyte]
  · rw [changeBits, if_neg hvalue, BitVec.getLsbD_or]
    cases pinMask.getLsbD i with
    | true => simp [hvalue]
    | false => simp

theorem portexReadCached_eq (reg : Nat) (pinNmb : BitVec 8) (d : Device) :
    portexReadCached reg pinNmb d = ((d.cache reg).getLsbD pinNmb.toNat).toNat := by
  rw [portexReadCached, BitVec.toNat_and, BitVec.toNat_ushiftRight, Nat.shiftRight_eq_div_pow,
    BitVec.getLsbD, Nat.toNat_testBit]
  exact Nat.and_one_is_mod _

/-- A write changes the byte of its register in the cache, and the chip gets that byte if
the transfer succeeds. -/
theorem portexWriteCached_eq (ret : Int) {reg : Nat} (hreg : reg < 256) (pinMask value : BitVec 8)
    (d : Device) :
    portexWriteCached ret reg pinMask value d =
      { cache := Function.update d.cache reg (changeBits pinMask value (d.cache reg))
        chip := if 0 ≤ ret then
          Function.update d.chip reg (changeBits pinMask value (d.cache reg)) else d.chip } := by
  rw [portexWriteCached, mcp23s17Write_eq ret hreg, Function.update_self]

theorem portexWriteCached_zero {reg : Nat} (hreg : reg < 256) (pinMask value : BitVec 8)
    (d : Device) :
    portexWriteCached 0 reg pinMask value d =
      { cache := Function.update d.cache reg (changeBits pinMask value (d.cache reg))
        chip := Function.update d.chip reg (changeBits pinMask value (d.cache reg)) } := by
  rw [portexWriteCached_eq 0 hreg, if_pos (by omega)]

end Raspberries.PortExpander
