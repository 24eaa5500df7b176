import Mathlib.Data.List.Induction
import Raspberries.PortExpander.PortexSysfs

/-!
# Sixteen bits behind files

Every pin has a bit of its own in one of two cached bytes, and the chip has the same
bytes, as long as all transfers succeed.  The value of a pin is the value written last,
but of the `int` only the low byte gets as far as the driver: 256 switches a pin off.

`behaves_as_bits_iff` says for which sequences of writes the files behave as sixteen
bits.
-/

namespace Raspberries.PortExpander

abbrev Write := File × List Char

/-- A write with transfers that succeed. -/
def writeFile (d : Device) (w : Write) : Device := (w.1.store (fun _ => 0) w.2 d).2

def afterWrites (ws : List Write) : Device := ws.foldl writeFile Device.initial

def File.Sets (file : File) (n : Fin 16) : Prop := file = .gpio n ∨ file = .gpioAll

instance (file : File) (n : Fin 16) : Decidable (file.Sets n) :=
  inferInstanceAs (Decidable (file = .gpio n ∨ file = .gpioAll))

/-- The `int` that a write is for a pin, if it sets the pin and its text is one. -/
def intFor (n : Fin 16) (w : Write) : Option (BitVec 32) :=
  if w.1.Sets n then sscanfD w.2 else none

def lastInt (n : Fin 16) (ws : List Write) : Option (BitVec 32) := ws.reverse.findSome? (intFor n)

def pinText (on : Bool) : List Char := if on then "1\n".toList else "0\n".toList

/-- The sixteen files behave as bits after the writes `ws`. -/
structure BehavesAsBits (ws : List Write) : Prop where
  read : ∀ n, gpioGet (gpioAttr n) (afterWrites ws) =
    pinText ((lastInt n ws).any fun value => value ≠ 0#32)
  frame : ∀ n m buf, m ≠ n →
    gpioGet (gpioAttr m) (writeFile (afterWrites ws) (.gpio n, buf)) =
      gpioGet (gpioAttr m) (afterWrites ws)
  unparsed : ∀ file buf, sscanfD buf = none →
    writeFile (afterWrites ws) (file, buf) = afterWrites ws
  chip : ∀ reg, reg = mcp23s08RegGpio ∨ reg = mcp23s17RegGpio →
    (afterWrites ws).chip reg = (afterWrites ws).cache reg
  portA : ∀ n : Fin 16, n.val < 8 →
    gpioGet (gpioAttr n) (afterWrites ws) =
      pinText (((afterWrites ws).chip mcp23s08RegGpio).getLsbD n)
  portB : ∀ n : Fin 16, 8 ≤ n.val →
    gpioGet (gpioAttr n) (afterWrites ws) =
      pinText (((afterWrites ws).chip mcp23s17RegGpio).getLsbD (n - 8))

/-- Of the `int`s in effect, none is a multiple of 256 but zero. -/
def LowBytesTell (ws : List Write) : Prop :=
  ∀ n value, lastInt n ws = some value → value = 0#32 ∨ value.setWidth 8 ≠ 0#8

/-! ### Pins -/

def Device.pin (d : Device) (n : Fin 16) : Bool := (d.cache (portPin n).1).getLsbD (portPin n).2

theorem portPin_snd_lt (n : Fin 16) : (portPin n).2 < 8 := by
  have hn := n.isLt
  rw [portPin]
  split <;> omega

theorem portPin_fst (n : Fin 16) :
    (portPin n).1 = mcp23s08RegGpio ∨ (portPin n).1 = mcp23s17RegGpio := by
  rw [portPin]
  split
  · exact .inr rfl
  · exact .inl rfl

theorem portPin_inj {n m : Fin 16} (hreg : (portPin n).1 = (portPin m).1)
    (hbit : (portPin n).2 = (portPin m).2) : n = m := by
  have hports : mcp23s17RegGpio ≠ mcp23s08RegGpio := by decide
  apply Fin.ext
  by_cases hn : n.val > 7
  · by_cases hm : m.val > 7
    · simp only [portPin, if_pos hn, if_pos hm] at hbit
      omega
    · simp only [portPin, if_pos hn, if_neg hm] at hreg
      exact absurd hreg hports
  · by_cases hm : m.val > 7
    · simp only [portPin, if_neg hn, if_pos hm] at hreg
      exact absurd hreg.symm hports
    · simp only [portPin, if_neg hn, if_neg hm] at hbit
      omega

theorem pin_initial (n : Fin 16) : Device.initial.pin n = false := BitVec.getLsbD_zero

theorem gpioGet_gpioAttr (d : Device) (n : Fin 16) :
    gpioGet (gpioAttr n) d = pinText (d.pin n) := by
  have hbit : (BitVec.ofNat 8 (portPin n).2).toNat = (portPin n).2 := by
    have hlt := portPin_snd_lt n
    rw [BitVec.toNat_ofNat]
    omega
  rw [gpioGet, getGpio_gpioAttr, portexReadCached_eq, hbit, Device.pin]
  cases (d.cache (portPin n).1).getLsbD (portPin n).2 with
  | true => rfl
  | false => rfl

/-! ### One write -/

/-- The low byte of the `int` is what the pin is set to. -/
def taken (value : BitVec 32) : Bool := decide (value.setWidth 8 ≠ 0#8)

theorem portPin_fst_lt (n : Fin 16) : (portPin n).1 < 256 := by
  rcases portPin_fst n with h | h
  · rw [h]
    decide
  · rw [h]
    decide

/-- A cached write sets the pins of its register that are in the mask, and no other. -/
theorem pin_portexWriteCached {reg : Nat} (hreg : reg < 256) (pinMask value : BitVec 8)
    (d : Device) (n : Fin 16) :
    (portexWriteCached 0 reg pinMask value d).pin n =
      if (portPin n).1 = reg ∧ pinMask.getLsbD (portPin n).2 = true then decide (value ≠ 0#8)
      else d.pin n := by
  rw [portexWriteCached_zero hreg, Device.pin, Device.pin]
  by_cases hport : (portPin n).1 = reg
  · simp only [hport, Function.update_self, getLsbD_changeBits, true_and]
  · simp only [Function.update_of_ne hport, hport, false_and, if_false]

theorem getLsbD_pinMask (n m : Fin 16) :
    (BitVec.ofNat 8 (1 <<< (portPin n).2)).getLsbD (portPin m).2 =
      decide ((portPin n).2 = (portPin m).2) := by
  have hm := portPin_snd_lt m
  rw [BitVec.getLsbD_ofNat, Nat.one_shiftLeft, Nat.testBit_two_pow]
  simp [hm]

theorem getLsbD_allPins (m : Fin 16) : (0xFF#8).getLsbD (portPin m).2 = true := by
  have hm := portPin_snd_lt m
  generalize (portPin m).2 = i at hm
  revert i
  decide

section OneWrite

variable (d : Device) {buf : List Char} {value : BitVec 32}

theorem writeFile_unparsed (file : File) (hparse : sscanfD buf = none) :
    writeFile d (file, buf) = d := by
  cases file with
  | gpio n => simp [writeFile, File.store, gpioSet, hparse]
  | gpioAll => simp [writeFile, File.store, gpioAllSet, hparse]

theorem writeFile_gpio (n : Fin 16) (hparse : sscanfD buf = some value) :
    writeFile d (.gpio n, buf) =
      portexWriteCached 0 (portPin n).1 (BitVec.ofNat 8 (1 <<< (portPin n).2))
        (value.setWidth 8) d := by
  simp [writeFile, File.store, gpioSet, hparse]

theorem writeFile_gpioAll (hparse : sscanfD buf = some value) :
    writeFile d (.gpioAll, buf) =
      portexWriteCached 0 mcp23s17RegGpio 0xFF#8 (value.setWidth 8)
        (portexWriteCached 0 mcp23s08RegGpio 0xFF#8 (value.setWidth 8) d) := by
  simp [writeFile, File.store, gpioAllSet, hparse]

theorem intFor_gpio_ne {n m : Fin 16} (hne : m ≠ n) (buf : List Char) :
    intFor m (.gpio n, buf) = none := by
  rw [intFor, if_neg]
  intro hsets
  cases hsets with
  | inl h => exact hne (File.gpio.inj h).symm
  | inr h => cases h

/-- **A write sets the pins of its file**, if its text is an `int`, and leaves the others. -/
theorem pin_writeFile (w : Write) (n : Fin 16) :
    (writeFile d w).pin n = ((intFor n w).map taken).getD (d.pin n) := by
  obtain ⟨file, buf⟩ := w
  cases hparse : sscanfD buf with
  | none =>
    have hfor : intFor n (file, buf) = none := by
      rw [intFor, hparse, ite_self]
    rw [writeFile_unparsed d file hparse, hfor]
    rfl
  | some value =>
    cases file with
    | gpio m =>
      rw [writeFile_gpio d m hparse, pin_portexWriteCached (portPin_fst_lt m), getLsbD_pinMask]
      by_cases hsame : n = m
      · simp [hsame, intFor, File.Sets, hparse, taken]
      · have hother : ¬ ((portPin n).1 = (portPin m).1 ∧
            decide ((portPin m).2 = (portPin n).2) = true) := by
          intro h
          exact hsame (portPin_inj h.1 (of_decide_eq_true h.2).symm)
        rw [if_neg hother, intFor_gpio_ne hsame]
        rfl
    | gpioAll =>
      have hfor : intFor n (.gpioAll, buf) = some value := by
        rw [intFor, if_pos (.inr rfl), hparse]
      rw [writeFile_gpioAll d hparse, hfor, pin_portexWriteCached (by decide),
        pin_portexWriteCached (by decide), getLsbD_allPins]
      -- the pin is in the mask of one of the two writes
      rcases portPin_fst n with hport | hport
      · simp [hport, taken]
      · simp [hport, taken]

theorem chip_portexWriteCached {d : Device} (h : d.chip = d.cache) {reg : Nat} (hreg : reg < 256)
    (pinMask value : BitVec 8) :
    (portexWriteCached 0 reg pinMask value d).chip =
      (portexWriteCached 0 reg pinMask value d).cache := by
  rw [portexWriteCached_zero hreg, h]

theorem chip_writeFile {d : Device} (h : d.chip = d.cache) (w : Write) :
    (writeFile d w).chip = (writeFile d w).cache := by
  obtain ⟨file, buf⟩ := w
  cases hparse : sscanfD buf with
  | none =>
    rw [writeFile_unparsed d file hparse, h]
  | some value =>
    cases file with
    | gpio n =>
      rw [writeFile_gpio d n hparse]
      exact chip_portexWriteCached h (portPin_fst_lt n) _ _
    | gpioAll =>
      rw [writeFile_gpioAll d hparse]
      have hportA := chip_portexWriteCached h (show mcp23s08RegGpio < 256 by decide) 0xFF#8
        (value.setWidth 8)
      exact chip_portexWriteCached hportA (by decide) _ _

end OneWrite

/-! ### Sequences of writes -/

theorem afterWrites_concat (ws : List Write) (w : Write) :
    afterWrites (ws ++ [w]) = writeFile (afterWrites ws) w := by
  rw [afterWrites, List.foldl_append]
  rfl

theorem lastInt_concat (n : Fin 16) (ws : List Write) (w : Write) :
    lastInt n (ws ++ [w]) = (intFor n w).or (lastInt n ws) := by
  rw [lastInt, List.reverse_append, List.reverse_singleton, List.singleton_append,
    List.findSome?_cons, lastInt]
  cases intFor n w with
  | none => rfl
  | some value => rfl

/-- **A pin has the low byte of the `int` written to it last.** -/
theorem pin_afterWrites (ws : List Write) (n : Fin 16) :
    (afterWrites ws).pin n = ((lastInt n ws).map taken).getD false := by
  induction ws using List.reverseRecOn with
  | nil => exact pin_initial n
  | append_singleton ws w ih =>
    rw [afterWrites_concat, pin_writeFile, lastInt_concat, ih]
    cases intFor n w with
    | none => rfl
    | some value => rfl

theorem chip_afterWrites (ws : List Write) : (afterWrites ws).chip = (afterWrites ws).cache := by
  induction ws using List.reverseRecOn with
  | nil => rfl
  | append_singleton ws w ih =>
    rw [afterWrites_concat]
    exact chip_writeFile ih w

theorem pinText_inj {on on' : Bool} : pinText on = pinText on' ↔ on = on' := by
  cases on <;> cases on' <;> decide

/-- The files give back what was written exactly if the low bytes of the `int`s in effect
tell them from zero. -/
theorem read_iff (ws : List Write) :
    (∀ n, gpioGet (gpioAttr n) (afterWrites ws) =
      pinText ((lastInt n ws).any fun value => value ≠ 0#32)) ↔ LowBytesTell ws := by
  refine ⟨?_, ?_⟩
  · intro h n value hlast
    have hread := h n
    rw [gpioGet_gpioAttr, pin_afterWrites, hlast, pinText_inj] at hread
    by_cases hzero : value = 0#32
    · exact .inl hzero
    · have htaken : taken value = true := by
        simpa [hzero] using hread
      exact .inr (of_decide_eq_true htaken)
  · intro h n
    rw [gpioGet_gpioAttr, pin_afterWrites, pinText_inj]
    cases hlast : lastInt n ws with
    | none => rfl
    | some value =>
      rcases h n value hlast with hzero | hlow
      · simp [hzero, taken]
      · have hne : value ≠ 0#32 := by
          intro hzero
          rw [hzero] at hlow
          exact hlow rfl
        simp [hne, hlow, taken]

/-- **When the files are sixteen bits.**  What the pins do to each other, what is not an
`int` and what the chip gets, from its reset on, is as it should be after every sequence of
writes whose transfers succeed; a pin reads back exactly if none of the values in effect
loses its bits on the way. -/
theorem behaves_as_bits_iff (ws : List Write) : BehavesAsBits ws ↔ LowBytesTell ws := by
  have hchip := chip_afterWrites ws
  refine ⟨?_, ?_⟩
  · intro h
    exact (read_iff ws).mp h.read
  · intro h
    refine ⟨(read_iff ws).mpr h, ?_, ?_, ?_, ?_, ?_⟩
    · intro n m buf hne
      rw [gpioGet_gpioAttr, gpioGet_gpioAttr, pin_writeFile, intFor_gpio_ne hne]
      rfl
    · intro file buf hparse
      exact writeFile_unparsed _ file hparse
    · intro reg _
      rw [hchip]
    · intro n hn
      rw [gpioGet_gpioAttr, hchip, Device.pin, portPin, if_neg (by omega)]
    · intro n hn
      rw [gpioGet_gpioAttr, hchip, Device.pin, portPin, if_pos (by omega)]

example : gpioGet (gpioAttr 9) (afterWrites [(.gpioAll, "1".toList), (.gpio 9, "0\n".toList)]) =
    "0\n".toList := by decide

/-- 256 is not zero, but switches the pin off. -/
theorem multiple_of_256_reads_zero : ¬ ∀ ws : List Write, BehavesAsBits ws := by
  intro h
  have hread := (h [(.gpio 0, "256".toList)]).read 0
  revert hread
  decide

end Raspberries.PortExpander
