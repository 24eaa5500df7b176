import Raspberries.IrAlarm.IrPio

/-!
# Three ways to a GPIO

A pin number is turned into a GPIO in three places.  `pinMode` looks it up in the table
of the board, byte by byte; `digitalWrite` and `__isr_init` do not look it up at all.
`AgreesOn g pin` says that all three work on the GPIO `g`; `fsel` and `driveLine` are
the registers as the chip has them.

No pin of either table is its own GPIO, so no pin agrees (`gpio_paths_disagree`).
-/

namespace Raspberries.IrAlarm

/-- The function select of GPIO `g`: three bits, ten to a word. -/
def fsel (gpio : Nat → BitVec 32) (g : Nat) : BitVec 32 := gpio (g / 10) >>> (3 * (g % 10)) &&& 7

/-- The registers after GPIO `g` is driven high (`GPSET`) or low (`GPCLR`). -/
def driveLine (g : Nat) (high : Bool) (gpio : Nat → BitVec 32) : Nat → BitVec 32 :=
  Function.update gpio ((if high then 7 else 10) + g / 32) (1#32 <<< (g % 32))

namespace Rpio

variable {H : Type*}

/-- `pinMode`, `digitalWrite` and `irpio_isr` of `pin` all work on GPIO `g`. -/
structure AgreesOn (s : Rpio H) (g pin : Nat) : Prop where
  pinMode : ∀ mode ∈ [PinMode.input, .output],
    fsel (pinMode pin mode s).gpio g = (if mode = .output then 1 else 0) ∧
      ∀ h < 60, h ≠ g → fsel (Rpio.pinMode pin mode s).gpio h = fsel s.gpio h
  digitalWrite : ∀ value, (digitalWrite pin value s).gpio = driveLine g (value ≠ 0) s.gpio
  isr : ∀ function, s.sysFds pin = none →
    (irpioIsr pin function true s).2.sysFds pin = some ⟨g⟩

/-- What `pinMode` reads for a pin: one byte in four is an entry, and of another pin. -/
theorem byteOf_table (rev : BoardRev) {pin : Nat} (h : pin < 64) :
    (byteOf rev.table pin : Int) = if pin % 4 = 0 then rev.table.getD (pin / 4) 0 else 0 := by
  have hall : ∀ i < 64,
      (byteOf rev.table i : Int) = if i % 4 = 0 then rev.table.getD (i / 4) 0 else 0 := by
    cases rev <;> decide
  exact hall pin h

theorem digitalWrite_line {pin : Nat} (h : pin < 64) (value : Int) (s : Rpio H) :
    (digitalWrite pin value s).gpio = driveLine pin (value ≠ 0) s.gpio := by
  have hall : ∀ i < 64, onBoard i = true ∧ gpioToGPCLR.getD i 0 = 10 + i / 32 ∧
      gpioToGPSET.getD i 0 = 7 + i / 32 ∧ i &&& 31 = i % 32 := by decide
  obtain ⟨hboard, hclr, hset, hmod⟩ := hall pin h
  rw [digitalWrite, if_pos hboard, hclr, hset, hmod]
  by_cases hv : value = 0 <;> simp [hv, setGpio, driveLine]

/-- `irpio_isr` opens the file of the GPIO whose number is the pin itself. -/
theorem irpioIsr_file {pin : Nat} {s : Rpio H} (h : s.sysFds pin = none) (function : H) :
    (irpioIsr pin function true s).2.sysFds pin = some ⟨pin⟩ := by
  simp [irpioIsr, isrInit, h]

/-- A pin with a GPIO is one of the first 32, as is its GPIO, and they differ. -/
theorem gpio_ne_pin {rev : BoardRev} {pin g : Nat} (h : rev.gpio pin = some g) :
    pin < 32 ∧ g < 32 ∧ g ≠ pin := by
  have hlt : pin < 64 := by
    by_contra hge
    have hlen : rev.table.length = 64 := by cases rev <;> decide
    rw [BoardRev.gpio, List.getElem?_eq_none (by omega)] at h
    cases h
  have hall : ∀ i < 64, ∀ g ∈ rev.gpio i, i < 32 ∧ g < 32 ∧ g ≠ i := by
    cases rev <;> decide
  exact hall pin hlt g h

theorem driveLine_inj {g pin : Nat} {high : Bool} {gpio : Nat → BitVec 32} (hg : g < 32)
    (hpin : pin < 32) (h : driveLine pin high gpio = driveLine g high gpio) : pin = g := by
  have hword := congrFun h (if high then 7 else 10)
  have hshift : ∀ a < 32, ∀ b < 32, 1#32 <<< a = 1#32 <<< b → a = b := by decide
  simp only [driveLine, Nat.div_eq_of_lt hg, Nat.div_eq_of_lt hpin, Nat.mod_eq_of_lt hg,
    Nat.mod_eq_of_lt hpin, Nat.add_zero, Function.update_self] at hword
  exact hshift pin hpin g hg hword

/-- **No pin agrees.**  Whatever the registers hold and whichever calls came before, for
no pin with a GPIO do the three paths work on that GPIO. -/
theorem gpio_paths_disagree {rev : BoardRev} {pin g : Nat} (h : rev.gpio pin = some g)
    (s : Rpio H) : ¬ s.AgreesOn g pin := by
  intro hagrees
  obtain ⟨hpin, hg, hne⟩ := gpio_ne_pin h
  have hwrite := hagrees.digitalWrite 0
  rw [digitalWrite_line (by omega)] at hwrite
  exact hne (driveLine_inj hg hpin hwrite).symm

/-- The IR LED, on a board of revision 1. -/
theorem gpio_paths_disagree_irled :
    BoardRev.r1.gpio 1 = some 18 ∧ ¬ (blank : Rpio Unit).AgreesOn 18 1 :=
  ⟨by decide, @gpio_paths_disagree Unit .r1 1 18 (by decide) blank⟩

/-- The speaker after `irpio_init` on a board of revision 1: its GPIO is 21, and
`digitalWrite` drives GPIO 2. -/
theorem speaker_line_differs :
    ¬ ∀ (rev : BoardRev) (pin g : Nat) (s : Rpio Unit), rev.gpio pin = some g →
      s.AgreesOn g pin := by
  intro h
  have hagrees := h .r1 2 21 (irpioInit rpioPinout ⟨true, .r1, true⟩ blank) (by decide)
  have hword := congrFun (hagrees.digitalWrite 0) 10
  exact absurd hword (by decide)

end Rpio

end Raspberries.IrAlarm
