import Raspberries.IrAlarm.GpioPaths
import Raspberries.Lib.BitField

/-!
# `pinMode` replaces one field

The function selects are fields of three bits, ten in a word (`gpfsel`).  `pinMode`
looks the word and the shift up in two tables; for every GPIO it can meet they describe
that layout, and the read-modify-write is the replacement of one field
(`pinMode_eq_put`).  The laws of fields then give `pinMode_field_update`: the field of
the GPIO changes and no other, and two calls for different GPIOs commute.
-/

namespace Raspberries.IrAlarm

open BitField

/-- The words 0 to 5, as the chip has them. -/
def gpfsel : Layout 32 3 where
  perWord := 10
  perWord_pos := by decide
  fits := by decide

theorem fsel_eq_get (gpio : Nat → BitVec 32) (g : Nat) :
    fsel gpio g = (gpfsel.get gpio g).setWidth 32 := by
  apply BitVec.eq_of_getLsbD_eq
  intro b hb
  have hmask : (7 : BitVec 32).getLsbD b = decide (b < 3) := by
    have hall : ∀ i < 32, (7 : BitVec 32).getLsbD i = decide (i < 3) := by decide
    exact hall b hb
  rw [fsel, BitVec.getLsbD_and, hmask, BitVec.getLsbD_ushiftRight, BitVec.getLsbD_setWidth,
    Layout.get, BitVec.getLsbD_extractLsb']
  simp [gpfsel, Layout.shift, Layout.word, hb, Bool.and_comm]

/-- The registers `after` are those `before` with `v` in the field of GPIO `g`. -/
structure OnlyField (g : Nat) (v : BitVec 32) (before after : Nat → BitVec 32) : Prop where
  field : fsel after g = v
  others : ∀ h, h ≠ g → fsel after h = fsel before h
  spare : ∀ n, ∀ b ∈ [30, 31], (after n).getLsbD b = (before n).getLsbD b

theorem onlyField_put (g : Nat) (v : BitVec 3) (gpio : Nat → BitVec 32) :
    OnlyField g (v.setWidth 32) gpio (gpfsel.put g v gpio) where
  field := by rw [fsel_eq_get, gpfsel.get_put_self]
  others h hne := by rw [fsel_eq_get, fsel_eq_get, gpfsel.get_put_ne hne]
  spare n b hb := by
    have hle : 30 ≤ b ∧ b < 32 := by
      rw [List.mem_cons, List.mem_singleton] at hb
      omega
    exact gpfsel.put_spare_bit g v gpio n hle.2 hle.1

/-! ### The tables -/

/-- `pinToGpio[pin]` is a GPIO of the first bank, so it is inside the three tables. -/
theorem byteOf_table_lt (rev : BoardRev) {pin : Nat} (h : pin < 64) :
    byteOf rev.table pin < 32 := by
  have hall : ∀ i < 64, byteOf rev.table i < 32 := by cases rev <;> decide
  exact hall pin h

theorem tables_eq_layout {g : Nat} (h : g < 50) :
    gpioToGPFSEL.getD g 0 = gpfsel.word g ∧ gpioToShift.getD g 0 = gpfsel.shift g := by
  have hall : ∀ i < 50, gpioToGPFSEL.getD i 0 = i / 10 ∧ gpioToShift.getD i 0 = 3 * (i % 10) := by
    decide
  exact hall g h

theorem gpioToPwmALT_lt (g : Nat) : gpioToPwmALT.getD g 0 < 8 := by
  have hall : ∀ alt ∈ gpioToPwmALT, alt < 8 := by decide
  cases hget : gpioToPwmALT[g]? with
  | none => simp [List.getD_eq_getElem?_getD, hget]
  | some alt =>
    rw [List.getD_eq_getElem?_getD, hget]
    exact hall alt (List.mem_of_getElem? hget)

theorem setWidth_alt (g : Nat) :
    (BitVec.ofNat 3 (gpioToPwmALT.getD g 0)).setWidth 32 =
      BitVec.ofNat 32 (gpioToPwmALT.getD g 0) := by
  apply BitVec.eq_of_toNat_eq
  have hsmall := gpioToPwmALT_lt g
  simp only [BitVec.toNat_setWidth, BitVec.toNat_ofNat]
  omega

namespace Rpio

variable {H : Type*}

/-- The function select that a mode means for GPIO `g`, where it means one. -/
def fselCode (g : Nat) : PinMode → Option (BitVec 3)
  | .input => some 0
  | .output => some 1
  | .pwmOutput => if gpioToPwmALT.getD g 0 = 0 then none else some (gpioToPwmALT.getD g 0)

def putFsel (g : Nat) (v : BitVec 3) (s : Rpio H) : Rpio H :=
  { s with gpio := gpfsel.put g v s.gpio }

theorem pwmSetClock_gpio (divisor : Nat) (s : Rpio H) : (pwmSetClock divisor s).gpio = s.gpio :=
  rfl

theorem pwmSetRange_gpio (range : BitVec 32) (s : Rpio H) : (pwmSetRange range s).gpio = s.gpio :=
  rfl

theorem pwmSetMode_gpio (ms : Bool) (s : Rpio H) : (pwmSetMode ms s).gpio = s.gpio := rfl

theorem onBoard_eq_true {pin : Nat} (h : pin < 64) : onBoard pin = true := by
  have hall : ∀ i < 64, onBoard i = true := by decide
  exact hall pin h

section Field

variable {rev : BoardRev} {s : Rpio H} {pin : Nat}

theorem putWord_eq (g : Nat) (v : BitVec 3) (x : BitVec 32) :
    gpfsel.putWord g v x =
      x &&& ~~~(7#32 <<< gpfsel.shift g) ||| v.setWidth 32 <<< gpfsel.shift g := by
  have hmask : mask 32 3 = 7#32 := by decide
  rw [Layout.putWord, hmask]

theorem pinMode_eq_put (hs : s.pinToGpio = rev.table) (hpin : pin < 64) {mode : PinMode}
    {v : BitVec 3} (hcode : fselCode (byteOf s.pinToGpio pin) mode = some v) :
    (pinMode pin mode s).gpio = gpfsel.put (byteOf s.pinToGpio pin) v s.gpio := by
  have hlt : byteOf s.pinToGpio pin < 32 := hs ▸ byteOf_table_lt rev hpin
  obtain ⟨hword, hshift⟩ := @tables_eq_layout (byteOf s.pinToGpio pin) (by omega)
  rw [pinMode, if_pos (onBoard_eq_true hpin)]
  simp only [hword, hshift]
  rw [Layout.put, putWord_eq]
  cases mode with
  | input =>
    cases hcode
    simp [setGpio]
  | output =>
    cases hcode
    rfl
  | pwmOutput =>
    obtain ⟨halt, hv⟩ := Option.ite_none_left_eq_some.mp hcode
    cases hv
    simp only [if_neg halt, pwmSetClock_gpio, pwmSetRange_gpio, pwmSetMode_gpio, setGpio]
    rw [← setWidth_alt]
    rfl

/-- Without PWM the registers of the function selects are all that `pinMode` touches. -/
theorem pinMode_frame {mode : PinMode} (hmode : mode ≠ .pwmOutput) :
    pinMode pin mode s = { s with gpio := (pinMode pin mode s).gpio } := by
  rw [pinMode]
  split
  · cases mode with
    | input => rfl
    | output => rfl
    | pwmOutput => exact absurd rfl hmode
  · rfl

theorem pinMode_eq_putFsel (hs : s.pinToGpio = rev.table) (hpin : pin < 64) {mode : PinMode}
    (hmode : mode ≠ .pwmOutput) {v : BitVec 3}
    (hcode : fselCode (byteOf s.pinToGpio pin) mode = some v) :
    pinMode pin mode s = putFsel (byteOf s.pinToGpio pin) v s := by
  rw [pinMode_frame hmode, pinMode_eq_put hs hpin hcode, putFsel]

theorem pinMode_no_code {mode : PinMode}
    (hcode : fselCode (byteOf s.pinToGpio pin) mode = none) : pinMode pin mode s = s := by
  cases mode with
  | input => cases hcode
  | output => cases hcode
  | pwmOutput =>
    have halt : gpioToPwmALT.getD (byteOf s.pinToGpio pin) 0 = 0 := by
      by_contra hne
      rw [fselCode, if_neg hne] at hcode
      cases hcode
    rw [pinMode]
    simp only [if_pos halt]
    exact ite_self s

theorem pinMode_onlyField (hs : s.pinToGpio = rev.table) (hpin : pin < 64) {mode : PinMode}
    {v : BitVec 3} (hcode : fselCode (byteOf s.pinToGpio pin) mode = some v) :
    OnlyField (byteOf s.pinToGpio pin) (v.setWidth 32) s.gpio (pinMode pin mode s).gpio := by
  rw [pinMode_eq_put hs hpin hcode]
  exact onlyField_put _ v s.gpio

theorem fselCode_of_ne {g : Nat} {mode : PinMode} (hmode : mode ≠ .pwmOutput) :
    ∃ v, fselCode g mode = some v := by
  cases mode with
  | input => exact ⟨0, rfl⟩
  | output => exact ⟨1, rfl⟩
  | pwmOutput => exact absurd rfl hmode

/-- Calls for two GPIOs commute, because the replacements of two fields do. -/
theorem pinMode_comm (hs : s.pinToGpio = rev.table) (hpin : pin < 64) {pin' : Nat}
    (hpin' : pin' < 64) (hne : byteOf s.pinToGpio pin ≠ byteOf s.pinToGpio pin')
    {mode mode' : PinMode} (hmode : mode ≠ .pwmOutput) (hmode' : mode' ≠ .pwmOutput) :
    pinMode pin mode (pinMode pin' mode' s) = pinMode pin' mode' (pinMode pin mode s) := by
  obtain ⟨u, hu⟩ := @fselCode_of_ne (byteOf s.pinToGpio pin) mode hmode
  obtain ⟨v, hv⟩ := @fselCode_of_ne (byteOf s.pinToGpio pin') mode' hmode'
  calc pinMode pin mode (pinMode pin' mode' s)
      = putFsel (byteOf s.pinToGpio pin) u (putFsel (byteOf s.pinToGpio pin') v s) := by
        rw [pinMode_eq_putFsel hs hpin' hmode' hv]
        exact @pinMode_eq_putFsel H rev (putFsel _ v s) pin hs hpin mode hmode u hu
    _ = putFsel (byteOf s.pinToGpio pin') v (putFsel (byteOf s.pinToGpio pin) u s) :=
        congrArg (fun bank => { s with gpio := bank }) (gpfsel.put_comm hne u v s.gpio)
    _ = pinMode pin' mode' (pinMode pin mode s) := by
        rw [pinMode_eq_putFsel hs hpin hmode hu]
        exact (@pinMode_eq_putFsel H rev (putFsel _ u s) pin' hs hpin' mode' hmode' v hv).symm

/-- **`pinMode` is a field update.**  With `g` the GPIO that `pinMode` derives from the
pin, the field of `g` becomes 0, 1 or the ALT code of `g`, and no other field of any
register changes; without PWM on `g` nothing changes at all.  Two calls with `INPUT` or
`OUTPUT` on pins with different GPIOs commute. -/
theorem pinMode_field_update (hs : s.pinToGpio = rev.table) (hpin : pin < 64) :
    let g := byteOf s.pinToGpio pin
    let alt := gpioToPwmALT.getD g 0
    OnlyField g 0 s.gpio (pinMode pin .input s).gpio ∧
      OnlyField g 1 s.gpio (pinMode pin .output s).gpio ∧
      (alt ≠ 0 → OnlyField g (BitVec.ofNat 32 alt) s.gpio (pinMode pin .pwmOutput s).gpio) ∧
      (alt = 0 → pinMode pin .pwmOutput s = s) ∧
      ∀ pin' < 64, byteOf s.pinToGpio pin' ≠ g →
        ∀ mode ∈ [PinMode.input, .output], ∀ mode' ∈ [PinMode.input, .output],
          pinMode pin mode (pinMode pin' mode' s) = pinMode pin' mode' (pinMode pin mode s) := by
  intro g alt
  refine ⟨?_, ?_, ?_, ?_, ?_⟩
  · exact @pinMode_onlyField H rev s pin hs hpin .input 0 rfl
  · exact @pinMode_onlyField H rev s pin hs hpin .output 1 rfl
  · intro halt
    have hwide : (BitVec.ofNat 3 alt).setWidth 32 = BitVec.ofNat 32 alt :=
      setWidth_alt g
    rw [← hwide]
    exact pinMode_onlyField hs hpin (if_neg halt)
  · intro halt
    exact pinMode_no_code (if_pos halt)
  · intro pin' hpin' hne mode hmode mode' hmode'
    have hplain : ∀ m ∈ [PinMode.input, .output], m ≠ .pwmOutput := by decide
    exact pinMode_comm hs hpin hpin' hne.symm (hplain mode hmode) (hplain mode' hmode')

end Field

/-- The IR LED and the speaker after `__init_gpio` on a board of revision 1: byte 4 of the
table is GPIO 18. -/
theorem pinMode_field_update_irled :
    byteOf (initGpio ⟨true, .r1, true⟩ (blank : Rpio Unit)).2.pinToGpio 4 = 18 ∧
      OnlyField 18 2 (fun _ => 0)
        (pinMode 4 .pwmOutput (initGpio ⟨true, .r1, true⟩ (blank : Rpio Unit)).2).gpio :=
  ⟨by decide, (@pinMode_field_update Unit .r1 (initGpio ⟨true, .r1, true⟩ blank).2 4 rfl
    (by decide)).2.2.1 (by decide)⟩

end Rpio

end Raspberries.IrAlarm
