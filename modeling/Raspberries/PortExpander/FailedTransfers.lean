import Raspberries.PortExpander.Writers

/-!
# Transfers that fail

`portex_write_cached` changes the cached byte first and then drops what `mcp23s17_write`
returns, so a transfer that fails is not noticed: the store handler still returns `count`
(`failures_noticed_iff`).  The cache then is ahead of the chip, unless the write has
changed nothing in that byte, until a later transfer to the same register succeeds.
-/

namespace Raspberries.PortExpander

open Transition

/-- A file, the text written to it, and what `spi_write` returns for the first, the
second, ... transfer of the write. -/
structure SpiWrite where
  file : File
  buf : List Char
  spi : Nat → Int

def SpiWrite.run (w : SpiWrite) (d : Device) : Nat × Device := w.file.store w.spi w.buf d

def afterSpiWrites (ws : List SpiWrite) : Device :=
  ws.foldl (fun d w => (w.run d).2) Device.initial

/-- The write makes this call, and its transfer fails. -/
def SpiWrite.Fails (w : SpiWrite) (c : Call) : Prop :=
  ∃ k, (w.file.calls w.buf)[k]? = some c ∧ w.spi k < 0

/-- The call changes nothing in the cached byte. -/
def Call.Keeps (c : Call) (d : Device) : Prop :=
  changeBits c.pinMask c.value (d.cache c.reg) = d.cache c.reg

/-- Cache and chip have the same byte for both ports. -/
def Device.Agrees (d : Device) : Prop :=
  ∀ reg, reg = mcp23s08RegGpio ∨ reg = mcp23s17RegGpio → d.cache reg = d.chip reg

/-- After each write cache and chip agree. -/
def AgreesThroughout (ws : List SpiWrite) : Prop :=
  EveryStep (fun ws' w => (w.run (afterSpiWrites ws')).2.Agrees) ws

/-- They do, and a write one of whose transfers fails does not return `count`. -/
structure FailuresNoticed (ws : List SpiWrite) : Prop where
  agrees : AgreesThroughout ws
  reported : EveryStep (fun ws' w => ∀ c, w.Fails c →
    (w.run (afterSpiWrites ws')).1 ≠ w.buf.length) ws

/-- A call whose transfer fails changes nothing. -/
def SpiWrite.LosesNothing (ws : List SpiWrite) (w : SpiWrite) : Prop :=
  ∀ c, w.Fails c → c.Keeps (afterSpiWrites ws)

/-! ### One call -/

section OneCall

variable (ret : Int) (c : Call) (d : Device)

def Call.write : Device := portexWriteCached ret c.reg c.pinMask c.value d

/-- The register agrees behind the call if the transfer succeeds or the chip has the byte. -/
theorem agree_write_self : (c.write ret d).cache c.reg = (c.write ret d).chip c.reg ↔
    0 ≤ ret ∨ changeBits c.pinMask c.value (d.cache c.reg) = d.chip c.reg := by
  rw [Call.write, portexWriteCached_eq ret c.reg_lt]
  by_cases hret : 0 ≤ ret
  · simp [hret]
  · simp [hret]

theorem write_other {reg : Nat} (hne : reg ≠ c.reg) :
    (c.write ret d).cache reg = d.cache reg ∧ (c.write ret d).chip reg = d.chip reg := by
  rw [Call.write, portexWriteCached_eq ret c.reg_lt]
  refine ⟨Function.update_of_ne hne _ _, ?_⟩
  show (if 0 ≤ ret then _ else d.chip) reg = d.chip reg
  split
  · exact Function.update_of_ne hne _ _
  · rfl

end OneCall

/-! ### One write -/

theorem run_fst (w : SpiWrite) (d : Device) : (w.run d).1 = w.buf.length := by
  obtain ⟨file, buf, spi⟩ := w
  cases hparse : sscanfD buf with
  | none =>
    cases file with
    | gpio n => simp only [SpiWrite.run, File.store, gpioSet, hparse]
    | gpioAll => simp only [SpiWrite.run, File.store, gpioAllSet, hparse]
  | some value =>
    cases file with
    | gpio n => simp only [SpiWrite.run, File.store, gpioSet, hparse]
    | gpioAll => simp only [SpiWrite.run, File.store, gpioAllSet, hparse]

def gpioCall (n : Fin 16) (value : BitVec 32) : Call :=
  ⟨(portPin n).1, BitVec.ofNat 8 (1 <<< (portPin n).2), value.setWidth 8, portPin_fst_lt n⟩

theorem mcp23s08RegGpio_lt : mcp23s08RegGpio < 256 := by decide

theorem mcp23s17RegGpio_lt : mcp23s17RegGpio < 256 := by decide

def portACall (value : BitVec 32) : Call :=
  ⟨mcp23s08RegGpio, 0xFF#8, value.setWidth 8, mcp23s08RegGpio_lt⟩

def portBCall (value : BitVec 32) : Call :=
  ⟨mcp23s17RegGpio, 0xFF#8, value.setWidth 8, mcp23s17RegGpio_lt⟩

section OneWrite

variable {d : Device} {buf : List Char} {value : BitVec 32} (spi : Nat → Int)

theorem fails_gpio_iff (n : Fin 16) (hparse : sscanfD buf = some value) (c : Call) :
    (SpiWrite.mk (.gpio n) buf spi).Fails c ↔ gpioCall n value = c ∧ spi 0 < 0 := by
  have hcalls : File.calls (.gpio n) buf = [gpioCall n value] := by
    simp only [File.calls, hparse]
    rfl
  rw [SpiWrite.Fails, hcalls]
  refine ⟨?_, ?_⟩
  · intro h
    obtain ⟨k, hk, hfail⟩ := h
    cases k with
    | zero => exact ⟨Option.some.inj hk, hfail⟩
    | succ k => cases hk
  · intro h
    exact ⟨0, congrArg some h.1, h.2⟩

theorem fails_gpioAll_iff (hparse : sscanfD buf = some value) (c : Call) :
    (SpiWrite.mk .gpioAll buf spi).Fails c ↔
      (portACall value = c ∧ spi 0 < 0) ∨ (portBCall value = c ∧ spi 1 < 0) := by
  have hcalls : File.calls .gpioAll buf = [portACall value, portBCall value] := by
    simp only [File.calls, hparse]
    rfl
  rw [SpiWrite.Fails, hcalls]
  refine ⟨?_, ?_⟩
  · intro h
    obtain ⟨k, hk, hfail⟩ := h
    cases k with
    | zero => exact Or.inl ⟨Option.some.inj hk, hfail⟩
    | succ k =>
      cases k with
      | zero => exact Or.inr ⟨Option.some.inj hk, hfail⟩
      | succ k => cases hk
  · intro h
    cases h with
    | inl h => exact ⟨0, congrArg some h.1, h.2⟩
    | inr h => exact ⟨1, congrArg some h.1, h.2⟩

/-- A call that fails keeps its register in agreement only by changing nothing. -/
theorem agree_write_iff (ret : Int) {c : Call} (h : d.cache c.reg = d.chip c.reg) :
    (c.write ret d).cache c.reg = (c.write ret d).chip c.reg ↔ (ret < 0 → c.Keeps d) := by
  rw [agree_write_self, ← h, ← Call.Keeps]
  refine ⟨?_, ?_⟩
  · intro hor hneg
    cases hor with
    | inl hret => omega
    | inr hkeep => exact hkeep
  · intro himp
    by_cases hret : 0 ≤ ret
    · exact Or.inl hret
    · exact Or.inr (himp (by omega))

theorem agrees_run_gpio (h : d.Agrees) (n : Fin 16) (hparse : sscanfD buf = some value) :
    ((SpiWrite.mk (.gpio n) buf spi).run d).2.Agrees ↔
      ∀ c, (SpiWrite.mk (.gpio n) buf spi).Fails c → c.Keeps d := by
  have hrun : ((SpiWrite.mk (.gpio n) buf spi).run d).2 = (gpioCall n value).write (spi 0) d := by
    simp only [SpiWrite.run, File.store, gpioSet, hparse, getGpio_gpioAttr]
    rfl
  have hself := @agree_write_iff d (spi 0) (gpioCall n value) (h _ (portPin_fst n))
  simp only [hrun, fails_gpio_iff spi n hparse]
  refine ⟨?_, ?_⟩
  · intro hagree c hc
    rw [← hc.1]
    exact hself.mp (hagree _ (portPin_fst n)) hc.2
  · intro hkeep reg hreg
    by_cases heq : reg = (gpioCall n value).reg
    · rw [heq]
      exact hself.mpr fun hneg => hkeep _ ⟨rfl, hneg⟩
    · have hother := write_other (spi 0) (gpioCall n value) d heq
      rw [hother.1, hother.2]
      exact h reg hreg

/-- The two calls for `gpio_all`, of which each is the only one for its register. -/
theorem agrees_run_gpioAll (h : d.Agrees) (hparse : sscanfD buf = some value) :
    ((SpiWrite.mk .gpioAll buf spi).run d).2.Agrees ↔
      ∀ c, (SpiWrite.mk .gpioAll buf spi).Fails c → c.Keeps d := by
  have hrun : ((SpiWrite.mk .gpioAll buf spi).run d).2 =
      (portBCall value).write (spi 1) ((portACall value).write (spi 0) d) := by
    simp only [SpiWrite.run, File.store, gpioAllSet, hparse]
    rfl
  simp only [hrun, fails_gpioAll_iff spi hparse]
  have hne : mcp23s17RegGpio ≠ mcp23s08RegGpio := by decide
  have hbehindA := write_other (spi 0) (portACall value) d hne
  have hbehindB := write_other (spi 1) (portBCall value) ((portACall value).write (spi 0) d)
    hne.symm
  have hA := @agree_write_iff d (spi 0) (portACall value) (h _ (Or.inl rfl))
  have hB := @agree_write_iff ((portACall value).write (spi 0) d) (spi 1) (portBCall value)
    (hbehindA.1.trans ((h _ (Or.inr rfl)).trans hbehindA.2.symm))
  have hkeepB : (portBCall value).Keeps ((portACall value).write (spi 0) d) ↔
      (portBCall value).Keeps d := by
    have hcache : ((portACall value).write (spi 0) d).cache (portBCall value).reg =
        d.cache (portBCall value).reg := hbehindA.1
    rw [Call.Keeps, Call.Keeps, hcache]
  rw [hkeepB] at hB
  refine ⟨?_, ?_⟩
  · intro hagree c hc
    cases hc with
    | inl hc =>
      rw [← hc.1]
      exact hA.mp (hbehindB.1.symm.trans ((hagree _ (Or.inl rfl)).trans hbehindB.2)) hc.2
    | inr hc =>
      rw [← hc.1]
      exact hB.mp (hagree _ (Or.inr rfl)) hc.2
  · intro hkeep reg hreg
    cases hreg with
    | inl hreg =>
      rw [hreg, hbehindB.1, hbehindB.2]
      exact hA.mpr fun hneg => hkeep _ (Or.inl ⟨rfl, hneg⟩)
    | inr hreg =>
      rw [hreg]
      exact hB.mpr fun hneg => hkeep _ (Or.inr ⟨rfl, hneg⟩)

/-- **One write.**  From a device in agreement it leads to one exactly if every call whose
transfer fails changes nothing. -/
theorem agrees_run_iff (h : d.Agrees) (w : SpiWrite) :
    (w.run d).2.Agrees ↔ ∀ c, w.Fails c → c.Keeps d := by
  obtain ⟨file, buf, spi⟩ := w
  cases hparse : sscanfD buf with
  | none =>
    have hrun : ((SpiWrite.mk file buf spi).run d).2 = d := by
      cases file with
      | gpio n => simp only [SpiWrite.run, File.store, gpioSet, hparse]
      | gpioAll => simp only [SpiWrite.run, File.store, gpioAllSet, hparse]
    rw [hrun]
    refine iff_of_true h ?_
    intro c hc
    obtain ⟨k, hk, -⟩ := hc
    simp [File.calls, hparse] at hk
  | some value =>
    cases file with
    | gpio n => exact agrees_run_gpio spi h n hparse
    | gpioAll => exact agrees_run_gpioAll spi h hparse

end OneWrite

/-! ### Sequences of writes -/

/-- **When cache and chip agree after each write.**  Exactly if whatever is lost would have
changed nothing. -/
theorem agreesThroughout_iff (ws : List SpiWrite) :
    AgreesThroughout ws ↔ EveryStep SpiWrite.LosesNothing ws := by
  apply everyStep_congr
  intro ws' w hbefore
  apply agrees_run_iff
  refine hbefore.invariant (fun _ _ => rfl) ?_
  intro ws'' w' hagrees hlast
  exact (agrees_run_iff hagrees w').mpr hlast

/-- **When failures are noticed.**  A failure never is, so exactly in the sequences in which
no transfer fails.  Cache and chip alone agree after each write, from the reset of the chip
on, exactly if the calls whose transfers fail change nothing. -/
theorem failures_noticed_iff (ws : List SpiWrite) :
    (FailuresNoticed ws ↔ ∀ w ∈ ws, ∀ c, ¬ w.Fails c) ∧
      (AgreesThroughout ws ↔ EveryStep SpiWrite.LosesNothing ws) := by
  refine ⟨?_, agreesThroughout_iff ws⟩
  refine ⟨?_, ?_⟩
  · intro h w hw c hfail
    obtain ⟨ws', hreported⟩ := h.reported.mem hw
    exact hreported c hfail (run_fst w _)
  · intro h
    refine ⟨?_, ?_⟩
    · apply (agreesThroughout_iff ws).mpr
      exact .of_mem fun ws' w hw c hfail => absurd hfail (h w hw c)
    · exact .of_mem fun ws' w hw c hfail => absurd hfail (h w hw c)

/-- `gpio0` is switched on, and the transfer fails: the cached bit is set, the one of the
chip is not, and the handler has returned `count`. -/
theorem failed_transfer_not_noticed : ¬ ∀ ws : List SpiWrite, FailuresNoticed ws := by
  intro h
  have hagree := (h [⟨.gpio 0, "1".toList, fun _ => -5⟩]).agrees [] _ List.prefix_rfl
    mcp23s08RegGpio (Or.inl rfl)
  revert hagree
  decide

end Raspberries.PortExpander
