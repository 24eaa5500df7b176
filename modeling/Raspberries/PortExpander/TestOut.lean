import Raspberries.PortExpander.GpioBits

/-!
# The test script

`test_out.py` blinks with twelve of the sixteen pins until someone presses a key.  It writes
through files that have a buffer, and every write is an operation of its own in front of
the flush that takes it to the driver, so that the key can come between the two.

At the end of every pass all pins are off (`passes_dark`).  What the key leaves behind is
another matter: the handler closes the files of port A twice and those of port B never, so
that the interpreter writes what is in their buffers behind the last zero (`exit_dark_iff`).

All this is with SPI transfers that succeed; the driver does not notice one that fails.
-/

namespace Raspberries.PortExpander.TestOut

/-! ### The script -/

def gpioCount : Nat := 6

def gpioPerPort : Nat := 8

/-- An entry of `GPIOA_FDS` or `GPIOB_FDS`, or `fd`. -/
inductive Fd
  | gpioA (index : Fin gpioCount)
  | gpioB (index : Fin gpioCount)
  | fd
  deriving DecidableEq, Repr

def Fd.file : Fd → File
  | .gpioA index => .gpio (index.castLE (by decide))
  | .gpioB index => .gpio ((index.addNat gpioPerPort).castLE (by decide))
  | .fd => .gpioAll

inductive Op
  | write (f : Fd) (text : List Char)
  | flush (f : Fd)
  deriving DecidableEq, Repr

/-- What is in the buffers, and what has been written to the files of the driver. -/
structure Script where
  buffer : Fd → List Char
  written : List Write

def Script.start : Script := ⟨fun _ => [], []⟩

/-- An empty buffer is not written. -/
def Script.exec (s : Script) : Op → Script
  | .write f text => { s with buffer := Function.update s.buffer f (s.buffer f ++ text) }
  | .flush f =>
    if s.buffer f = [] then s
    else ⟨Function.update s.buffer f [], s.written ++ [(f.file, s.buffer f)]⟩

def Script.run (s : Script) (ops : List Op) : Script := ops.foldl Script.exec s

/-- `f.write(str(value))` and `f.flush()`. -/
def emit (f : Fd) (value : Nat) : List Op := [.write f (Nat.toDigits 10 value), .flush f]

def ledout (index : Fin gpioCount) (value : Nat) : List Op :=
  emit (.gpioA index) value ++ emit (.gpioB index) value

def ledoutp (index : Fin gpioCount) (value : Nat) (porta : Bool) : List Op :=
  if porta then emit (.gpioA index) value else emit (.gpioB index) value

/-- The parameter is not used. -/
def ledall (_value : Nat) : List Op := emit .fd 0

def blinkTest0 : List Op :=
  (List.finRange gpioCount).flatMap fun i => ledout i 1 ++ ledall 0

def blinkTest1 : List Op :=
  blinkTest0 ++ (List.finRange gpioCount).reverse.flatMap fun i => ledout i 1 ++ ledall 0

def blinkTest2 : List Op :=
  ((List.finRange gpioCount).flatMap fun i => ledoutp i 1 true ++ ledoutp i 1 false) ++
    (List.finRange gpioCount).flatMap fun i => ledoutp i 0 true ++ ledoutp i 0 false

def blinkTest3 (extra : Bool) : List Op :=
  ((List.finRange gpioCount).flatMap fun i =>
      ledoutp i 1 true ++ if extra = false then ledoutp i 0 true else []) ++
    (List.finRange gpioCount).flatMap fun i =>
      ledoutp i 1 false ++ if extra = false then ledoutp i 0 false else []

abbrev Pick := Fin gpioCount × Bool

/-- One round for every pick; the script asks for 50. -/
def blinkTest4 (picks : List Pick) : List Op :=
  picks.flatMap fun p => ledoutp p.1 1 p.2 ++ ledoutp p.1 0 p.2

def selftest : List Op := emit .fd 1 ++ emit .fd 0

/-- The body of `while True`; the last loop runs five times. -/
def pass (picks : Fin 5 → List Pick) : List Op :=
  (List.replicate 3 blinkTest0).flatten ++
  (List.replicate 3 blinkTest1).flatten ++
  (List.replicate 2 blinkTest2).flatten ++
  (List.replicate 5 (blinkTest2 ++ blinkTest2)).flatten ++
  (List.replicate 5 (blinkTest3 true ++ blinkTest3 false)).flatten ++
  (List.replicate 10 (blinkTest3 false)).flatten ++
  (List.finRange 5).flatMap fun i => blinkTest4 (picks i)

abbrev Passes := List (Fin 5 → List Pick)

def loop (passes : Passes) : List Op := passes.flatMap pass

/-- A file is closed with a flush, and closing it again does nothing. -/
def gpioFree : List Op :=
  (List.finRange gpioCount).flatMap fun i => [.flush (.gpioA i), .flush (.gpioA i)]

def onInterrupt : List Op := gpioFree ++ emit .fd 0 ++ [.flush .fd]

/-- The interpreter closes what is still open. -/
def atExit : List Op := (List.finRange gpioCount).map fun i => .flush (.gpioB i)

/-- The key comes when `k` operations of the loop are made. -/
def interrupted (passes : Passes) (k : Nat) : Script :=
  Script.start.run (selftest ++ (loop passes).take k ++ onInterrupt ++ atExit)

/-- The device after the script, where `ws` has been written to the files before. -/
def Script.device (s : Script) (ws : List Write) : Device := afterWrites (ws ++ s.written)

def Dark (d : Device) : Prop := d.chip mcp23s08RegGpio = 0#8 ∧ d.chip mcp23s17RegGpio = 0#8

/-! ### Complete writes -/

abbrev Command := Fd × Bool

def Command.ops (c : Command) : List Op := emit c.1 c.2.toNat

def Command.write (c : Command) : Write := (c.1.file, Nat.toDigits 10 c.2.toNat)

def commands (ops : List Op) : List Command :=
  ops.filterMap fun
    | .write f text => some (f, decide (text = ['1']))
    | .flush _ => none

def Script.Quiet (s : Script) : Prop := ∀ f, s.buffer f = []

theorem digits_ne_nil (on : Bool) : Nat.toDigits 10 on.toNat ≠ [] := by
  cases on <;> decide

theorem sscanfD_digits (on : Bool) :
    (sscanfD (Nat.toDigits 10 on.toNat)).map taken = some on := by
  cases on <;> decide

section Quiet

variable {s : Script}

theorem run_append (s : Script) (ops ops' : List Op) :
    s.run (ops ++ ops') = (s.run ops).run ops' := List.foldl_append

/-- Text and a flush behind it are one write. -/
theorem run_command (h : s.Quiet) (c : Command) :
    s.run c.ops = ⟨s.buffer, s.written ++ [c.write]⟩ := by
  have hbuffer : Function.update (Function.update s.buffer c.1 (Nat.toDigits 10 c.2.toNat))
      c.1 [] = s.buffer := by
    rw [Function.update_idem]
    exact (Function.update_eq_self_iff (a := c.1) (f := s.buffer)).mpr (h c.1).symm
  have hwrite : s.exec (.write c.1 (Nat.toDigits 10 c.2.toNat)) =
      ⟨Function.update s.buffer c.1 (Nat.toDigits 10 c.2.toNat), s.written⟩ := by
    rw [Script.exec, h c.1, List.nil_append]
  rw [Command.ops, emit, Script.run, List.foldl_cons, hwrite, List.foldl_cons, List.foldl_nil,
    Script.exec]
  simp only [Function.update_self, digits_ne_nil, if_false, hbuffer]
  rfl

theorem run_commands (cs : List Command) (h : s.Quiet) :
    s.run (cs.flatMap Command.ops) = ⟨s.buffer, s.written ++ cs.map Command.write⟩ := by
  induction cs generalizing s with
  | nil => simp [Script.run]
  | cons c cs ih =>
    have hquiet : (s.run c.ops).Quiet := by
      rw [run_command h]
      exact h
    rw [List.flatMap_cons, run_append, ih hquiet, run_command h]
    simp

end Quiet

/-! ### Pins -/

def Command.onPin (n : Fin 16) (on : Bool) (c : Command) : Bool :=
  if c.1.file.Sets n then c.2 else on

theorem pin_command (n : Fin 16) (d : Device) (c : Command) :
    (writeFile d c.write).pin n = c.onPin n (d.pin n) := by
  rw [pin_writeFile, intFor, Command.write, Command.onPin]
  by_cases hsets : c.1.file.Sets n
  · rw [if_pos hsets, if_pos hsets, sscanfD_digits]
    rfl
  · rw [if_neg hsets, if_neg hsets]
    rfl

theorem pin_commands (n : Fin 16) (cs : List Command) (ws : List Write) :
    (afterWrites (ws ++ cs.map Command.write)).pin n =
      cs.foldl (fun on c => c.onPin n on) ((afterWrites ws).pin n) := by
  induction cs generalizing ws with
  | nil => rw [List.map_nil, List.append_nil, List.foldl_nil]
  | cons c cs ih =>
    have hsplit : ws ++ (c :: cs).map Command.write =
        (ws ++ [c.write]) ++ cs.map Command.write := by simp
    rw [hsplit, ih, afterWrites_concat, pin_command, List.foldl_cons]

/-- The chip is dark if all pins are low. -/
theorem dark_iff (ws : List Write) :
    Dark (afterWrites ws) ↔ ∀ n, (afterWrites ws).pin n = false := by
  rw [Dark, chip_afterWrites]
  refine ⟨?_, ?_⟩
  · intro h n
    rw [Device.pin]
    rcases portPin_fst n with hport | hport
    · rw [hport, h.1]
      exact BitVec.getLsbD_zero
    · rw [hport, h.2]
      exact BitVec.getLsbD_zero
  · intro h
    refine ⟨?_, ?_⟩
    · apply BitVec.eq_of_getLsbD_eq
      intro i hi
      have hpin := h ⟨i, by omega⟩
      rw [Device.pin, portPin, if_neg (by simp only; omega)] at hpin
      rw [BitVec.getLsbD_zero]
      exact hpin
    · apply BitVec.eq_of_getLsbD_eq
      intro i hi
      have hpin := h ⟨i + 8, by omega⟩
      rw [Device.pin, portPin, if_pos (by simp only; omega)] at hpin
      rw [BitVec.getLsbD_zero]
      simpa using hpin

/-! ### Passes -/

/-- Complete writes behind which dark pins are dark again; `gpio_all` is only given zeros. -/
def Blinks (ops : List Op) : Prop :=
  ∃ cs : List Command, ops = cs.flatMap Command.ops ∧
    (∀ n, cs.foldl (fun on c => c.onPin n on) false = false) ∧ ∀ c ∈ cs, c.1 = .fd → c.2 = false

theorem Blinks.nil : Blinks [] := ⟨[], rfl, fun _ => rfl, by simp⟩

theorem Blinks.append {ops ops' : List Op} (h : Blinks ops) (h' : Blinks ops') :
    Blinks (ops ++ ops') := by
  obtain ⟨cs, hops, hpins, hzero⟩ := h
  obtain ⟨cs', hops', hpins', hzero'⟩ := h'
  refine ⟨cs ++ cs', ?_, ?_, ?_⟩
  · rw [hops, hops', List.flatMap_append]
  · intro n
    rw [List.foldl_append, hpins n, hpins' n]
  · intro c hc
    cases List.mem_append.mp hc with
    | inl hc => exact hzero c hc
    | inr hc => exact hzero' c hc

theorem Blinks.flatten {blocks : List (List Op)} (h : ∀ ops ∈ blocks, Blinks ops) :
    Blinks blocks.flatten := by
  induction blocks with
  | nil => exact Blinks.nil
  | cons ops blocks ih =>
    rw [List.flatten_cons]
    refine (h ops List.mem_cons_self).append (ih ?_)
    intro ops' hmem
    exact h ops' (List.mem_cons_of_mem ops hmem)

theorem Blinks.replicate {ops : List Op} (h : Blinks ops) (k : Nat) :
    Blinks (List.replicate k ops).flatten := by
  apply Blinks.flatten
  intro ops' hmem
  rw [List.eq_of_mem_replicate hmem]
  exact h

theorem Blinks.flatMap {α : Type} (xs : List α) {f : α → List Op} (h : ∀ x, Blinks (f x)) :
    Blinks (xs.flatMap f) := by
  rw [List.flatMap_def]
  apply Blinks.flatten
  intro ops hmem
  obtain ⟨x, -, rfl⟩ := List.mem_map.mp hmem
  exact h x

theorem blinks_blinkTest0 : Blinks blinkTest0 :=
  ⟨commands blinkTest0, by decide, by decide, by decide⟩

theorem blinks_blinkTest1 : Blinks blinkTest1 :=
  ⟨commands blinkTest1, by decide, by decide, by decide⟩

theorem blinks_blinkTest2 : Blinks blinkTest2 :=
  ⟨commands blinkTest2, by decide, by decide, by decide⟩

theorem blinks_blinkTest3 : Blinks (blinkTest3 false) :=
  ⟨commands (blinkTest3 false), by decide, by decide, by decide⟩

/-- With `extra` the twelve pins stay on, for the round behind it to clear. -/
theorem blinks_blinkTest3_extra : Blinks (blinkTest3 true ++ blinkTest3 false) :=
  ⟨commands (blinkTest3 true ++ blinkTest3 false), by decide, by decide, by decide⟩

theorem blinks_emit (f : Fd) (hpin : f ≠ .fd) : Blinks (emit f 1 ++ emit f 0) := by
  refine ⟨[(f, true), (f, false)], rfl, ?_, ?_⟩
  · intro n
    simp only [List.foldl_cons, List.foldl_nil, Command.onPin]
    split
    next => rfl
    next => rfl
  · intro c hc hfd
    simp only [List.mem_cons, List.not_mem_nil, or_false] at hc
    rcases hc with rfl | rfl
    · exact absurd hfd hpin
    · rfl

theorem blinks_blinkTest4 (picks : List Pick) : Blinks (blinkTest4 picks) := by
  apply Blinks.flatMap
  intro p
  obtain ⟨index, porta⟩ := p
  cases porta with
  | true => exact blinks_emit (.gpioA index) (by simp)
  | false => exact blinks_emit (.gpioB index) (by simp)

theorem blinks_pass (picks : Fin 5 → List Pick) : Blinks (pass picks) := by
  have hfour : Blinks ((List.finRange 5).flatMap fun i => blinkTest4 (picks i)) :=
    Blinks.flatMap _ fun i => blinks_blinkTest4 (picks i)
  exact ((((((blinks_blinkTest0.replicate 3).append (blinks_blinkTest1.replicate 3)).append
    (blinks_blinkTest2.replicate 2)).append
    ((blinks_blinkTest2.append blinks_blinkTest2).replicate 5)).append
    (blinks_blinkTest3_extra.replicate 5)).append (blinks_blinkTest3.replicate 10)).append hfour

theorem blinks_loop (passes : Passes) : Blinks (loop passes) :=
  Blinks.flatMap passes blinks_pass

def tested : List Command := [(.fd, true), (.fd, false)]

theorem selftest_eq : selftest = tested.flatMap Command.ops := rfl

theorem pin_tested (n : Fin 16) (cs : List Command) (ws : List Write) :
    (afterWrites (ws ++ (tested ++ cs).map Command.write)).pin n =
      cs.foldl (fun on c => c.onPin n on) false := by
  rw [pin_commands, List.foldl_append]
  rfl

theorem quiet_start : Script.start.Quiet := fun _ => rfl

theorem run_tested (cs : List Command) :
    Script.start.run (selftest ++ cs.flatMap Command.ops) =
      ⟨fun _ => [], (tested ++ cs).map Command.write⟩ := by
  rw [selftest_eq, ← List.flatMap_append, run_commands _ quiet_start]
  rfl

/-- **Every pass ends in the dark**, whatever `random` picks and whatever has been written
to the files before, if the transfers succeed. -/
theorem passes_dark (ws : List Write) (passes : Passes) :
    Dark ((Script.start.run (selftest ++ loop passes)).device ws) := by
  obtain ⟨cs, hops, hpins, -⟩ := blinks_loop passes
  rw [hops, run_tested, Script.device, dark_iff]
  intro n
  rw [pin_tested, hpins]

/-! ### The key -/

def Command.text (c : Command) : List Char := Nat.toDigits 10 c.2.toNat

/-- A list of commands is cut between two of them, or inside one behind its text. -/
theorem take_commands (cs : List Command) (k : Nat) :
    ∃ front : List Command, (cs.flatMap Command.ops).take k = front.flatMap Command.ops ∨
      ∃ c ∈ cs, (cs.flatMap Command.ops).take k =
        front.flatMap Command.ops ++ [.write c.1 c.text] := by
  induction cs generalizing k with
  | nil => exact ⟨[], .inl (by simp)⟩
  | cons c cs ih =>
    rw [List.flatMap_cons]
    rcases k with _ | _ | k
    · exact ⟨[], .inl rfl⟩
    · exact ⟨[], .inr ⟨c, List.mem_cons_self, rfl⟩⟩
    · obtain ⟨front, hcut⟩ := ih k
      have htake : (c.ops ++ cs.flatMap Command.ops).take (k + 2) =
          c.ops ++ (cs.flatMap Command.ops).take k := rfl
      refine ⟨c :: front, ?_⟩
      rw [htake, List.flatMap_cons]
      cases hcut with
      | inl hcut =>
        rw [hcut]
        exact .inl rfl
      | inr hcut =>
        obtain ⟨c', hc', hcut⟩ := hcut
        rw [hcut, ← List.append_assoc]
        exact .inr ⟨c', List.mem_cons_of_mem c hc', rfl⟩

theorem getLast?_commands (cs : List Command) (f : Fd) (text : List Char) :
    (cs.flatMap Command.ops).getLast? ≠ some (.write f text) := by
  induction cs using List.reverseRecOn with
  | nil => simp
  | append_singleton cs c ih =>
    rw [List.flatMap_append, List.flatMap_singleton, Command.ops, emit]
    simp

section Ending

variable {s : Script} {f : Fd} {text : List Char}

theorem run_flushes_empty (fs : List Fd) (h : ∀ f ∈ fs, s.buffer f = []) :
    s.run (fs.map .flush) = s := by
  induction fs with
  | nil => rfl
  | cons f fs ih =>
    have hhead : s.exec (.flush f) = s := by
      rw [Script.exec, if_pos (h f List.mem_cons_self)]
    rw [List.map_cons, Script.run, List.foldl_cons, hhead]
    apply ih
    intro g hg
    exact h g (List.mem_cons_of_mem f hg)

/-- Only one buffer may have text. -/
def Script.Waits (s : Script) (f : Fd) (text : List Char) : Prop :=
  s.buffer = Function.update (fun _ => []) f text

theorem Script.Waits.empty (h : s.Waits f text) {g : Fd} (hne : g ≠ f) : s.buffer g = [] := by
  rw [h, Function.update_of_ne hne]

theorem Script.Waits.here (h : s.Waits f text) : s.buffer f = text := by
  rw [h, Function.update_self]

theorem run_flushes_waits (h : s.Waits f text) (htext : text ≠ []) (fs : List Fd) (hmem : f ∈ fs) :
    s.run (fs.map .flush) = ⟨fun _ => [], s.written ++ [(f.file, text)]⟩ := by
  induction fs with
  | nil => cases hmem
  | cons g fs ih =>
    rw [List.map_cons, Script.run, List.foldl_cons]
    by_cases hfg : g = f
    · have hclear : Function.update s.buffer f [] = fun _ => [] := by
        rw [h, Function.update_idem]
        exact Function.update_eq_self f fun _ => []
      have hhead : s.exec (.flush g) = ⟨fun _ => [], s.written ++ [(f.file, text)]⟩ := by
        rw [hfg, Script.exec, h.here, if_neg htext, hclear]
      rw [hhead]
      exact run_flushes_empty fs fun _ _ => rfl
    · have hhead : s.exec (.flush g) = s := by
        rw [Script.exec, if_pos (h.empty hfg)]
      rw [hhead]
      exact ih ((List.mem_cons.mp hmem).resolve_left fun heq => hfg heq.symm)

def closed : List Fd := (List.finRange gpioCount).flatMap fun i => [.gpioA i, .gpioA i]

theorem gpioFree_eq : gpioFree = closed.map .flush := by decide

theorem atExit_eq : atExit = ((List.finRange gpioCount).map Fd.gpioB).map .flush := by decide

theorem mem_closed : f ∈ closed ↔ ∃ i, f = .gpioA i := by
  simp [closed]

theorem run_zero (s : Script) :
    s.run (emit .fd 0 ++ [.flush .fd]) =
      ⟨Function.update s.buffer .fd [], s.written ++ [(.gpioAll, s.buffer .fd ++ ['0'])]⟩ := by
  have hdigits : Nat.toDigits 10 0 = ['0'] := by decide
  simp [Script.run, emit, Script.exec, hdigits, Fd.file]

theorem run_ending (s : Script) :
    s.run (onInterrupt ++ atExit) =
      ((s.run gpioFree).run (emit .fd 0 ++ [.flush .fd])).run atExit := by
  rw [onInterrupt, List.append_assoc gpioFree, run_append, run_append]

theorem written_gpioA {i : Fin gpioCount} (h : s.Waits (.gpioA i) text) (htext : text ≠ []) :
    (s.run (onInterrupt ++ atExit)).written =
      s.written ++ [(Fd.file (.gpioA i), text)] ++ [(.gpioAll, ['0'])] := by
  rw [run_ending, gpioFree_eq, run_flushes_waits h htext closed (mem_closed.mpr ⟨i, rfl⟩), run_zero,
    atExit_eq, run_flushes_empty]
  · rfl
  · intro f hf
    simp only [Function.update_apply]
    split <;> rfl

theorem written_fd (h : s.Waits .fd text) :
    (s.run (onInterrupt ++ atExit)).written = s.written ++ [(.gpioAll, text ++ ['0'])] := by
  rw [run_ending, gpioFree_eq, run_flushes_empty, run_zero, atExit_eq, run_flushes_empty, h.here]
  · intro f hf
    obtain ⟨i, -, rfl⟩ := List.mem_map.mp hf
    show Function.update s.buffer .fd [] (.gpioB i) = []
    rw [Function.update_of_ne (by simp)]
    exact h.empty (by simp)
  · intro f hf
    obtain ⟨i, rfl⟩ := mem_closed.mp hf
    exact h.empty (by simp)

theorem written_gpioB {i : Fin gpioCount} (h : s.Waits (.gpioB i) text) (htext : text ≠ []) :
    (s.run (onInterrupt ++ atExit)).written =
      s.written ++ [(.gpioAll, ['0'])] ++ [(Fd.file (.gpioB i), text)] := by
  have hfree : s.run gpioFree = s := by
    rw [gpioFree_eq]
    apply run_flushes_empty
    intro f hf
    obtain ⟨j, rfl⟩ := mem_closed.mp hf
    exact h.empty (by simp)
  have hzero : s.run (emit .fd 0 ++ [.flush .fd]) =
      ⟨s.buffer, s.written ++ [(.gpioAll, ['0'])]⟩ := by
    have hfd : s.buffer .fd = [] := h.empty (by simp)
    rw [run_zero, hfd, ← hfd, Function.update_eq_self, hfd]
    rfl
  have hwaits : (Script.mk s.buffer (s.written ++ [(.gpioAll, ['0'])])).Waits (.gpioB i) text := h
  rw [run_ending, hfree, hzero, atExit_eq, run_flushes_waits hwaits htext]
  simp

end Ending

/-! ### What stays on -/

theorem pin_gpioAll (ws : List Write) {text : List Char} {on : Bool}
    (h : (sscanfD text).map taken = some on) (n : Fin 16) :
    (afterWrites (ws ++ [(.gpioAll, text)])).pin n = on := by
  rw [afterWrites_concat, pin_writeFile, intFor, if_pos (.inr rfl), h]
  rfl

theorem dark_gpioAll (ws : List Write) {text : List Char}
    (h : (sscanfD text).map taken = some false) : Dark (afterWrites (ws ++ [(.gpioAll, text)])) :=
  (dark_iff _).mpr (pin_gpioAll ws h)

theorem dark_command_iff (ws : List Write) (c : Command) :
    Dark (afterWrites (ws ++ [(.gpioAll, ['0'])] ++ [c.write])) ↔ c.2 = false := by
  have hzero := @pin_gpioAll ws ['0'] false (by decide)
  have hpin : ∀ n, (afterWrites (ws ++ [(.gpioAll, ['0'])] ++ [c.write])).pin n =
      c.onPin n false := by
    intro n
    rw [afterWrites_concat, pin_command, hzero]
  rw [dark_iff]
  refine ⟨?_, ?_⟩
  · intro h
    have hsets : ∃ n, c.1.file.Sets n := by
      obtain ⟨f, on⟩ := c
      cases f with
      | gpioA i => exact ⟨_, .inl rfl⟩
      | gpioB i => exact ⟨_, .inl rfl⟩
      | fd => exact ⟨0, .inr rfl⟩
    obtain ⟨n, hn⟩ := hsets
    have hon := h n
    rwa [hpin, Command.onPin, if_pos hn] at hon
  · intro hoff n
    rw [hpin, Command.onPin, hoff, ite_self]

theorem run_cut (front : List Command) (c : Command) :
    Script.start.run (selftest ++ (front.flatMap Command.ops ++ [.write c.1 c.text])) =
      ⟨Function.update (fun _ => []) c.1 c.text, (tested ++ front).map Command.write⟩ := by
  rw [← List.append_assoc, run_append, run_tested]
  rfl

/-- What stands in the buffer of a file of port B is a one, unless the LED is put out. -/
theorem no_one_iff (i : Fin gpioCount) (on : Bool) :
    (∀ j, some (Op.write (.gpioB i) (Command.text (.gpioB i, on))) ≠
      some (.write (.gpioB j) ['1'])) ↔ on = false := by
  cases on with
  | false =>
    refine iff_of_true ?_ rfl
    intro j
    simp [Command.text]
  | true =>
    have hone : Nat.toDigits 10 1 = ['1'] := by decide
    refine iff_of_false ?_ (by decide)
    intro h
    exact h i (congrArg (fun text => some (Op.write (.gpioB i) text)) hone)

/-- **What the key leaves on.**  However many passes are made and wherever the key comes, if
the transfers succeed all pins are off when the script has ended, unless the last operation
has put a one into the buffer of a file of port B. -/
theorem exit_dark_iff (ws : List Write) (passes : Passes) (k : Nat) :
    Dark ((interrupted passes k).device ws) ↔
      ∀ i, ((loop passes).take k).getLast? ≠ some (.write (.gpioB i) ['1']) := by
  obtain ⟨cs, hops, -, hfd⟩ := blinks_loop passes
  obtain ⟨front, hcut⟩ := take_commands cs k
  rw [interrupted, Script.device, List.append_assoc, run_append, hops]
  cases hcut with
  | inl hcut =>
    have hempty : Script.Waits ⟨fun _ => [], (tested ++ front).map Command.write⟩ .fd [] :=
      (Function.update_eq_self Fd.fd fun _ => []).symm
    rw [hcut, run_tested, written_fd hempty, ← List.append_assoc]
    refine ⟨?_, ?_⟩
    · intro _ i
      exact getLast?_commands front _ _
    · intro _
      exact dark_gpioAll _ (by decide)
  | inr hcut =>
    obtain ⟨c, hc, hcut⟩ := hcut
    rw [hcut, run_cut, List.getLast?_concat]
    obtain ⟨f, on⟩ := c
    have htext : Command.text (f, on) ≠ [] := digits_ne_nil on
    have hwaits : Script.Waits ⟨Function.update (fun _ => []) f (Command.text (f, on)),
        (tested ++ front).map Command.write⟩ f (Command.text (f, on)) := rfl
    cases f with
    | gpioA i =>
      rw [written_gpioA hwaits htext, ← List.append_assoc]
      refine ⟨?_, ?_⟩
      · intro _ j
        simp
      · intro _
        exact dark_gpioAll _ (by decide)
    | fd =>
      -- only zeros are written to it
      have hoff : on = false := hfd _ hc rfl
      subst hoff
      rw [written_fd hwaits, ← List.append_assoc]
      refine ⟨?_, ?_⟩
      · intro _ j
        simp
      · intro _
        exact dark_gpioAll _ (by decide)
    | gpioB i =>
      have hiff := dark_command_iff (ws ++ (tested ++ front).map Command.write) (.gpioB i, on)
      rw [written_gpioB hwaits htext, ← List.append_assoc, ← List.append_assoc]
      exact hiff.trans (no_one_iff i on).symm

/-- Behind nine operations the second LED of port B waits in its buffer. -/
example : ((loop [fun _ => []]).take 9).getLast? = some (.write (.gpioB ⟨1, by decide⟩) ['1']) := by
  decide

end Raspberries.PortExpander.TestOut
