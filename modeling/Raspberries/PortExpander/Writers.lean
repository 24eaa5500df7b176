import Raspberries.Lib.Transition
import Raspberries.PortExpander.GpioBits

/-!
# Writers that overtake each other

Nothing orders the two steps of `portex_write_cached`: a writer changes the cached byte
and takes it for its message, and other writers may do the same before the message is
sent.  Each message holds all pins of the port, so one that arrives after a newer one
takes back what the newer one did (`overtaken_write_lost`).

`Writers` has any number of writers, and keeps their outstanding transfers in the order
of the updates.  `cached_state_arrives` proves that only one thing can go wrong, and that
it does: the newest message to a register is sent while the one before it, with another
byte, is still outstanding.
-/

namespace Raspberries.PortExpander

open Transition

structure Call where
  reg : Nat
  pinMask : BitVec 8
  value : BitVec 8
  reg_lt : reg < 256

/-- A message that has been taken from the cache and is not sent yet. -/
structure Outstanding where
  writer : Nat
  reg : Nat
  message : BitVec 8
  reg_lt : reg < 256

/-! ### The two steps of a call -/

def Call.change (c : Call) (d : Device) : Device :=
  { d with cache := Function.update d.cache c.reg (changeBits c.pinMask c.value (d.cache c.reg)) }

def Device.send (reg : Nat) (message : BitVec 8) (d : Device) : Device :=
  { d with chip := (mcp23s17Write 0 mcp23s08Addr00 reg message d.chip).2 }

def Call.run (c : Call) (d : Device) : Device :=
  (c.change d).send c.reg ((c.change d).cache c.reg)

theorem portexWriteCached_eq_run (c : Call) (d : Device) :
    portexWriteCached 0 c.reg c.pinMask c.value d = c.run d := rfl

/-- The calls that the store handler of a file makes for a text. -/
def File.calls (file : File) (buf : List Char) : List Call :=
  match sscanfD buf with
  | none => []
  | some value =>
      match file with
      | .gpio n =>
          [⟨(portPin n).1, BitVec.ofNat 8 (1 <<< (portPin n).2), value.setWidth 8,
            portPin_fst_lt n⟩]
      | .gpioAll =>
          [⟨mcp23s08RegGpio, 0xFF#8, value.setWidth 8, by decide⟩,
            ⟨mcp23s17RegGpio, 0xFF#8, value.setWidth 8, by decide⟩]

theorem writeFile_eq_calls (d : Device) (file : File) (buf : List Char) :
    writeFile d (file, buf) = (file.calls buf).foldl (fun d c => c.run d) d := by
  cases hparse : sscanfD buf with
  | none =>
    rw [writeFile_unparsed d file hparse, File.calls, hparse]
    rfl
  | some value =>
    cases file with
    | gpio n =>
      rw [writeFile_gpio d n hparse, File.calls, hparse]
      rfl
    | gpioAll =>
      rw [writeFile_gpioAll d hparse, File.calls, hparse]
      rfl

/-! ### Any number of writers -/

/-- `calls` is what the handler of a writer has still to call, and `latest` remembers the
latest update made to each pin. -/
structure Writers where
  dev : Device
  calls : Nat → List Call
  outstanding : List Outstanding
  latest : Fin 16 → Bool

namespace Writers

def initial : Writers := ⟨Device.initial, fun _ => [], [], fun _ => false⟩

inductive Act
  | store (writer : Nat) (file : File) (buf : List Char)
  | update (writer : Nat)
  | transfer (i : Nat)
  deriving DecidableEq, Repr

def Sending (s : Writers) (writer : Nat) : Prop := ∃ o ∈ s.outstanding, o.writer = writer

instance (s : Writers) (writer : Nat) : Decidable (s.Sending writer) :=
  inferInstanceAs (Decidable (∃ o ∈ s.outstanding, o.writer = writer))

/-- The pins of the mask have a new latest update. -/
def updateLatest (c : Call) (latest : Fin 16 → Bool) (n : Fin 16) : Bool :=
  if (portPin n).1 = c.reg ∧ c.pinMask.getLsbD (portPin n).2 = true then decide (c.value ≠ 0#8)
  else latest n

/-- A writer starts a handler when it is done with the one before, and goes on with its
next call when the transfer of the one before is made. -/
def step (s : Writers) : Act → Option Writers
  | .store writer file buf =>
      if s.calls writer = [] ∧ ¬ s.Sending writer then
        some { s with calls := Function.update s.calls writer (file.calls buf) }
      else none
  | .update writer =>
      if s.Sending writer then none
      else
        match s.calls writer with
        | [] => none
        | c :: cs =>
            some
              { dev := c.change s.dev
                calls := Function.update s.calls writer cs
                outstanding := s.outstanding ++
                  [⟨writer, c.reg, (c.change s.dev).cache c.reg, c.reg_lt⟩]
                latest := updateLatest c s.latest }
  | .transfer i =>
      match s.outstanding[i]? with
      | none => none
      | some o =>
          some { s with
            dev := s.dev.send o.reg o.message
            outstanding := s.outstanding.eraseIdx i }

def messages (reg : Nat) (os : List Outstanding) : List (BitVec 8) :=
  (os.filter fun o => o.reg = reg).map Outstanding.message

/-- The chip has the cached bytes and every pin the level of its latest update, whenever no
transfer is outstanding. -/
def Agrees (s : Writers) : Prop :=
  s.outstanding = [] →
    (∀ reg, s.dev.chip reg = s.dev.cache reg) ∧
    ∀ n : Fin 16, (s.dev.chip (portPin n).1).getLsbD (portPin n).2 = s.latest n

/-- The transfer sends the newest message to its register, and the message before it, which
is still outstanding, is another byte. -/
def overtakes (s : Writers) (i : Nat) : Bool :=
  s.outstanding[i]?.any fun o =>
    (messages o.reg (s.outstanding.drop (i + 1))).isEmpty &&
      decide ((messages o.reg (s.outstanding.take i)).getLastD o.message ≠ o.message)

def InOrder (s : Writers) : Act → Prop
  | .transfer i => s.overtakes i = false
  | .store _ _ _ | .update _ => True

instance (s : Writers) (a : Act) : Decidable (s.InOrder a) :=
  match a with
  | .transfer _ => inferInstanceAs (Decidable (_ = _))
  | .store _ _ _ | .update _ => isTrue trivial

/-! ### Messages -/

theorem messages_append (reg : Nat) (os os' : List Outstanding) :
    messages reg (os ++ os') = messages reg os ++ messages reg os' := by
  rw [messages, List.filter_append, List.map_append]
  rfl

theorem messages_cons_of_eq {reg : Nat} {o : Outstanding} (h : o.reg = reg)
    (os : List Outstanding) : messages reg (o :: os) = o.message :: messages reg os := by
  simp [messages, h]

theorem messages_cons_of_ne {reg : Nat} {o : Outstanding} (h : o.reg ≠ reg)
    (os : List Outstanding) : messages reg (o :: os) = messages reg os := by
  simp [messages, h]

theorem messages_concat_of_eq {reg : Nat} {o : Outstanding} (h : o.reg = reg)
    (os : List Outstanding) : messages reg (os ++ [o]) = messages reg os ++ [o.message] := by
  rw [messages_append, messages_cons_of_eq h]
  rfl

theorem getLastD_append_cons {α : Type*} (l : List α) (m : α) (ms : List α) (d : α) :
    (l ++ m :: ms).getLastD d = ms.getLastD m := by
  simp [List.getLast?_cons]

theorem outstanding_split {os : List Outstanding} {i : Nat} {o : Outstanding}
    (h : os[i]? = some o) : os = os.take i ++ o :: os.drop (i + 1) := by
  obtain ⟨hlt, hget⟩ := List.getElem?_eq_some_iff.mp h
  rw [← hget, ← List.drop_eq_getElem_cons hlt, List.take_append_drop]

/-! ### The invariant -/

/-- The newest outstanding message to a register, or what the chip has, is the cached byte,
and the cached bytes have the latest updates. -/
structure Newest (s : Writers) : Prop where
  message : ∀ reg, (messages reg s.outstanding).getLastD (s.dev.chip reg) = s.dev.cache reg
  latest : ∀ n : Fin 16, s.dev.pin n = s.latest n

theorem newest_initial : Newest initial :=
  ⟨fun _ => rfl, pin_initial⟩

theorem send_chip (o : Outstanding) (d : Device) :
    (d.send o.reg o.message).chip = Function.update d.chip o.reg o.message := by
  rw [Device.send, mcp23s17Write_zero o.reg_lt]

/-- An update is the newest message to its register. -/
theorem newest_update {s : Writers} (h : Newest s) (c : Call) {o : Outstanding}
    (hreg : o.reg = c.reg) (hmessage : o.message = (c.change s.dev).cache c.reg)
    (calls : Nat → List Call) :
    Newest
      { dev := c.change s.dev
        calls := calls
        outstanding := s.outstanding ++ [o]
        latest := updateLatest c s.latest } := by
  refine ⟨?_, ?_⟩
  · intro reg
    show (messages reg (s.outstanding ++ [o])).getLastD (s.dev.chip reg) =
      (c.change s.dev).cache reg
    by_cases hsame : o.reg = reg
    · rw [messages_concat_of_eq hsame, List.getLastD_concat, hmessage, ← hreg, hsame]
    · have hne : reg ≠ c.reg := by
        intro heq
        exact hsame (hreg.trans heq.symm)
      have hother : (c.change s.dev).cache reg = s.dev.cache reg := Function.update_of_ne hne _ _
      rw [messages_append, messages_cons_of_ne hsame, hother, ← h.message reg]
      exact congrArg (fun ms => ms.getLastD (s.dev.chip reg)) (List.append_nil _)
  · intro n
    show (c.run s.dev).pin n = updateLatest c s.latest n
    rw [← portexWriteCached_eq_run, pin_portexWriteCached c.reg_lt, h.latest n, updateLatest]

/-- A transfer in order leaves the newest message to be sent, or has sent it. -/
theorem newest_transfer {s : Writers} (h : Newest s) {i : Nat} {o : Outstanding}
    (ho : s.outstanding[i]? = some o) (horder : s.overtakes i = false) :
    Newest
      { s with
        dev := s.dev.send o.reg o.message
        outstanding := s.outstanding.eraseIdx i } := by
  refine ⟨?_, h.latest⟩
  intro reg
  show (messages reg (s.outstanding.eraseIdx i)).getLastD ((s.dev.send o.reg o.message).chip reg) =
    s.dev.cache reg
  have hnewest := h.message reg
  rw [outstanding_split ho, messages_append] at hnewest
  rw [List.eraseIdx_eq_take_drop_succ, messages_append, send_chip]
  by_cases hreg : o.reg = reg
  · subst hreg
    rw [messages_cons_of_eq rfl] at hnewest
    rw [Function.update_self]
    cases hlater : messages o.reg (s.outstanding.drop (i + 1)) with
    | nil =>
      -- the newest one is sent, and the one before carries the same byte
      rw [hlater, List.getLastD_concat] at hnewest
      have hbefore : (messages o.reg (s.outstanding.take i)).getLastD o.message = o.message := by
        simpa [overtakes, ho, hlater] using horder
      rw [List.append_nil, hbefore, hnewest]
    | cons m ms =>
      rw [hlater, getLastD_append_cons, List.getLastD_cons] at hnewest
      rw [getLastD_append_cons, hnewest]
  · rw [messages_cons_of_ne hreg] at hnewest
    rw [Function.update_of_ne (Ne.symm hreg), hnewest]

theorem newest_step {s t : Writers} {a : Act} (h : Newest s) (horder : s.InOrder a)
    (hstep : step s a = some t) : Newest t := by
  cases a with
  | store writer file buf =>
    rw [step] at hstep
    split at hstep
    · obtain rfl := Option.some.inj hstep
      exact ⟨h.message, h.latest⟩
    · cases hstep
  | update writer =>
    rw [step] at hstep
    split at hstep
    · cases hstep
    · cases hcalls : s.calls writer with
      | nil =>
        rw [hcalls] at hstep
        cases hstep
      | cons c cs =>
        rw [hcalls] at hstep
        obtain rfl := Option.some.inj hstep
        exact newest_update h c rfl rfl _
  | transfer i =>
    rw [step] at hstep
    cases ho : s.outstanding[i]? with
    | none =>
      rw [ho] at hstep
      cases hstep
    | some o =>
      rw [ho] at hstep
      obtain rfl := Option.some.inj hstep
      exact newest_transfer h ho horder

theorem agrees_of_newest {s : Writers} (h : Newest s) : Agrees s := by
  intro hnone
  have hchip : ∀ reg, s.dev.chip reg = s.dev.cache reg := by
    intro reg
    have hmessage := h.message reg
    rw [hnone] at hmessage
    exact hmessage
  refine ⟨hchip, ?_⟩
  intro n
  rw [hchip]
  exact h.latest n

/-! ### What a transfer out of order leads to -/

/-- The outstanding transfers can be made in order, and then the chip has the newest of the
messages that were outstanding. -/
theorem drain (s : Writers) :
    ∃ t, Reach step InOrder (· = s) t ∧ t.outstanding = [] ∧ t.dev.cache = s.dev.cache ∧
      ∀ reg, t.dev.chip reg = (messages reg s.outstanding).getLastD (s.dev.chip reg) := by
  obtain ⟨dev, calls, outstanding, latest⟩ := s
  induction outstanding generalizing dev with
  | nil => exact ⟨_, .start rfl, rfl, rfl, fun _ => rfl⟩
  | cons o os ih =>
    obtain ⟨t, hreach, hnone, hcache, hchip⟩ := ih (dev.send o.reg o.message)
    have hfirst : Reach step InOrder (· = ⟨dev, calls, o :: os, latest⟩)
        ⟨dev.send o.reg o.message, calls, os, latest⟩ :=
      .next (a := .transfer 0) (.start rfl)
        (show overtakes _ 0 = false by simp [overtakes, messages]) rfl
    refine ⟨t, hfirst.trans hreach, hnone, hcache, ?_⟩
    intro reg
    rw [hchip reg, send_chip]
    by_cases hreg : o.reg = reg
    · rw [messages_cons_of_eq hreg, List.getLastD_cons, hreg, Function.update_self]
    · rw [messages_cons_of_ne hreg, Function.update_of_ne (Ne.symm hreg)]

/-- After a transfer out of order, the outstanding transfers can be made in order and leave
the chip with another byte than the cached one. -/
theorem overtaking_goes_wrong {s : Writers} (h : Newest s) {i : Nat}
    (hover : s.overtakes i = true) :
    ∃ t u, step s (.transfer i) = some t ∧ Reach step InOrder (· = t) u ∧ ¬ Agrees u := by
  rw [overtakes, Option.any_eq_true] at hover
  obtain ⟨o, ho, hlate⟩ := hover
  rw [Bool.and_eq_true, List.isEmpty_iff, decide_eq_true_eq] at hlate
  obtain ⟨hlater, hbefore⟩ := hlate
  have hcached : s.dev.cache o.reg = o.message := by
    have hmessage := h.message o.reg
    rw [outstanding_split ho, messages_append, messages_cons_of_eq rfl, hlater,
      List.getLastD_concat] at hmessage
    exact hmessage.symm
  obtain ⟨u, hreach, hnone, hcache, hchip⟩ := drain
    { s with
      dev := s.dev.send o.reg o.message
      outstanding := s.outstanding.eraseIdx i }
  refine ⟨_, u, ?_, hreach, ?_⟩
  · rw [step, ho]
  · intro hagrees
    have hreg := (hagrees hnone).1 o.reg
    rw [hchip, hcache] at hreg
    rw [List.eraseIdx_eq_take_drop_succ, messages_append, hlater, List.append_nil, send_chip,
      Function.update_self] at hreg
    exact hbefore (hreg.trans hcached)

/-! ### Runs -/

theorem newest_of_reach {s : Writers} (h : Reach step InOrder (· = initial) s) : Newest s :=
  h.invariant_from newest_initial fun _ _ _ hs horder hstep => newest_step hs horder hstep

/-- **The cached state arrives.**  In every run that makes its transfers in order, the chip
has the cached bytes, and every pin the level of the latest update made to it, whenever no
transfer is outstanding.  After the first transfer that is out of order this can fail. -/
theorem cached_state_arrives {s : Writers} (h : Reach step InOrder (· = initial) s) :
    Agrees s ∧ ∀ i, s.overtakes i = true →
      ∃ t u, step s (.transfer i) = some t ∧ Reach step InOrder (· = t) u ∧ ¬ Agrees u :=
  ⟨agrees_of_newest (newest_of_reach h), fun _ => overtaking_goes_wrong (newest_of_reach h)⟩

def twoUpdates : List Act :=
  [.store 0 (.gpio 0) "1".toList, .store 1 (.gpio 1) "1".toList, .update 0, .update 1]

def bothSent : Writers :=
  (exec step InOrder initial (List.flatten [twoUpdates, [.transfer 0, .transfer 0]])).get
    (by decide)

theorem cached_state_arrives_both :
    bothSent.dev.cache mcp23s08RegGpio = 3#8 ∧ Agrees bothSent :=
  ⟨by decide, (cached_state_arrives (reach_get initial _ _)).1⟩

def secondSentFirst : Writers :=
  (exec step anyStep initial (List.flatten [twoUpdates, [.transfer 1, .transfer 0]])).get
    (by decide)

/-- The first message switches the pin of the second one off again. -/
theorem overtaken_write_lost :
    ¬ ∀ s, Reach step anyStep (· = initial) s → Agrees s := by
  intro h
  have hagrees := h secondSentFirst (reach_get initial _ _)
  obtain ⟨hchip, -⟩ := hagrees (by decide)
  exact absurd (hchip mcp23s08RegGpio) (by decide)

end Writers

end Raspberries.PortExpander
