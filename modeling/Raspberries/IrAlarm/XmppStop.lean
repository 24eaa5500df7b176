import Raspberries.IrAlarm.ConnectWait

/-!
# Stopping the XMPP thread

`ConnectWait` has the connection loop of `__irxmpp_connect` without its end.  Here the
thread stores `do_reconnect = 1` when it starts and tests the flag behind every `sleep`,
and `irxmpp_stopThread` clears it, asks the loop of the library to stop, joins the thread
and releases the connection and the context.  The `SIGTERM` handler calls it in the main
thread, which is behind its wait then.

`xmpp_stop` only asks: whether and when `xmpp_run` returns is left open.

`xmpp_stop_ends` says that without a spurious wake-up of the main thread the flag stays
cleared, that the thread then connects at most once more, and that nothing is released
before the thread has ended; `xmpp_stop_finishes` that it can end.  `xmpp_stop_lost` is about
what a spurious wake-up can do: if the thread starts only after the flag was cleared, it
never ends.
-/

namespace Raspberries.IrAlarm

open Transition

/-- How far `__irxmpp_connect` is: before `do_reconnect = 1`, in its loop, before
`pthread_mutex_unlock`, or at its end. -/
inductive ThrdPhase
  | starting
  | looping
  | ending
  | exited
  deriving DecidableEq, Repr

/-- How far `irxmpp_stopThread` is: not called, before each of its steps, or at its end. -/
inductive XmppStopPc
  | idle
  | flag
  | xmppStop
  | join
  | connRelease
  | ctxFree
  | shutdown
  | done
  deriving DecidableEq, Repr

def XmppStopPc.stored (p : XmppStopPc) : Bool := p != .idle && p != .flag

def XmppStopPc.joined (p : XmppStopPc) : Bool :=
  p == .connRelease || p == .ctxFree || p == .shutdown || p == .done

/-- `attempts` counts the calls of `xmpp_connect_client`. -/
structure XmppSys where
  conn : ConnSys
  phase : ThrdPhase
  doReconnect : Bool
  stop : XmppStopPc
  attempts : Nat
  deriving DecidableEq, Repr

/-- A step of the main thread or of the loop as in `ConnectWait`, a step of the XMPP thread
outside the loop's body, or a step of `irxmpp_stopThread`. -/
inductive XmppAct
  | conn (a : ConnSys.ConnAct)
  | begins
  | test
  | unlock
  | stop
  deriving DecidableEq, Repr

def ConnSys.ConnAct.inLoop : ConnSys.ConnAct → Bool
  | .attempt _ | .connected | .signal | .lost | .runEnds | .disconnect => true
  | .main _ | .spurious | .awake => false

def ConnSys.ConnAct.isAttempt : ConnSys.ConnAct → Bool
  | .attempt _ => true
  | _ => false

namespace XmppSys

def initial (cfg : XmppConfig) : XmppSys where
  conn := ConnSys.initial cfg
  phase := .starting
  doReconnect := false
  stop := .idle
  attempts := 0

/-- A step of `ConnectWait`.  Those of the loop's body need the thread in its loop; its
way back to `xmpp_connect_client` is `test` here. -/
def connStep (s : XmppSys) (a : ConnSys.ConnAct) : Option XmppSys :=
  if a = .awake ∨ a.inLoop = true ∧ s.phase ≠ .looping then none
  else
    (ConnSys.step s.conn a).map fun c =>
      { s with conn := c, attempts := s.attempts + a.isAttempt.toNat }

def stopStep (s : XmppSys) : Option XmppSys :=
  match s.stop with
  | .idle => if s.conn.main = .returned then some { s with stop := .flag } else none
  | .flag => some { s with stop := .xmppStop, doReconnect := false }
  | .xmppStop => some { s with stop := .join }
  | .join => if s.phase = .exited then some { s with stop := .connRelease } else none
  | .connRelease => some { s with stop := .ctxFree }
  | .ctxFree => some { s with stop := .shutdown }
  | .shutdown => some { s with stop := .done }
  | .done => none

def step (s : XmppSys) : XmppAct → Option XmppSys
  | .conn a => connStep s a
  | .begins =>
    if s.phase = .starting ∧ s.conn.xmpp = .connect then
      some { s with phase := .looping, doReconnect := true }
    else none
  | .test =>
    if s.phase = .looping ∧ s.conn.xmpp = .sleep then
      if s.doReconnect then (ConnSys.step s.conn .awake).map fun c => { s with conn := c }
      else some { s with phase := .ending }
    else none
  -- the mutex is that which the main thread has locked
  | .unlock =>
    if s.phase = .ending then
      some { s with phase := .exited, conn := { s.conn with locked := false } }
    else none
  | .stop => stopStep s

/-! ### What one step does -/

inductive StepTo (s : XmppSys) : XmppAct → XmppSys → Prop
  | conn (a) (c : ConnSys) (hnot : a ≠ .awake) (hloop : a.inLoop = true → s.phase = .looping)
      (hc : ConnSys.step s.conn a = some c) :
      StepTo s (.conn a) { s with conn := c, attempts := s.attempts + a.isAttempt.toNat }
  | begins (hp : s.phase = .starting) (hx : s.conn.xmpp = .connect) :
      StepTo s .begins { s with phase := .looping, doReconnect := true }
  | again (c : ConnSys) (hp : s.phase = .looping) (hflag : s.doReconnect = true)
      (hc : ConnSys.step s.conn .awake = some c) : StepTo s .test { s with conn := c }
  | leaves (hp : s.phase = .looping) (hflag : s.doReconnect = false) (hx : s.conn.xmpp = .sleep) :
      StepTo s .test { s with phase := .ending }
  | unlock (hp : s.phase = .ending) :
      StepTo s .unlock { s with phase := .exited, conn := { s.conn with locked := false } }
  | stopCalled (hm : s.conn.main = .returned) (hs : s.stop = .idle) :
      StepTo s .stop { s with stop := .flag }
  | stopFlag (hs : s.stop = .flag) :
      StepTo s .stop { s with stop := .xmppStop, doReconnect := false }
  | stopXmpp (hs : s.stop = .xmppStop) : StepTo s .stop { s with stop := .join }
  | stopJoin (hs : s.stop = .join) (hp : s.phase = .exited) :
      StepTo s .stop { s with stop := .connRelease }
  | stopRest (p : XmppStopPc) (hs : s.stop.joined = true) (hp : p.joined = true) :
      StepTo s .stop { s with stop := p }

section Step

variable {s t : XmppSys} {a : XmppAct}

theorem stepTo_stopStep (h : stopStep s = some t) : StepTo s .stop t := by
  unfold stopStep at h
  cases hs : s.stop with
  | idle =>
    rw [hs] at h
    obtain ⟨hm, h⟩ := Option.ite_none_right_eq_some.mp h
    obtain rfl := Option.some.inj h
    exact .stopCalled hm hs
  | flag => rw [hs] at h; obtain rfl := Option.some.inj h; exact .stopFlag hs
  | xmppStop => rw [hs] at h; obtain rfl := Option.some.inj h; exact .stopXmpp hs
  | join =>
    rw [hs] at h
    obtain ⟨hp, h⟩ := Option.ite_none_right_eq_some.mp h
    obtain rfl := Option.some.inj h
    exact .stopJoin hs hp
  | connRelease | ctxFree | shutdown =>
    rw [hs] at h
    obtain rfl := Option.some.inj h
    exact .stopRest _ (by rw [hs]; rfl) rfl
  | done => rw [hs] at h; cases h

theorem stepTo_of_step (h : step s a = some t) : StepTo s a t := by
  cases a with
  | conn a =>
    rw [step, connStep] at h
    obtain ⟨hno, h⟩ := Option.ite_none_left_eq_some.mp h
    obtain ⟨c, hc, rfl⟩ := Option.map_eq_some_iff.mp h
    refine .conn a c (fun ha => hno (Or.inl ha)) (fun hloop => ?_) hc
    by_contra hp
    exact hno (Or.inr ⟨hloop, hp⟩)
  | begins =>
    obtain ⟨⟨hp, hx⟩, h⟩ := Option.ite_none_right_eq_some.mp h
    obtain rfl := Option.some.inj h
    exact .begins hp hx
  | test =>
    obtain ⟨⟨hp, hx⟩, h⟩ := Option.ite_none_right_eq_some.mp h
    split at h
    next hflag =>
      obtain ⟨c, hc, rfl⟩ := Option.map_eq_some_iff.mp h
      exact .again c hp hflag hc
    next hflag =>
      obtain rfl := Option.some.inj h
      exact .leaves hp (Bool.eq_false_iff.mpr hflag) hx
  | unlock =>
    obtain ⟨hp, h⟩ := Option.ite_none_right_eq_some.mp h
    obtain rfl := Option.some.inj h
    exact .unlock hp
  | stop => exact stepTo_stopStep h

end Step

/-! ### The main thread behind its wait -/

section Returned

variable {c d : ConnSys} {a : ConnSys.ConnAct}

theorem returned_step (hc : c.main = .returned) (h : ConnSys.step c a = some d) :
    d.main = .returned := by
  cases ConnSys.stepTo_of_step h with
  | lock _ hm | create _ hm | createFails _ hm | wait _ hm | relock _ hm | spurious hm =>
    cases hc.symm.trans hm
  | signal =>
    rcases ConnSys.condSignal_cases c with ⟨hm, -⟩ | ⟨-, hsame⟩
    · cases hc.symm.trans hm
    · rw [hsame]
      exact hc
  | attempt | connected | lost | runEnds | disconnect | awake => exact hc

theorem locked_step (hc : c.main = .returned → c.locked = true)
    (h : ConnSys.step c a = some d) : d.main = .returned → d.locked = true := by
  cases ConnSys.stepTo_of_step h with
  | lock | relock => exact fun _ => rfl
  | create | createFails | wait | spurious => exact fun hm => by cases hm
  | signal =>
    rcases ConnSys.condSignal_cases c with ⟨-, hsame⟩ | ⟨-, hsame⟩
    · rw [hsame]
      exact fun hm => by cases hm
    · rw [hsame]
      exact hc
  | attempt | connected | lost | runEnds | disconnect | awake => exact hc

/-- A main thread that has yet to create the XMPP thread had yet to do so before. -/
theorem born_step (h : ConnSys.step c a = some d) (hd : d.main = .lock ∨ d.main = .create) :
    c.main = .lock ∨ c.main = .create := by
  cases ConnSys.stepTo_of_step h with
  | lock _ hm => exact Or.inl hm
  | create | createFails | wait | relock | spurious => rcases hd with hd | hd <;> cases hd
  | signal =>
    rcases ConnSys.condSignal_cases c with ⟨-, hsame⟩ | ⟨-, hsame⟩
    · rw [hsame] at hd
      rcases hd with hd | hd <;> cases hd
    · rwa [hsame] at hd
  | attempt | connected | lost | runEnds | disconnect | awake => exact hd

theorem unborn_step (hc : c.main = .lock ∨ c.main = .create → c.xmpp = .none)
    (h : ConnSys.step c a = some d) (hd : d.main = .lock ∨ d.main = .create) : d.xmpp = .none := by
  have hx := hc (born_step h hd)
  cases ConnSys.stepTo_of_step h with
  | lock => exact hx
  | create | createFails | wait | relock | spurious => rcases hd with hd | hd <;> cases hd
  | attempt _ h₁ | connected h₁ | signal h₁ | lost h₁ | runEnds h₁ | disconnect h₁ | awake h₁ =>
    cases hx.symm.trans h₁

theorem created_step (hc : c.xmpp ≠ .none) (h : ConnSys.step c a = some d) : d.xmpp ≠ .none := by
  cases ConnSys.stepTo_of_step h with
  | attempt ok => cases ok <;> exact ConnPc.noConfusion
  | create | connected | signal | runEnds | disconnect | awake => exact ConnPc.noConfusion
  | lock | createFails | wait | relock | spurious | lost => exact hc

theorem connects_step (h : ConnSys.step c a = some d) (ha : a.inLoop = false) :
    d.connects = c.connects := by
  cases ConnSys.stepTo_of_step h with
  | lock | create | createFails | wait | relock | spurious | awake => rfl
  | attempt | connected | signal | lost | runEnds | disconnect => cases ha

end Returned

/-! ### What every run keeps -/

/-- The stop, the thread and the main thread in step. -/
structure InStep (s : XmppSys) : Prop where
  main : s.stop ≠ .idle → s.conn.main = .returned
  locked : s.phase ≠ .exited → s.conn.main = .returned → s.conn.locked = true
  unborn : s.conn.main = .lock ∨ s.conn.main = .create →
    s.conn.xmpp = .none ∧ s.phase = .starting
  born : s.phase ≠ .starting → s.conn.xmpp ≠ .none
  connected : 0 < s.conn.connects → s.phase ≠ .starting
  flag : s.doReconnect = true → s.phase = .looping
  cleared : s.phase = .looping → s.doReconnect = false → s.stop.stored = true
  leaving : s.phase = .ending ∨ s.phase = .exited → s.stop.stored = true
  asleep : s.phase = .ending ∨ s.phase = .exited → s.conn.xmpp = .sleep
  joined : s.stop.joined = true → s.phase = .exited

theorem stored_of_joined {p : XmppStopPc} (h : p.joined = true) : p.stored = true := by
  cases p with
  | connRelease | ctxFree | shutdown | done => rfl
  | idle | flag | xmppStop | join => cases h

theorem stored_ne_idle {p : XmppStopPc} (h : p.stored = true) : p ≠ .idle := by
  rintro rfl
  cases h

section InStep

variable {s t : XmppSys} {a : XmppAct}

theorem inStep_conn {b : ConnSys.ConnAct} {c : ConnSys} (hs : s.InStep) (hnot : b ≠ .awake)
    (hloop : b.inLoop = true → s.phase = .looping) (hc : ConnSys.step s.conn b = some c) :
    InStep { s with conn := c, attempts := s.attempts + b.isAttempt.toNat } := by
  refine ⟨?_, ?_, ?_, ?_, ?_, hs.flag, hs.cleared, hs.leaving, ?_, hs.joined⟩
  · exact fun hstop => returned_step (hs.main hstop) hc
  · exact fun hp => locked_step (hs.locked hp) hc
  · exact fun hm => ⟨unborn_step (fun h => (hs.unborn h).1) hc hm, (hs.unborn (born_step hc hm)).2⟩
  · exact fun hp => created_step (hs.born hp) hc
  · intro hconnects
    cases hb : b.inLoop with
    | true =>
      show s.phase ≠ .starting
      rw [hloop hb]
      exact ThrdPhase.noConfusion
    | false =>
      refine hs.connected ?_
      rwa [connects_step hc hb] at hconnects
  · intro hp
    have hx := hs.asleep hp
    have hmain := hs.main (stored_ne_idle (hs.leaving hp))
    have hphase : s.phase ≠ .looping := by
      rcases hp with hp | hp <;> rw [show s.phase = _ from hp] <;> exact ThrdPhase.noConfusion
    show c.xmpp = .sleep
    cases ConnSys.stepTo_of_step hc with
    | lock _ hm | create _ hm | createFails _ hm | wait _ hm | relock _ hm | spurious hm =>
      cases hmain.symm.trans hm
    | attempt | connected | signal | lost | runEnds | disconnect =>
      exact absurd (hloop rfl) hphase
    | awake => exact absurd rfl hnot

theorem inStep_step (hs : s.InStep) (h : step s a = some t) : t.InStep := by
  cases stepTo_of_step h with
  | conn b c hnot hloop hc => exact inStep_conn hs hnot hloop hc
  | begins hp hx =>
    have hno : ∀ q : ThrdPhase, s.phase = q → q ≠ .starting → False := by
      intro q hq hne
      exact hne (hq.symm.trans hp)
    refine ⟨hs.main, fun _ => hs.locked ?_, fun hm => ?_, fun _ => ?_,
      fun _ => ThrdPhase.noConfusion, fun _ => rfl, fun _ h => (by cases h), ?_, ?_, ?_⟩
    · rw [hp]
      exact ThrdPhase.noConfusion
    · cases hx.symm.trans (hs.unborn hm).1
    · show s.conn.xmpp ≠ .none
      rw [hx]
      exact ConnPc.noConfusion
    · exact fun h => by rcases h with h | h <;> cases h
    · exact fun h => by rcases h with h | h <;> cases h
    · exact fun hj => (hno _ (hs.joined hj) ThrdPhase.noConfusion).elim
  | again c hp hflag hc =>
    refine ⟨fun hstop => returned_step (hs.main hstop) hc, fun h => locked_step (hs.locked h) hc,
      fun hm => ?_, fun h => created_step (hs.born h) hc, ?_, hs.flag, hs.cleared, hs.leaving,
      ?_, hs.joined⟩
    · cases hp.symm.trans (hs.unborn (born_step hc hm)).2
    · intro _
      show s.phase ≠ .starting
      rw [hp]
      exact ThrdPhase.noConfusion
    · intro h
      rcases h with h | h <;> cases hp.symm.trans h
  | leaves hp hflag hx =>
    refine ⟨hs.main, fun _ => hs.locked ?_, fun hm => ?_, fun _ => ?_,
      fun _ => ThrdPhase.noConfusion, fun h => ?_, fun h => (by cases h),
      fun _ => hs.cleared hp hflag, fun _ => hx, fun hj => ?_⟩
    · rw [hp]
      exact ThrdPhase.noConfusion
    · cases hp.symm.trans (hs.unborn hm).2
    · show s.conn.xmpp ≠ .none
      rw [hx]
      exact ConnPc.noConfusion
    · cases hflag.symm.trans h
    · cases hp.symm.trans (hs.joined hj)
  | unlock hp =>
    have hstored := hs.leaving (Or.inl hp)
    refine ⟨hs.main, fun h => absurd rfl h, fun hm => ?_, fun _ => hs.born ?_,
      fun _ => ThrdPhase.noConfusion, fun h => ?_, fun h => (by cases h), fun _ => hstored,
      fun _ => hs.asleep (Or.inl hp), fun _ => rfl⟩
    · cases hp.symm.trans (hs.unborn hm).2
    · rw [hp]
      exact ThrdPhase.noConfusion
    · cases hp.symm.trans (hs.flag h)
  | stopCalled hm hstop =>
    have hno : s.stop.stored ≠ true := by
      rw [hstop]
      exact Bool.noConfusion
    exact ⟨fun _ => hm, hs.locked, hs.unborn, hs.born, hs.connected, hs.flag,
      fun hp hflag => absurd (hs.cleared hp hflag) hno, fun hp => absurd (hs.leaving hp) hno,
      hs.asleep, fun hj => by cases hj⟩
  | stopFlag hstop =>
    have hm := hs.main (by rw [hstop]; exact XmppStopPc.noConfusion)
    exact ⟨fun _ => hm, hs.locked, hs.unborn, hs.born, hs.connected, fun h => (by cases h),
      fun _ _ => rfl, fun _ => rfl, hs.asleep, fun hj => by cases hj⟩
  | stopXmpp hstop =>
    have hm := hs.main (by rw [hstop]; exact XmppStopPc.noConfusion)
    exact ⟨fun _ => hm, hs.locked, hs.unborn, hs.born, hs.connected, hs.flag, fun _ _ => rfl,
      fun _ => rfl, hs.asleep, fun hj => by cases hj⟩
  | stopJoin hstop hp =>
    have hm := hs.main (by rw [hstop]; exact XmppStopPc.noConfusion)
    exact ⟨fun _ => hm, hs.locked, hs.unborn, hs.born, hs.connected, hs.flag, fun _ _ => rfl,
      fun _ => rfl, hs.asleep, fun _ => hp⟩
  | stopRest p hj hp =>
    have hm := hs.main (stored_ne_idle (stored_of_joined hj))
    exact ⟨fun _ => hm, hs.locked, hs.unborn, hs.born, hs.connected, hs.flag,
      fun _ _ => stored_of_joined hp, fun _ => stored_of_joined hp, hs.asleep,
      fun _ => hs.joined hj⟩

theorem inStep_reach {ok : XmppSys → XmppAct → Prop} {cfg : XmppConfig}
    (h : Reach step ok (· = initial cfg) s) : s.InStep := by
  apply h.invariant_from
  · refine ⟨fun h => absurd rfl h, fun _ h => (by cases h), fun _ => ⟨rfl, rfl⟩,
      fun h => absurd rfl h, fun h => ?_, fun h => (by cases h), fun h => (by cases h),
      fun h => ?_, fun h => ?_, fun h => by cases h⟩
    · exact absurd h (Nat.lt_irrefl 0)
    · rcases h with h | h <;> cases h
    · rcases h with h | h <;> cases h
  · exact fun _ _ _ hs _ h => inStep_step hs h

end InStep

/-! ### The loop of `ConnectWait` -/

/-- What `ConnectWait` sees: at the end the thread is still in its `sleep`, and the mutex is
not given back. -/
def view (s : XmppSys) : ConnSys := { s.conn with locked := s.conn.locked || s.phase == .exited }

section View

variable {s t : XmppSys} {a : XmppAct}

theorem view_of_ne (h : s.phase ≠ .exited) : s.view = s.conn := by
  rw [view, beq_eq_false_iff_ne.mpr h, Bool.or_false]

theorem view_eq (hconn : t.conn = s.conn) (hs : s.phase ≠ .exited) (ht : t.phase ≠ .exited) :
    t.view = s.view := by
  rw [view_of_ne hs, view_of_ne ht, hconn]

/-- Every step is a step of `ConnectWait`, the test of the flag being the way back to
`xmpp_connect_client`, or is not seen there. -/
theorem view_step (hs : s.InStep) (h : step s a = some t) : t.view = s.view ∨
    ∃ b, (a = .conn b ∨ b = .awake) ∧ ConnSys.step s.view b = some t.view := by
  cases stepTo_of_step h with
  | conn b c hnot hloop hc =>
    have hp : s.phase ≠ .exited := by
      intro hp
      have hmain := hs.main (stored_ne_idle (hs.leaving (Or.inr hp)))
      cases ConnSys.stepTo_of_step hc with
      | lock _ hm | create _ hm | createFails _ hm | wait _ hm | relock _ hm | spurious hm =>
        cases hmain.symm.trans hm
      | attempt | connected | signal | lost | runEnds | disconnect =>
        cases hp.symm.trans (hloop rfl)
      | awake => exact hnot rfl
    refine Or.inr ⟨b, Or.inl rfl, ?_⟩
    rw [view_of_ne hp, hc]
    exact congrArg some (@view_of_ne { s with conn := c, attempts := _ } hp).symm
  | begins hp =>
    refine Or.inl (view_eq rfl ?_ ThrdPhase.noConfusion)
    rw [hp]
    exact ThrdPhase.noConfusion
  | again c hp hflag hc =>
    have hne : s.phase ≠ .exited := by
      rw [hp]
      exact ThrdPhase.noConfusion
    refine Or.inr ⟨.awake, Or.inr rfl, ?_⟩
    rw [view_of_ne hne, hc]
    exact congrArg some (@view_of_ne { s with conn := c } hne).symm
  | leaves hp =>
    refine Or.inl (view_eq rfl ?_ ThrdPhase.noConfusion)
    rw [hp]
    exact ThrdPhase.noConfusion
  | unlock hp =>
    left
    have hne : s.phase ≠ .exited := by
      rw [hp]
      exact ThrdPhase.noConfusion
    have hlocked := hs.locked hne (hs.main (stored_ne_idle (hs.leaving (Or.inl hp))))
    have hsame : { s.conn with locked := true } = s.conn := by rw [← hlocked]
    rw [view_of_ne hne]
    exact (congrArg (fun b => { s.conn with locked := b }) (Bool.or_true false)).trans hsame
  | stopCalled | stopFlag | stopXmpp | stopJoin | stopRest => exact Or.inl rfl

end View

/-! ### Main results -/

/-- No wake-up of the main thread without a signal. -/
def Signalled (_ : XmppSys) (a : XmppAct) : Prop := a ≠ .conn .spurious

instance (s : XmppSys) (a : XmppAct) : Decidable (Signalled s a) :=
  inferInstanceAs (Decidable (a ≠ .conn .spurious))

def Lost (s : XmppSys) : Prop := s.stop.stored = true ∧ s.doReconnect = true

section Main

variable {cfg : XmppConfig} {s t : XmppSys}

/-- A guard that a step and what is seen of it have in common goes over to the run. -/
theorem view_reach_of {ok : XmppSys → XmppAct → Prop} {okV : ConnSys → ConnSys.ConnAct → Prop}
    (hok : ∀ u a b, ok u a → a = .conn b ∨ b = .awake → okV (view u) b)
    (h : Reach step ok (· = initial cfg) s) :
    Reach ConnSys.step okV (· = ConnSys.initial cfg) s.view := by
  refine h.simulates view ?_ ?_
  · intro u hu
    rw [hu]
    rfl
  · intro u a v hu ha hst
    rcases view_step (inStep_reach hu) hst with hsame | ⟨b, hb, hbstep⟩
    · exact Or.inl hsame
    · exact Or.inr ⟨b, hok u a b ha hb, hbstep⟩

theorem view_reach (h : Reach step Signalled (· = initial cfg) s) :
    Reach ConnSys.step ConnSys.Signalled (· = ConnSys.initial cfg) s.view := by
  refine view_reach_of ?_ h
  intro u a b ha hb
  rcases hb with rfl | rfl
  · exact fun hspurious => ha (congrArg XmppAct.conn hspurious)
  · exact ConnSys.ConnAct.noConfusion

/-- **The loop of `ConnectWait` is that of the whole thread.**  In every run what `view` shows
is a run of `ConnSys`, without spurious wake-ups if the run has none; until the thread has
ended it is the connection itself. -/
theorem xmpp_simulates (h : Reach step anyStep (· = initial cfg) s) :
    Reach ConnSys.step anyStep (· = ConnSys.initial cfg) s.view ∧
      (Reach step Signalled (· = initial cfg) s →
        Reach ConnSys.step ConnSys.Signalled (· = ConnSys.initial cfg) s.view) ∧
      (s.phase ≠ .exited → s.view = s.conn) :=
  ⟨view_reach_of (fun _ _ _ _ _ => trivial) h, view_reach, view_of_ne⟩

/-- Without spurious wake-ups the thread has started when a stop is called. -/
theorem started_of_stop (h : Reach step Signalled (· = initial cfg) s) (hstop : s.stop ≠ .idle) :
    s.phase ≠ .starting := by
  have hs := inStep_reach h
  have hwoken := ConnSys.wokenByConnect_reach (view_reach h) (Or.inr (hs.main hstop))
  exact hs.connected hwoken

/-- Behind `do_reconnect = 0` the flag is clear. -/
theorem cleared_reach (h : Reach step Signalled (· = initial cfg) s)
    (hstop : s.stop.stored = true) :
    s.doReconnect = false := by
  revert hstop
  refine h.invariant_of (I := fun u => u.InStep ∧ (u.stop ≠ .idle → u.phase ≠ .starting))
    (J := fun u => u.stop.stored = true → u.doReconnect = false) ?_ ?_ ?_
  · exact fun u hu => ⟨inStep_reach hu, started_of_stop hu⟩
  · intro u hu hstop
    rw [hu] at hstop
    cases hstop
  · intro u a v hu hflag _ hst hstop
    obtain ⟨-, hstarted⟩ := hu
    cases stepTo_of_step hst with
    | begins hp => exact absurd hp (hstarted (stored_ne_idle hstop))
    | stopCalled => cases hstop
    | stopFlag => rfl
    | stopXmpp h | stopJoin h =>
      refine hflag ?_
      rw [h]
      rfl
    | stopRest p hj => exact hflag (stored_of_joined hj)
    | conn | again | leaves | unlock => exact hflag hstop

/-- A connection attempt takes the thread away from `xmpp_connect_client`, and nothing in
the loop's body brings it back. -/
theorem attempts_conn {b : ConnSys.ConnAct} {c : ConnSys} {n : Nat} (hs : s.InStep)
    (hphase : s.phase ≠ .starting) (hnot : b ≠ .awake) (hc : ConnSys.step s.conn b = some c)
    (hn : s.attempts ≤ n ∨ s.attempts = n + 1 ∧ s.conn.xmpp ≠ .connect) :
    s.attempts + b.isAttempt.toNat ≤ n ∨
      s.attempts + b.isAttempt.toNat = n + 1 ∧ c.xmpp ≠ .connect := by
  cases ConnSys.stepTo_of_step hc with
  | lock | createFails | wait | relock | spurious => exact hn
  | create _ hm => exact absurd (hs.unborn (Or.inr hm)).2 hphase
  | attempt ok hx =>
    have hle : s.attempts ≤ n := hn.resolve_right fun h => h.2 hx
    by_cases hlt : s.attempts < n
    · exact Or.inl hlt
    · refine Or.inr ⟨?_, ?_⟩
      · show s.attempts + 1 = n + 1
        omega
      · cases ok <;> exact ConnPc.noConfusion
  | connected | signal | runEnds | disconnect =>
    exact hn.imp_right fun h => ⟨h.1, ConnPc.noConfusion⟩
  | lost => exact hn
  | awake => exact absurd rfl hnot

/-- From a clear flag on the thread connects at most once more. -/
theorem attempts_le (hs : s.InStep) (hphase : s.phase ≠ .starting) (hflag : s.doReconnect = false)
    (h : Reach step anyStep (· = s) t) : t.attempts ≤ s.attempts + 1 := by
  have hinv : (t.InStep ∧ t.phase ≠ .starting ∧ t.doReconnect = false) ∧
      (t.attempts ≤ s.attempts ∨ t.attempts = s.attempts + 1 ∧ t.conn.xmpp ≠ .connect) := by
    apply h.invariant_from
    · exact ⟨⟨hs, hphase, hflag⟩, Or.inl (Nat.le_refl _)⟩
    · intro u a v hu _ hst
      obtain ⟨⟨hin, hp, hf⟩, hn⟩ := hu
      have hinv := inStep_step hin hst
      cases stepTo_of_step hst with
      | conn b c hnot hloop hc => exact ⟨⟨hinv, hp, hf⟩, attempts_conn hin hp hnot hc hn⟩
      | begins hstart => exact absurd hstart hp
      | again c _ hset => cases hf.symm.trans hset
      | leaves | unlock => exact ⟨⟨hinv, ThrdPhase.noConfusion, hf⟩, hn⟩
      | stopFlag => exact ⟨⟨hinv, hp, rfl⟩, hn⟩
      | stopCalled | stopXmpp | stopJoin | stopRest => exact ⟨⟨hinv, hp, hf⟩, hn⟩
  omega

/-- **The end of the XMPP thread.**  Without a spurious wake-up of the main thread, in every
run: behind `do_reconnect = 0` the flag stays clear and the thread connects at most once
more; and when `irxmpp_stopThread` comes to release the connection, the thread has ended. -/
theorem xmpp_stop_ends (h : Reach step Signalled (· = initial cfg) s) :
    (s.stop.stored = true → s.doReconnect = false ∧
      ∀ t, Reach step anyStep (· = s) t → t.attempts ≤ s.attempts + 1) ∧
    (s.stop.joined = true → s.phase = .exited) := by
  have hs := inStep_reach h
  refine ⟨fun hstop => ?_, hs.joined⟩
  have hflag := cleared_reach h hstop
  exact ⟨hflag, fun t ht => attempts_le hs (started_of_stop h (stored_ne_idle hstop)) hflag ht⟩

section Witness

def stopRun : List XmppAct :=
  [.conn (.main 0), .conn (.main 0), .conn (.main 0), .begins, .conn (.attempt true),
    .conn .connected, .conn .signal, .conn (.main 0), .stop, .stop, .stop]

theorem stopRun_isSome :
    (exec step Signalled (initial ConnSys.fullConfig) stopRun).isSome := by decide

def stopRunEnd : XmppSys :=
  (exec step Signalled (initial ConnSys.fullConfig) stopRun).get stopRun_isSome

theorem stopRunEnd_reach : Reach step Signalled (· = initial ConnSys.fullConfig) stopRunEnd :=
  reach_get _ _ stopRun_isSome

/-- `xmpp_simulates` at the join. -/
theorem xmpp_simulates_run : stopRunEnd.view = stopRunEnd.conn :=
  (xmpp_simulates stopRunEnd_reach.any).2.2 (by decide)

/-- `xmpp_stop_ends` at the join. -/
theorem xmpp_stop_ends_run : stopRunEnd.stop = .join ∧ stopRunEnd.doReconnect = false :=
  ⟨by decide, ((xmpp_stop_ends stopRunEnd_reach).1 (by decide)).1⟩

end Witness

/-- **A lost stop.**  If in a reachable state the flag is set behind `do_reconnect = 0`, the
thread never ends: in every later state it is in its loop, the flag is set, and
`pthread_join` has not returned. -/
theorem xmpp_stop_lost (h : Reach step anyStep (· = initial cfg) s) (hlost : s.Lost)
    (ht : Reach step anyStep (· = s) t) :
    t.Lost ∧ t.phase = .looping ∧ t.stop.joined = false := by
  have hinv : t.InStep ∧ t.Lost := by
    apply ht.invariant_from
    · exact ⟨inStep_reach h, hlost⟩
    · intro u a v hu _ hst
      obtain ⟨hin, hstored, hflag⟩ := hu
      refine ⟨inStep_step hin hst, ?_⟩
      cases stepTo_of_step hst with
      | begins => exact ⟨hstored, rfl⟩
      | leaves _ hclear => cases hflag.symm.trans hclear
      | stopCalled _ hstop | stopFlag hstop =>
        rw [hstop] at hstored
        cases hstored
      | stopXmpp | stopJoin => exact ⟨rfl, hflag⟩
      | stopRest p _ hp => exact ⟨stored_of_joined hp, hflag⟩
      | conn | again | unlock => exact ⟨hstored, hflag⟩
  obtain ⟨hin, hlost'⟩ := hinv
  have hphase := hin.flag hlost'.2
  refine ⟨hlost', hphase, ?_⟩
  cases hj : t.stop.joined with
  | false => rfl
  | true => cases hphase.symm.trans (hin.joined hj)

section Witness

def lostRun : List XmppAct :=
  [.conn (.main 0), .conn (.main 0), .conn (.main 0), .conn .spurious, .conn (.main 0), .stop,
    .stop, .begins]

theorem lostRun_isSome :
    (exec step anyStep (initial ConnSys.fullConfig) lostRun).isSome := by decide

def lostRunEnd : XmppSys :=
  (exec step anyStep (initial ConnSys.fullConfig) lostRun).get lostRun_isSome

def lostRound : List XmppAct := [.conn (.attempt false), .test, .stop]

theorem lostRound_isSome : (exec step anyStep lostRunEnd lostRound).isSome := by decide

/-- `xmpp_stop_lost` after a round of the loop. -/
theorem xmpp_stop_lost_round :
    ((exec step anyStep lostRunEnd lostRound).get lostRound_isSome).stop = .join ∧
    ((exec step anyStep lostRunEnd lostRound).get lostRound_isSome).phase = .looping :=
  ⟨by decide, (xmpp_stop_lost (reach_get _ _ lostRun_isSome) ⟨by decide, by decide⟩
    (reach_get lostRunEnd _ lostRound_isSome)).2.1⟩

end Witness

/-! ### The stop can come to its end -/

/-- The thread can end without a further step of `irxmpp_stopThread`. -/
def CanEnd (s : XmppSys) : Prop :=
  ∃ t, Reach step Signalled (· = s) t ∧ t.phase = .exited ∧ t.stop = s.stop

theorem canEnd_of_step {u : XmppSys} {a : XmppAct} (ha : Signalled s a) (h : step s a = some u)
    (hstop : u.stop = s.stop) (hu : u.CanEnd) : s.CanEnd := by
  obtain ⟨t, ht, hp, hs⟩ := hu
  have hfirst : Reach step Signalled (· = s) u := .next (.start rfl) ha h
  exact ⟨t, hfirst.trans ht, hp, hs.trans hstop⟩

theorem canEnd_of_conn {b : ConnSys.ConnAct} {c : ConnSys} (hphase : s.phase = .looping)
    (hawake : b ≠ .awake) (hspurious : b ≠ .spurious) (hc : ConnSys.step s.conn b = some c)
    (h : CanEnd { s with conn := c, attempts := s.attempts + b.isAttempt.toNat }) : s.CanEnd := by
  refine @canEnd_of_step s { s with conn := c, attempts := _ } (.conn b)
    (fun hb => hspurious (XmppAct.conn.inj hb)) ?_ rfl h
  show connStep s b = _
  rw [connStep, if_neg (by simp [hawake, hphase]), hc]
  rfl

theorem canEnd_looping (hphase : s.phase = .looping) (hflag : s.doReconnect = false)
    (hx : s.conn.xmpp ≠ .none) : s.CanEnd := by
  have hsleep : ∀ u : XmppSys, u.phase = .looping → u.doReconnect = false →
      u.conn.xmpp = .sleep → u.CanEnd := by
    intro u hp hf hxu
    refine @canEnd_of_step u { u with phase := .ending } .test XmppAct.noConfusion ?_ rfl ?_
    · simp [step, hp, hf, hxu]
    · exact ⟨_, .next (a := .unlock) (.start rfl) XmppAct.noConfusion rfl, rfl, rfl⟩
  have hdisconnect : ∀ u : XmppSys, u.phase = .looping → u.doReconnect = false →
      u.conn.xmpp = .disconnect → u.CanEnd := by
    intro u hp hf hxu
    exact @canEnd_of_conn u .disconnect _ hp ConnSys.ConnAct.noConfusion
      ConnSys.ConnAct.noConfusion (if_pos hxu) (hsleep _ hp hf rfl)
  have hrun : ∀ u : XmppSys, u.phase = .looping → u.doReconnect = false →
      u.conn.xmpp = .run → u.CanEnd := by
    intro u hp hf hxu
    exact @canEnd_of_conn u .runEnds _ hp ConnSys.ConnAct.noConfusion
      ConnSys.ConnAct.noConfusion (if_pos hxu) (hdisconnect _ hp hf rfl)
  cases hplace : s.conn.xmpp with
  | none => exact absurd hplace hx
  | sleep => exact hsleep s hphase hflag hplace
  | disconnect => exact hdisconnect s hphase hflag hplace
  | run => exact hrun s hphase hflag hplace
  | connect =>
    exact @canEnd_of_conn s (.attempt false) _ hphase ConnSys.ConnAct.noConfusion
      ConnSys.ConnAct.noConfusion (if_pos hplace) (hsleep _ hphase hflag rfl)
  | signal =>
    exact @canEnd_of_conn s .signal _ hphase ConnSys.ConnAct.noConfusion
      ConnSys.ConnAct.noConfusion (if_pos hplace) (hrun _ hphase hflag rfl)

/-- `irxmpp_stopThread` can come to its end. -/
def CanFinish (s : XmppSys) : Prop := ∃ t, Reach step Signalled (· = s) t ∧ t.stop = .done

theorem canFinish_of_reach {u : XmppSys} (h : Reach step Signalled (· = s) u)
    (hu : u.CanFinish) : s.CanFinish := by
  obtain ⟨t, ht, hdone⟩ := hu
  exact ⟨t, h.trans ht, hdone⟩

theorem canFinish_of_stopStep {u : XmppSys} (h : stopStep s = some u) (hu : u.CanFinish) :
    s.CanFinish :=
  canFinish_of_reach (.next (a := .stop) (.start rfl) XmppAct.noConfusion h) hu

theorem canFinish_exited (hp : s.phase = .exited) (hstored : s.stop.stored = true) :
    s.CanFinish := by
  have hshutdown : ∀ u : XmppSys, u.stop = .shutdown → u.CanFinish := by
    intro u hu
    exact @canFinish_of_stopStep u { u with stop := .done } (by rw [stopStep, hu])
      ⟨_, .start rfl, rfl⟩
  have hctx : ∀ u : XmppSys, u.stop = .ctxFree → u.CanFinish := by
    intro u hu
    exact @canFinish_of_stopStep u { u with stop := .shutdown } (by rw [stopStep, hu])
      (hshutdown _ rfl)
  have hrelease : ∀ u : XmppSys, u.stop = .connRelease → u.CanFinish := by
    intro u hu
    exact @canFinish_of_stopStep u { u with stop := .ctxFree } (by rw [stopStep, hu])
      (hctx _ rfl)
  have hjoin : ∀ u : XmppSys, u.phase = .exited → u.stop = .join → u.CanFinish := by
    intro u hpu hu
    exact @canFinish_of_stopStep u { u with stop := .connRelease }
      (by rw [stopStep, hu]; exact if_pos hpu) (hrelease _ rfl)
  cases hstop : s.stop with
  | idle | flag =>
    rw [hstop] at hstored
    cases hstored
  | xmppStop =>
    exact @canFinish_of_stopStep s { s with stop := .join } (by rw [stopStep, hstop])
      (hjoin _ hp rfl)
  | join => exact hjoin s hp hstop
  | connRelease => exact hrelease s hstop
  | ctxFree => exact hctx s hstop
  | shutdown => exact hshutdown s hstop
  | done => exact ⟨s, .start rfl, hstop⟩

theorem canFinish_stored (h : Reach step Signalled (· = initial cfg) s)
    (hstored : s.stop.stored = true) : s.CanFinish := by
  have hs := inStep_reach h
  have hne := started_of_stop h (stored_ne_idle hstored)
  have hend : s.CanEnd := by
    cases hp : s.phase with
    | starting => exact absurd hp hne
    | looping => exact canEnd_looping hp (cleared_reach h hstored) (hs.born hne)
    | ending =>
      exact ⟨_, .next (a := .unlock) (.start rfl) XmppAct.noConfusion (if_pos hp), rfl, rfl⟩
    | exited => exact ⟨s, .start rfl, hp, rfl⟩
  obtain ⟨t, ht, hp, hstop⟩ := hend
  exact canFinish_of_reach ht (canFinish_exited hp (hstop ▸ hstored))

/-- **The stop does not block.**  Without a spurious wake-up of the main thread, from every
reachable state in which `irxmpp_stopThread` has been called it can come to its end. -/
theorem xmpp_stop_finishes (h : Reach step Signalled (· = initial cfg) s)
    (hstop : s.stop ≠ .idle) : ∃ t, Reach step Signalled (· = s) t ∧ t.stop = .done := by
  cases hflag : s.stop with
  | idle => exact absurd hflag hstop
  | flag =>
    have hnext : step s .stop = some { s with stop := .xmppStop, doReconnect := false } := by
      rw [step, stopStep, hflag]
    exact canFinish_of_stopStep hnext
      (canFinish_stored (.next h XmppAct.noConfusion hnext) rfl)
  | xmppStop | join | connRelease | ctxFree | shutdown | done =>
    exact canFinish_stored h (by rw [hflag]; rfl)

/-- `xmpp_stop_finishes` from the join. -/
theorem xmpp_stop_finishes_run :
    ∃ t, Reach step Signalled (· = stopRunEnd) t ∧ t.stop = .done :=
  xmpp_stop_finishes stopRunEnd_reach (by decide)

end Main

end XmppSys

end Raspberries.IrAlarm
