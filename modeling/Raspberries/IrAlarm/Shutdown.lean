import Raspberries.IrAlarm.LockSys
import Raspberries.IrAlarm.Siren

/-!
# The `SIGTERM` handler

The handler runs in the main thread, which takes signals only in its `usleep`.  It stops
the alarm worker and then the status worker, sets all outputs to `0`, removes the shared
memory segment and the semaphore, and exits.

`DownSys` is the system of `SirenSys` with the status worker, the remaining pins and the
handler.  The calls of `irthread_stop` take their steps one by one among those of the
workers, and a condition wait may return without a signal.  `sigterm_pins_low` says that
`irpio_lowall` begins when both workers have ended, so that all outputs are low from its
end on.  With `DO_XMPP` the XMPP thread is stopped first (see `XmppStop`); it touches no
pin.
-/

namespace Raspberries.IrAlarm

open Transition

inductive Pinout
  | irled
  | irecv
  | spekr
  | alarm
  | stats
  deriving DecidableEq, Repr

def Pinout.all : List Pinout := [.irled, .irecv, .spekr, .alarm, .stats]

theorem Pinout.mem_all (p : Pinout) : p ∈ Pinout.all := by
  cases p <;> decide

/-- How far the handler is: not called, before `irthread_stop` of a worker or in it, in
`irpio_lowall` with these pins left, before each of the calls behind it, or at the end. -/
inductive DownPc
  | up
  | stop (w : Worker)
  | stopping (w : Worker)
  | lowall (ps : List Pinout)
  | memFree
  | semRemove
  | logClose
  | exited
  deriving DecidableEq, Repr

def DownPc.past : DownPc → Worker → Bool
  | .up, _ | .stop .alarm, _ | .stopping .alarm, _ => false
  | .stop .status, w | .stopping .status, w => w == .alarm
  | .lowall _, _ | .memFree, _ | .semRemove, _ | .logClose, _ | .exited, _ => true

/-- The pins that `irpio_lowall` has still to set; all of them before it. -/
def DownPc.left : DownPc → List Pinout
  | .up | .stop _ | .stopping _ => Pinout.all
  | .lowall ps => ps
  | .memFree | .semRemove | .logClose | .exited => []

def Event.statusAct : Event → Option (ThreadSys.Act AlrmState)
  | .setdata .status data => some (.setdata 0 data)
  | .resume .status => some (.resume 0)
  | .setdata .alarm _ | .resume .alarm | .doAlarmAction _ | .undoAlarmAction _ => none

/-- `statusCode` is the rest of `status_led`, `none` before it has read its two times. -/
structure DownSys where
  siren : SirenSys
  status : ThreadSys AlrmState
  statusCode : Option (List StatusInstr)
  stats : Nat
  irled : Nat
  down : DownPc

/-- The parties' steps.  `sigterm` interrupts the sleep of the main loop. -/
inductive DownAct
  | main
  | cycle (t : Tick)
  | sighup (c : Settings)
  | sigterm
  | handler
  | alarmWorker
  | statusWorker
  | spurious (w : Worker)
  deriving DecidableEq, Repr

namespace DownSys

def initial (c : Settings) : DownSys where
  siren := .initial c
  status := .initial .none
  statusCode := none
  stats := 0
  irled := 1023
  down := .up

/-- What is on a pin; nothing is written to an input. -/
def level (s : DownSys) : Pinout → Nat
  | .irled => s.irled
  | .irecv => 0
  | .spekr => s.siren.pins .spekr
  | .alarm => s.siren.pins .alarm
  | .stats => s.stats

def setLow (s : DownSys) : Pinout → DownSys
  | .irled => { s with irled := 0 }
  | .irecv => s
  | .spekr => { s with siren := { s.siren with pins := Function.update s.siren.pins .spekr 0 } }
  | .alarm => { s with siren := { s.siren with pins := Function.update s.siren.pins .alarm 0 } }
  | .stats => { s with stats := 0 }

def nextStatusAct (s : DownSys) : Option (ThreadSys.Act AlrmState) :=
  match s.siren.thread.calls 0, s.siren.main with
  | .idle, .calls (e :: _) => e.statusAct
  | _, _ => none

def mainStep (s : DownSys) : Option DownSys :=
  match s.status.calls 0 with
  | .idle =>
    match s.nextStatusAct with
    | some a =>
      s.siren.mainStep.bind fun u => (s.status.step a).map fun v =>
        { s with siren := u, status := v }
    | none => s.siren.mainStep.map fun u => { s with siren := u }
  | _ => (s.status.step (.call 0)).map fun v => { s with status := v }

def statusStep (s : DownSys) : Option DownSys :=
  match s.status.worker with
  | .callback data none =>
    match s.statusCode with
    | none =>
      let c := s.siren.settings
      some { s with statusCode := some (statusLed c.sStatusledOn c.sStatusledOff data) }
    | some [] =>
      (s.status.step .callbackReturn).map fun v => { s with status := v, statusCode := none }
    | some (.digitalWrite value :: rest) =>
      some { s with stats := value, statusCode := some rest }
    | some (.usleep _ :: rest) => some { s with statusCode := some rest }
  | _ => (s.status.step .worker).map fun v => { s with status := v }

def threadStep (s : DownSys) (w : Worker) (a : ThreadSys.Act AlrmState) : Option DownSys :=
  match w with
  | .alarm => (s.siren.thread.step a).map fun u => { s with siren := { s.siren with thread := u } }
  | .status => (s.status.step a).map fun v => { s with status := v }

def thread (s : DownSys) : Worker → ThreadSys AlrmState
  | .alarm => s.siren.thread
  | .status => s.status

def handlerStep (s : DownSys) : Option DownSys :=
  match s.down with
  | .up => none
  | .stop w => (s.threadStep w (.stop 0)).map fun u => { u with down := .stopping w }
  | .stopping w =>
    match (s.thread w).calls 0 with
    | .idle =>
      some { s with down := match w with
        | .alarm => .stop .status
        | .status => .lowall Pinout.all }
    | _ => s.threadStep w (.call 0)
  | .lowall [] => some { s with down := .memFree }
  | .lowall (p :: ps) => some { s.setLow p with down := .lowall ps }
  | .memFree => some { s with down := .semRemove }
  | .semRemove => some { s with down := .logClose }
  | .logClose => some { s with down := .exited }
  | .exited => none

/-- The system with counters modulo `M`.  `exit` ends all threads. -/
def step (M : Nat) (s : DownSys) (a : DownAct) : Option DownSys :=
  if s.down = .exited then none
  else
    match a with
    | .main => if s.down = .up then s.mainStep else none
    | .cycle t =>
      if s.down = .up then (SirenSys.step M s.siren (.cycle t)).map fun u => { s with siren := u }
      else none
    | .sighup c =>
      if s.down = .up then (SirenSys.step M s.siren (.sighup c)).map fun u => { s with siren := u }
      else none
    | .sigterm =>
      match s.down, s.siren.main with
      | .up, .sleep => some { s with down := .stop .alarm }
      | _, _ => none
    | .handler => s.handlerStep
    | .alarmWorker => s.siren.workerStep.map fun u => { s with siren := u }
    | .statusWorker => s.statusStep
    | .spurious w => s.threadStep w .spurious

end DownSys

/-! ### A thread that is stopped -/

namespace ThreadSys

variable {α : Type*} {u v : ThreadSys α} {a : Act α}

def Act.ofWorker (a : Act α) : Prop :=
  a = .worker ∨ a = .callbackReturn ∨ a = .callbackSuspend ∨ a = .spurious

/-- Caller `0` is in `irthread_stop`, or has come out of it and the worker has ended. -/
def StoppedBy0 (u : ThreadSys α) : Prop :=
  (∃ p, u.calls 0 = .stop p) ∨ u.calls 0 = .idle ∧ u.worker = .exited

theorem exited_step (hu : u.worker = .exited) (h : step u a = some v) : v.worker = .exited := by
  rcases step_cases h with ⟨-, h⟩ | ⟨i, -, h⟩ | ⟨i, c, b, -, -, rfl⟩ | ⟨w, hleaves, rfl⟩
  · rw [workerStep, hu] at h
    cases h
  · rcases (callStep_cases h).2.1 with hw | ⟨hw, -⟩
    · rw [hw, hu]
    · rcases condSignal_worker u with ⟨-, hwaits⟩ | ⟨hsame, -⟩
      · cases hu.symm.trans hwaits
      · rw [hw, hsame, hu]
  · exact hu
  · rcases hleaves with ⟨data, hw, -⟩ | ⟨hw, -⟩
    · cases hu.symm.trans hw
    · cases hu.symm.trans hw

theorem calls_of_ofWorker (ha : a.ofWorker) (h : step u a = some v) : v.calls = u.calls := by
  rcases ha with rfl | rfl | rfl | rfl
  · exact (workerStep_cases h).1
  all_goals
    rw [step] at h
    split at h
    · obtain rfl := Option.some.inj h
      rfl
    · cases h

theorem stoppedBy0_worker (ha : a.ofWorker) (hu : u.StoppedBy0) (h : step u a = some v) :
    v.StoppedBy0 := by
  rw [StoppedBy0, calls_of_ofWorker ha h]
  exact hu.imp_right fun hidle => ⟨hidle.1, exited_step hidle.2 h⟩

theorem stoppedBy0_call (hu : u.StoppedBy0) (h : step u (.call 0) = some v) : v.StoppedBy0 := by
  rcases hu with ⟨p, hp⟩ | ⟨hidle, -⟩
  · cases callStepTo_of_step h with
    | suspend _ _ hc | refused hc | resumeTest hc | resumeStore hc | resumeSignal hc
    | setdataLock _ hc | setdataStore _ hc | setdataUnlock _ hc => cases hp.symm.trans hc
    | stopSuspend | stopUsed | stopActv | stopSignal | stopCancel =>
      exact Or.inl ⟨_, setCall_calls_self ..⟩
    | stopJoin _ hw => exact Or.inr ⟨setCall_calls_self .., hw⟩
  · have hcall : callStep u 0 = some v := h
    rw [callStep, hidle] at hcall
    cases hcall

end ThreadSys

namespace DownSys

/-! ### What the workers do -/

/-- A step of a worker: it moves its own thread, if any, and writes a pin only while it has
not ended. -/
structure WorkerMove (s t : DownSys) : Prop where
  down : t.down = s.down
  thread : ∀ w, t.thread w = s.thread w ∨
    ∃ a : ThreadSys.Act AlrmState, a.ofWorker ∧ (s.thread w).step a = some (t.thread w)
  level : (∀ p, t.level p = s.level p) ∨ ∃ w, (s.thread w).worker ≠ .exited

section Step

variable {M : Nat} {s t : DownSys}

theorem sirenWorker_cases {u v : SirenSys} (h : u.workerStep = some v) :
    (v.thread = u.thread ∨ ∃ a : ThreadSys.Act AlrmState, a.ofWorker ∧
      u.thread.step a = some v.thread) ∧
    (v.pins = u.pins ∨ u.thread.worker ≠ .exited) := by
  rw [SirenSys.workerStep] at h
  split at h
  next data hw =>
    have hin : u.thread.worker ≠ .exited := by
      intro hexited
      cases hw.symm.trans hexited
    split at h
    · obtain rfl := Option.some.inj h
      exact ⟨Or.inl rfl, Or.inl rfl⟩
    · obtain ⟨x, hx, rfl⟩ := Option.map_eq_some_iff.mp h
      exact ⟨Or.inr ⟨_, Or.inr (Or.inl rfl), hx⟩, Or.inl rfl⟩
    · obtain rfl := Option.some.inj h
      exact ⟨Or.inl rfl, Or.inr hin⟩
    · obtain rfl := Option.some.inj h
      exact ⟨Or.inl rfl, Or.inl rfl⟩
    · obtain ⟨x, hx, rfl⟩ := Option.map_eq_some_iff.mp h
      exact ⟨Or.inr ⟨_, Or.inr (Or.inr (Or.inl rfl)), hx⟩, Or.inl rfl⟩
  next =>
    obtain ⟨x, hx, rfl⟩ := Option.map_eq_some_iff.mp h
    exact ⟨Or.inr ⟨_, Or.inl rfl, hx⟩, Or.inl rfl⟩

theorem workerMove_alarm {v : SirenSys} (h : s.siren.workerStep = some v) :
    WorkerMove s { s with siren := v } := by
  obtain ⟨hthread, hpins⟩ := sirenWorker_cases h
  refine ⟨rfl, fun w => ?_, ?_⟩
  · cases w with
    | alarm => exact hthread
    | status => exact Or.inl rfl
  · refine hpins.imp (fun hsame p => ?_) (fun hin => ⟨.alarm, hin⟩)
    cases p with
    | spekr | alarm => exact congrFun hsame _
    | irled | irecv | stats => rfl

theorem workerMove_status (h : s.statusStep = some t) : WorkerMove s t := by
  rw [statusStep] at h
  split at h
  next data hw =>
    have hin : (s.thread .status).worker ≠ .exited := by
      intro hexited
      cases hw.symm.trans hexited
    split at h
    · obtain rfl := Option.some.inj h
      exact ⟨rfl, fun w => Or.inl (by cases w <;> rfl), Or.inl fun p => by cases p <;> rfl⟩
    · obtain ⟨x, hx, rfl⟩ := Option.map_eq_some_iff.mp h
      refine ⟨rfl, fun w => ?_, Or.inl fun p => by cases p <;> rfl⟩
      cases w with
      | alarm => exact Or.inl rfl
      | status => exact Or.inr ⟨_, Or.inr (Or.inl rfl), hx⟩
    · obtain rfl := Option.some.inj h
      exact ⟨rfl, fun w => Or.inl (by cases w <;> rfl), Or.inr ⟨.status, hin⟩⟩
    · obtain rfl := Option.some.inj h
      exact ⟨rfl, fun w => Or.inl (by cases w <;> rfl), Or.inl fun p => by cases p <;> rfl⟩
  next =>
    obtain ⟨x, hx, rfl⟩ := Option.map_eq_some_iff.mp h
    refine ⟨rfl, fun w => ?_, Or.inl fun p => by cases p <;> rfl⟩
    cases w with
    | alarm => exact Or.inl rfl
    | status => exact Or.inr ⟨_, Or.inl rfl, hx⟩

theorem threadStep_cases {w : Worker} {a : ThreadSys.Act AlrmState}
    (h : s.threadStep w a = some t) :
    t.down = s.down ∧ (s.thread w).step a = some (t.thread w) ∧
      (∀ x, x ≠ w → t.thread x = s.thread x) ∧ ∀ p, t.level p = s.level p := by
  cases w with
  | alarm =>
    obtain ⟨u, hu, rfl⟩ := Option.map_eq_some_iff.mp h
    refine ⟨rfl, hu, fun x hx => ?_, fun p => by cases p <;> rfl⟩
    cases x with
    | alarm => exact absurd rfl hx
    | status => rfl
  | status =>
    obtain ⟨u, hu, rfl⟩ := Option.map_eq_some_iff.mp h
    refine ⟨rfl, hu, fun x hx => ?_, fun p => by cases p <;> rfl⟩
    cases x with
    | alarm => rfl
    | status => exact absurd rfl hx

theorem workerMove_spurious {w : Worker} (h : s.threadStep w .spurious = some t) :
    WorkerMove s t := by
  obtain ⟨hdown, hstep, hother, hlevel⟩ := threadStep_cases h
  refine ⟨hdown, fun x => ?_, Or.inl hlevel⟩
  by_cases hx : x = w
  · rw [hx]
    exact Or.inr ⟨_, Or.inr (Or.inr (Or.inr rfl)), hstep⟩
  · exact Or.inl (hother x hx)

/-! ### What every run keeps -/

/-- A worker whose stop has returned has ended, a stop under way is one, and the pins that
`irpio_lowall` has set are low. -/
structure Ends (s : DownSys) : Prop where
  past : ∀ w, s.down.past w = true → (s.thread w).worker = .exited
  stopping : ∀ w, s.down = .stopping w → (s.thread w).StoppedBy0
  low : ∀ p, p ∉ s.down.left → s.level p = 0

theorem past_of_not_left {d : DownPc} {p : Pinout} (h : p ∉ d.left) (w : Worker) :
    d.past w = true := by
  cases d with
  | up | stop | stopping => exact absurd (Pinout.mem_all p) h
  | lowall | memFree | semRemove | logClose | exited => cases w <;> rfl

theorem ends_of_up (h : s.down = .up) : s.Ends := by
  refine ⟨fun w hw => ?_, fun w hw => ?_, fun p hp => ?_⟩
  · rw [h] at hw
    cases w <;> cases hw
  · cases h.symm.trans hw
  · rw [h] at hp
    exact absurd (Pinout.mem_all p) hp

theorem ends_workerMove (hs : s.Ends) (h : WorkerMove s t) : t.Ends := by
  have hexited : ∀ w, (s.thread w).worker = .exited → (t.thread w).worker = .exited := by
    intro w hw
    rcases h.thread w with hsame | ⟨a, -, ha⟩
    · rw [hsame, hw]
    · exact ThreadSys.exited_step hw ha
  refine ⟨fun w hw => ?_, fun w hw => ?_, fun p hp => ?_⟩
  · rw [h.down] at hw
    exact hexited w (hs.past w hw)
  · rw [h.down] at hw
    have hstopped := hs.stopping w hw
    rcases h.thread w with hsame | ⟨a, hofWorker, ha⟩
    · rwa [hsame]
    · exact ThreadSys.stoppedBy0_worker hofWorker hstopped ha
  · rw [h.down] at hp
    rcases h.level with hsame | ⟨w, hw⟩
    · rw [hsame p]
      exact hs.low p hp
    · exact absurd (hs.past w (past_of_not_left hp w)) hw

theorem setLow_thread (p : Pinout) (w : Worker) : (s.setLow p).thread w = s.thread w := by
  cases p <;> cases w <;> rfl

theorem setLow_level_self (p : Pinout) : (s.setLow p).level p = 0 := by
  cases p <;> rfl

theorem setLow_level_of_ne {p q : Pinout} (h : q ≠ p) : (s.setLow p).level q = s.level q := by
  cases p with
  | irecv => rfl
  | irled | stats => cases q <;> first | rfl | exact absurd rfl h
  | spekr | alarm => cases q <;> first | rfl | exact absurd rfl h

theorem stoppedBy0_of_stop {u v : ThreadSys AlrmState} (h : u.step (.stop 0) = some v) :
    v.StoppedBy0 := by
  rw [ThreadSys.step] at h
  obtain ⟨-, h⟩ := Option.ite_none_right_eq_some.mp h
  obtain ⟨-, rfl⟩ := ThreadSys.enter_cases h
  exact Or.inl ⟨_, ThreadSys.setCall_calls_self ..⟩

/-- The alarm worker has ended before `irthread_stop` is called for the status worker. -/
theorem ends_stop {w : Worker} (hs : s.Ends) (hd : s.down = .stop w)
    (h : s.threadStep w (.stop 0) = some t) : Ends { t with down := .stopping w } := by
  obtain ⟨-, hstep, hother, -⟩ := threadStep_cases h
  refine ⟨fun x hx => ?_, fun x hx => ?_, fun p hp => absurd (Pinout.mem_all p) hp⟩
  · show (t.thread x).worker = .exited
    cases w with
    | alarm => cases hx
    | status =>
      cases x with
      | status => cases hx
      | alarm =>
        rw [hother .alarm Worker.noConfusion]
        exact hs.past .alarm (by rw [hd]; rfl)
  · obtain rfl : w = x := DownPc.stopping.inj hx
    exact stoppedBy0_of_stop hstep

theorem ends_stopping {w : Worker} (hs : s.Ends) (hd : s.down = .stopping w)
    (h : s.threadStep w (.call 0) = some t) : t.Ends := by
  obtain ⟨hdown, hstep, hother, hlevel⟩ := threadStep_cases h
  refine ⟨fun x hx => ?_, fun x hx => ?_, fun p hp => ?_⟩
  · rw [hdown] at hx
    by_cases hxw : x = w
    · rw [hd, hxw] at hx
      cases w <;> cases hx
    · rw [hother x hxw]
      exact hs.past x hx
  · rw [hdown] at hx
    obtain rfl : w = x := DownPc.stopping.inj (hd.symm.trans hx)
    exact ThreadSys.stoppedBy0_call (hs.stopping w hd) hstep
  · rw [hdown, hd] at hp
    exact absurd (Pinout.mem_all p) hp

theorem ends_stopped {w : Worker} (hs : s.Ends) (hd : s.down = .stopping w)
    (hidle : (s.thread w).calls 0 = .idle) (d : DownPc)
    (hnext : d = .stop .status ∧ w = .alarm ∨ d = .lowall Pinout.all ∧ w = .status) :
    Ends { s with down := d } := by
  have hexited : (s.thread w).worker = .exited := by
    rcases hs.stopping w hd with ⟨p, hp⟩ | ⟨-, hexited⟩
    · cases hidle.symm.trans hp
    · exact hexited
  rcases hnext with ⟨rfl, rfl⟩ | ⟨rfl, rfl⟩
  · refine ⟨fun x hx => ?_, fun x hx => (by cases hx), fun p hp => absurd (Pinout.mem_all p) hp⟩
    cases x with
    | alarm => exact hexited
    | status => cases hx
  · refine ⟨fun x _ => ?_, fun x hx => (by cases hx), fun p hp => absurd (Pinout.mem_all p) hp⟩
    cases x with
    | alarm => exact hs.past .alarm (by rw [hd]; rfl)
    | status => exact hexited

/-- A pin that is set stays low while the handler sets the next one. -/
theorem ends_lowall {p : Pinout} {ps : List Pinout} (hs : s.Ends)
    (hd : s.down = .lowall (p :: ps)) :
    Ends { s.setLow p with down := .lowall ps } := by
  refine ⟨fun w _ => ?_, fun w hw => (by cases hw), fun q hq => ?_⟩
  · show ((s.setLow p).thread w).worker = .exited
    rw [setLow_thread]
    exact hs.past w (by rw [hd]; cases w <;> rfl)
  · show (s.setLow p).level q = 0
    by_cases hqp : q = p
    · rw [hqp]
      exact setLow_level_self p
    · rw [setLow_level_of_ne hqp]
      refine hs.low q ?_
      rw [hd]
      exact List.not_mem_cons_of_ne_of_not_mem hqp hq

theorem ends_rest {d : DownPc} (hs : s.Ends) (hleft : s.down.left = []) (hd : d.left = []) :
    Ends { s with down := d } := by
  have hall : ∀ {c : DownPc} (w : Worker), c.left = [] → c.past w = true := by
    intro c w hc
    exact past_of_not_left (p := .irled) (by rw [hc]; exact List.not_mem_nil) w
  refine ⟨fun w _ => hs.past w (hall w hleft), fun w hw => ?_, fun p _ => hs.low p ?_⟩
  · rw [show d = .stopping w from hw] at hd
    cases hd
  · rw [hleft]
    exact List.not_mem_nil

theorem ends_handlerStep (hs : s.Ends) (h : s.handlerStep = some t) : t.Ends := by
  rw [handlerStep] at h
  cases hd : s.down with
  | up => rw [hd] at h; cases h
  | stop w =>
    rw [hd] at h
    obtain ⟨u, hu, rfl⟩ := Option.map_eq_some_iff.mp h
    exact ends_stop hs hd hu
  | stopping w =>
    rw [hd] at h
    dsimp only at h
    split at h
    next hidle =>
      obtain rfl := Option.some.inj h
      refine ends_stopped hs hd hidle _ ?_
      cases w with
      | alarm => exact Or.inl ⟨rfl, rfl⟩
      | status => exact Or.inr ⟨rfl, rfl⟩
    next => exact ends_stopping hs hd h
  | lowall ps =>
    rw [hd] at h
    cases ps with
    | nil =>
      obtain rfl := Option.some.inj h
      exact ends_rest hs (by rw [hd]; rfl) rfl
    | cons p ps =>
      obtain rfl := Option.some.inj h
      exact ends_lowall hs hd
  | memFree | semRemove | logClose =>
    rw [hd] at h
    obtain rfl := Option.some.inj h
    exact ends_rest hs (by rw [hd]; rfl) rfl
  | exited => rw [hd] at h; cases h

theorem mainStep_down (h : s.mainStep = some t) : t.down = s.down := by
  rw [mainStep] at h
  split at h
  · split at h
    · obtain ⟨u, -, h⟩ := Option.bind_eq_some_iff.mp h
      obtain ⟨v, -, rfl⟩ := Option.map_eq_some_iff.mp h
      rfl
    · obtain ⟨u, -, rfl⟩ := Option.map_eq_some_iff.mp h
      rfl
  · obtain ⟨v, -, rfl⟩ := Option.map_eq_some_iff.mp h
    rfl

theorem ends_step {a : DownAct} (hs : s.Ends) (h : step M s a = some t) : t.Ends := by
  unfold step at h
  obtain ⟨-, h⟩ := Option.ite_none_left_eq_some.mp h
  cases a with
  | main =>
    obtain ⟨hup, h⟩ := Option.ite_none_right_eq_some.mp h
    exact ends_of_up (by rw [mainStep_down h, hup])
  | cycle tick =>
    obtain ⟨hup, h⟩ := Option.ite_none_right_eq_some.mp h
    obtain ⟨u, -, rfl⟩ := Option.map_eq_some_iff.mp h
    exact ends_of_up hup
  | sighup c =>
    obtain ⟨hup, h⟩ := Option.ite_none_right_eq_some.mp h
    obtain ⟨u, -, rfl⟩ := Option.map_eq_some_iff.mp h
    exact ends_of_up hup
  | sigterm =>
    dsimp only at h
    split at h
    · obtain rfl := Option.some.inj h
      exact ⟨fun w hw => (by cases hw), fun w hw => (by cases hw),
        fun p hp => absurd (Pinout.mem_all p) hp⟩
    · cases h
  | handler => exact ends_handlerStep hs h
  | alarmWorker =>
    obtain ⟨u, hu, rfl⟩ := Option.map_eq_some_iff.mp h
    exact ends_workerMove hs (workerMove_alarm hu)
  | statusWorker => exact ends_workerMove hs (workerMove_status h)
  | spurious w => exact ends_workerMove hs (workerMove_spurious h)

end Step

/-- **A `SIGTERM` leaves the outputs low.**  In every reachable state, whatever the workers
were doing: when the handler has come to `irpio_lowall`, both workers have ended; the pins
it has set there are low; and so are all outputs from the end of `irpio_lowall` on. -/
theorem sigterm_pins_low {M : Nat} {c : Settings} {s : DownSys}
    (h : Reach (step M) anyStep (· = initial c) s) :
    (∀ ps, s.down = .lowall ps → (∀ w, (s.thread w).worker = .exited) ∧
      ∀ p, p ∉ ps → s.level p = 0) ∧
    (s.down = .memFree ∨ s.down = .semRemove ∨ s.down = .logClose ∨ s.down = .exited →
      (∀ w, (s.thread w).worker = .exited) ∧ ∀ p, s.level p = 0) := by
  have hs : s.Ends := by
    apply h.invariant_from
    · exact ends_of_up rfl
    · exact fun _ _ _ hends _ hst => ends_step hends hst
  refine ⟨fun ps hd => ⟨fun w => hs.past w ?_, fun p hp => hs.low p ?_⟩, fun hd => ?_⟩
  · rw [hd]
    cases w <;> rfl
  · rwa [hd]
  · have hleft : s.down.left = [] := by
      rcases hd with hd | hd | hd | hd <;> rw [hd] <;> rfl
    have hnone : ∀ p, p ∉ s.down.left := by
      intro p
      rw [hleft]
      exact List.not_mem_nil
    exact ⟨fun w => hs.past w (past_of_not_left (hnone .irled) w), fun p => hs.low p (hnone p)⟩

section Witness

def downBefore : List DownAct :=
  List.flatten [List.replicate 6 .main, List.replicate 10 .statusWorker]

def downRun : List DownAct :=
  List.flatten [downBefore, [.sigterm], List.replicate 6 .handler, [.alarmWorker],
    List.replicate 11 .handler, List.replicate 6 .statusWorker, List.replicate 11 .handler]

theorem downRun_isSome :
    (exec (step (2 ^ 32)) anyStep (initial (.initial true)) downRun).isSome := by decide

def downEnd : DownSys :=
  (exec (step (2 ^ 32)) anyStep (initial (.initial true)) downRun).get downRun_isSome

/-- `sigterm_pins_low` at the end of `downRun`. -/
theorem sigterm_pins_low_run :
    downEnd.down = .exited ∧ ∀ p, downEnd.level p = 0 := by
  have hexited : downEnd.down = .exited := by decide
  exact ⟨hexited, ((sigterm_pins_low (reach_get _ _ downRun_isSome)).2
    (Or.inr (Or.inr (Or.inr hexited)))).2⟩

end Witness

/-! ### The system without the status worker -/

/-- Nothing wakes the alarm worker but a signal while `susp = 0`. -/
def WakesResumed (s : DownSys) (a : DownAct) : Prop :=
  a ≠ .spurious .alarm ∧ (a = .main → s.siren.WakesResumed .main)

instance (s : DownSys) (a : DownAct) : Decidable (WakesResumed s a) :=
  inferInstanceAs (Decidable (_ ∧ _))

section Siren

variable {M : Nat} {c : Settings} {s t : DownSys} {a : DownAct}

/-- A step of `DownSys` as `SirenSys` sees it: a step of its own, or none. -/
theorem siren_mainStep (h : s.mainStep = some t) :
    t.siren = s.siren ∨ s.siren.mainStep = some t.siren := by
  rw [mainStep] at h
  split at h
  · split at h
    · obtain ⟨u, hu, h⟩ := Option.bind_eq_some_iff.mp h
      obtain ⟨v, -, rfl⟩ := Option.map_eq_some_iff.mp h
      exact Or.inr hu
    · obtain ⟨u, hu, rfl⟩ := Option.map_eq_some_iff.mp h
      exact Or.inr hu
  · obtain ⟨v, -, rfl⟩ := Option.map_eq_some_iff.mp h
    exact Or.inl rfl

theorem siren_statusStep (h : s.statusStep = some t) : t.siren = s.siren ∧ t.down = s.down := by
  rw [statusStep] at h
  split at h
  · split at h
    · obtain rfl := Option.some.inj h
      exact ⟨rfl, rfl⟩
    · obtain ⟨v, -, rfl⟩ := Option.map_eq_some_iff.mp h
      exact ⟨rfl, rfl⟩
    · obtain rfl := Option.some.inj h
      exact ⟨rfl, rfl⟩
    · obtain rfl := Option.some.inj h
      exact ⟨rfl, rfl⟩
  · obtain ⟨v, -, rfl⟩ := Option.map_eq_some_iff.mp h
    exact ⟨rfl, rfl⟩

theorem not_up_of_handlerStep (h : s.handlerStep = some t) : t.down ≠ .up := by
  rw [handlerStep] at h
  cases hd : s.down with
  | up | exited => rw [hd] at h; cases h
  | stop w =>
    rw [hd] at h
    obtain ⟨u, -, rfl⟩ := Option.map_eq_some_iff.mp h
    exact DownPc.noConfusion
  | stopping w =>
    rw [hd] at h
    dsimp only at h
    split at h
    · obtain rfl := Option.some.inj h
      cases w <;> exact DownPc.noConfusion
    · rw [(threadStep_cases h).1, hd]
      exact DownPc.noConfusion
  | lowall ps =>
    rw [hd] at h
    cases ps <;> obtain rfl := Option.some.inj h <;> exact DownPc.noConfusion
  | memFree | semRemove | logClose =>
    rw [hd] at h
    obtain rfl := Option.some.inj h
    exact DownPc.noConfusion

/-- A step that leaves the main loop running is a step of `SirenSys`, or none. -/
theorem siren_step (ha : WakesResumed s a) (hup : t.down = .up) (h : step M s a = some t) :
    s.down = .up ∧ (t.siren = s.siren ∨ ∃ b, SirenSys.WakesResumed s.siren b ∧
      SirenSys.step M s.siren b = some t.siren) := by
  unfold step at h
  obtain ⟨-, h⟩ := Option.ite_none_left_eq_some.mp h
  cases a with
  | main =>
    obtain ⟨hd, h⟩ := Option.ite_none_right_eq_some.mp h
    exact ⟨hd, (siren_mainStep h).imp_right fun hmain => ⟨.main, ha.2 rfl, hmain⟩⟩
  | cycle tick =>
    obtain ⟨hd, h⟩ := Option.ite_none_right_eq_some.mp h
    obtain ⟨u, hu, rfl⟩ := Option.map_eq_some_iff.mp h
    exact ⟨hd, Or.inr ⟨.cycle tick, trivial, hu⟩⟩
  | sighup c =>
    obtain ⟨hd, h⟩ := Option.ite_none_right_eq_some.mp h
    obtain ⟨u, hu, rfl⟩ := Option.map_eq_some_iff.mp h
    exact ⟨hd, Or.inr ⟨.sighup c, trivial, hu⟩⟩
  | sigterm =>
    dsimp only at h
    split at h
    · obtain rfl := Option.some.inj h
      cases hup
    · cases h
  | handler => exact absurd hup (not_up_of_handlerStep h)
  | alarmWorker =>
    obtain ⟨u, hu, rfl⟩ := Option.map_eq_some_iff.mp h
    exact ⟨hup, Or.inr ⟨.worker, trivial, hu⟩⟩
  | statusWorker =>
    obtain ⟨hsiren, hdown⟩ := siren_statusStep h
    exact ⟨hdown ▸ hup, Or.inl hsiren⟩
  | spurious w =>
    cases w with
    | alarm => exact absurd rfl ha.1
    | status =>
      obtain ⟨v, -, rfl⟩ := Option.map_eq_some_iff.mp h
      exact ⟨hup, Or.inl rfl⟩

/-- What the main loop and the alarm worker do is a run of `SirenSys`. -/
theorem siren_reach (h : Reach (step M) WakesResumed (· = initial c) s) (hup : s.down = .up) :
    Reach (SirenSys.step M) SirenSys.WakesResumed (· = SirenSys.initial c) s.siren := by
  revert hup
  refine h.invariant_from (I := fun u => u.down = .up → Reach (SirenSys.step M)
    SirenSys.WakesResumed (· = SirenSys.initial c) u.siren) (fun _ => .start rfl) ?_
  intro u a v hu ha hst hup
  obtain ⟨hd, hsame | ⟨b, hb, hstep⟩⟩ := siren_step ha hup hst
  · rw [hsame]
    exact hu hd
  · exact .next (hu hd) hb hstep

/-- **Both workers side by side.**  In a run in which nothing wakes a suspended alarm worker,
until a `SIGTERM`, the main loop and the alarm worker run as in `SirenSys`, whatever the
status worker does among their steps; so its pins are off whenever it is parked. -/
theorem daemon_quiet (h : Reach (step M) WakesResumed (· = initial c) s) (hup : s.down = .up) :
    Reach (SirenSys.step M) SirenSys.WakesResumed (· = SirenSys.initial c) s.siren ∧
      s.siren.Quiet := by
  have hsiren := siren_reach h hup
  refine ⟨hsiren, SirenSys.quiet_of_silent (hsiren.invariant_from ?_ ?_)⟩
  · exact SirenSys.silent_initial c
  · exact fun _ _ _ hs hb hst => SirenSys.silent_step hs hb hst

theorem downBefore_isSome :
    (exec (step (2 ^ 32)) WakesResumed (initial (.initial true)) downBefore).isSome := by decide

/-- `daemon_quiet` with the status LED on. -/
theorem daemon_quiet_run :
    ((exec (step (2 ^ 32)) WakesResumed (initial (.initial true)) downBefore).get
      downBefore_isSome).stats = 1 ∧
    ((exec (step (2 ^ 32)) WakesResumed (initial (.initial true)) downBefore).get
      downBefore_isSome).siren.Quiet :=
  ⟨by decide, (daemon_quiet (reach_get _ _ downBefore_isSome) (by decide)).2⟩

end Siren

end DownSys

end Raspberries.IrAlarm
