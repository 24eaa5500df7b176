import Raspberries.IrAlarm.IrThread
import Raspberries.IrAlarm.MainLoop

/-!
# The main loop and the alarm worker

`alarm_thread` is the callback of the worker `thrd_alarm`.  With the sampled data
`ALRM_NONE` it ends in an `irthread_suspend` of its own worker, so the main loop,
which resumes the worker when it raises an alarm, and the worker itself both write
`susp`.

`AlarmSys` runs the two side by side.  An `irthread` call is one step, and so is the
worker's test of `susp` together with the sampling of the data; the main loop computes
a cycle in one step and then makes its calls one by one; the callback writes its pins
one by one.  The SIGHUP handler may replace the settings while the main loop sleeps.
-/

namespace Raspberries.IrAlarm

inductive AlarmPin
  | spekr
  | alarm
  deriving DecidableEq, Repr

inductive AlarmInstr
  | digitalWrite (pin : AlarmPin) (value : Nat)
  | usleep (us : Nat)
  | suspend
  deriving DecidableEq, Repr

/-- `alarm_thread`, after it has read `s_speaker`. -/
def alarmThread (sSpeaker : Nat) : AlrmState → List AlarmInstr
  | .active =>
    (if sSpeaker > 0 then [.digitalWrite .spekr 1] else []) ++
      [.digitalWrite .alarm 0, .usleep 250000, .digitalWrite .spekr 0, .digitalWrite .alarm 1,
        .usleep 250000]
  | .preactive =>
    [.digitalWrite .alarm 1, .usleep 100000, .digitalWrite .alarm 0, .usleep 100000]
  | .none =>
    [.digitalWrite .alarm 0, .digitalWrite .spekr 0, .usleep 100000, .suspend]

/-- Where the main thread is: about to suspend the worker it has just started, in
`usleep`, or in a cycle with these calls to make. -/
inductive MainPc
  | start
  | sleep
  | calls (es : List Event)
  deriving DecidableEq, Repr

/-- Where the alarm worker is: at the test, in the condition wait, woken from it, at the
start of the callback, or in it. -/
inductive AlarmPc
  | test
  | parked
  | woken
  | sampled (data : AlrmState)
  | callback (data : AlrmState) (rest : List AlarmInstr)
  deriving DecidableEq, Repr

structure AlarmSys where
  daemon : Daemon
  settings : Settings
  main : MainPc
  alarm : IrThread AlrmState
  status : IrThread AlrmState
  worker : AlarmPc
  pins : AlarmPin → Nat

namespace AlarmSys

/-- Both workers are started; `irpio_init` has driven the pins low. -/
def initial (c : Settings) : AlarmSys where
  daemon := .initial
  settings := c
  main := .start
  alarm := .started .none
  status := .started .none
  worker := .test
  pins := fun _ => 0

def wake : AlarmPc → AlarmPc
  | .parked => .woken
  | w => w

/-- One call of the main loop. -/
def mainCall (s : AlarmSys) : Event → AlarmSys
  | .setdata .alarm data => { s with alarm := irthreadSetdata data s.alarm }
  | .setdata .status data => { s with status := irthreadSetdata data s.status }
  | .resume .alarm =>
    let r := irthreadResume s.alarm
    { s with alarm := r.2.1, worker := if r.2.2 then wake s.worker else s.worker }
  | .resume .status => { s with status := (irthreadResume s.status).2.1 }
  | .doAlarmAction _ | .undoAlarmAction _ => s

def mainStep (s : AlarmSys) : Option AlarmSys :=
  match s.main with
  | .start => some { s with alarm := irthreadSuspend s.alarm, main := .sleep }
  | .sleep => none
  | .calls [] => some { s with main := .sleep }
  | .calls (e :: es) => some { s.mainCall e with main := .calls es }

def workerStep (s : AlarmSys) : Option AlarmSys :=
  match s.worker with
  | .test =>
    some { s with worker := if s.alarm.susp then .parked else .sampled s.alarm.data }
  | .parked => none
  | .woken => some { s with worker := .sampled s.alarm.data }
  | .sampled data =>
    some { s with worker := .callback data (alarmThread s.settings.sSpeaker data) }
  | .callback _ [] => some { s with worker := .test }
  | .callback data (.digitalWrite pin value :: rest) =>
    some { s with
      pins := Function.update s.pins pin value
      worker := .callback data rest }
  | .callback data (.usleep _ :: rest) => some { s with worker := .callback data rest }
  | .callback data (.suspend :: rest) =>
    some { s with alarm := irthreadSuspend s.alarm, worker := .callback data rest }

/-- The steps.  `cycle` ends the sleep of the main loop and `sighup` interrupts it;
`spurious` is a return of the condition wait without a signal. -/
inductive Act
  | main
  | cycle (t : Tick)
  | sighup (c : Settings)
  | worker
  | spurious
  deriving DecidableEq, Repr

/-- The system with counters modulo `M`. -/
def step (M : Nat) (s : AlarmSys) : Act → Option AlarmSys
  | .main => mainStep s
  | .cycle t =>
    match s.main with
    | .sleep =>
      let (d, es) := IrAlarm.cycle M s.settings s.daemon t
      some { s with daemon := d, main := .calls es }
    | _ => none
  | .sighup c =>
    match s.main with
    | .sleep => some { s with settings := c }
    | _ => none
  | .worker => workerStep s
  | .spurious =>
    match s.worker with
    | .parked => some { s with worker := .woken }
    | _ => none

/-! ### What a step can do -/

inductive StepTo (M : Nat) (s : AlarmSys) : Act → AlarmSys → Prop
  | start (hm : s.main = .start) :
      StepTo M s .main { s with alarm := irthreadSuspend s.alarm, main := .sleep }
  | callsEnd (hm : s.main = .calls []) : StepTo M s .main { s with main := .sleep }
  | call (e es) (hm : s.main = .calls (e :: es)) :
      StepTo M s .main { s.mainCall e with main := .calls es }
  | cycle (tick) (hm : s.main = .sleep) :
      StepTo M s (.cycle tick) { s with
        daemon := (IrAlarm.cycle M s.settings s.daemon tick).1
        main := .calls (IrAlarm.cycle M s.settings s.daemon tick).2 }
  | sighup (c) (hm : s.main = .sleep) : StepTo M s (.sighup c) { s with settings := c }
  | parks (hw : s.worker = .test) (hs : s.alarm.susp = true) :
      StepTo M s .worker { s with worker := .parked }
  | samples (hw : s.worker = .test) (hs : s.alarm.susp = false) :
      StepTo M s .worker { s with worker := .sampled s.alarm.data }
  | woken (hw : s.worker = .woken) :
      StepTo M s .worker { s with worker := .sampled s.alarm.data }
  | enters (data) (hw : s.worker = .sampled data) :
      StepTo M s .worker { s with
        worker := .callback data (alarmThread s.settings.sSpeaker data) }
  | returns (data) (hw : s.worker = .callback data []) :
      StepTo M s .worker { s with worker := .test }
  | digitalWrite (data pin value rest)
      (hw : s.worker = .callback data (.digitalWrite pin value :: rest)) :
      StepTo M s .worker { s with
        pins := Function.update s.pins pin value
        worker := .callback data rest }
  | usleep (data us rest) (hw : s.worker = .callback data (.usleep us :: rest)) :
      StepTo M s .worker { s with worker := .callback data rest }
  | suspend (data rest) (hw : s.worker = .callback data (.suspend :: rest)) :
      StepTo M s .worker { s with
        alarm := irthreadSuspend s.alarm
        worker := .callback data rest }
  | spurious (hw : s.worker = .parked) : StepTo M s .spurious { s with worker := .woken }

section Step

variable {M : Nat} {s t : AlarmSys}

theorem stepTo_mainStep (h : mainStep s = some t) : StepTo M s .main t := by
  rw [mainStep] at h
  split at h
  next hm =>
    obtain rfl := Option.some.inj h
    exact .start hm
  next => cases h
  next hm =>
    obtain rfl := Option.some.inj h
    exact .callsEnd hm
  next e es hm =>
    obtain rfl := Option.some.inj h
    exact .call e es hm

theorem stepTo_workerStep (h : workerStep s = some t) : StepTo M s .worker t := by
  rw [workerStep] at h
  split at h
  next hw =>
    by_cases hs : s.alarm.susp = true
    · rw [if_pos hs] at h
      obtain rfl := Option.some.inj h
      exact .parks hw hs
    · rw [if_neg hs] at h
      obtain rfl := Option.some.inj h
      exact .samples hw (Bool.eq_false_iff.mpr hs)
  next => cases h
  next hw =>
    obtain rfl := Option.some.inj h
    exact .woken hw
  next data hw =>
    obtain rfl := Option.some.inj h
    exact .enters data hw
  next data hw =>
    obtain rfl := Option.some.inj h
    exact .returns data hw
  next data pin value rest hw =>
    obtain rfl := Option.some.inj h
    exact .digitalWrite data pin value rest hw
  next data us rest hw =>
    obtain rfl := Option.some.inj h
    exact .usleep data us rest hw
  next data rest hw =>
    obtain rfl := Option.some.inj h
    exact .suspend data rest hw

theorem stepTo_of_step {a : Act} (h : step M s a = some t) : StepTo M s a t := by
  cases a with
  | main => exact stepTo_mainStep h
  | worker => exact stepTo_workerStep h
  | cycle tick =>
    rw [step] at h
    split at h
    next hm =>
      obtain rfl := Option.some.inj h
      exact .cycle tick hm
    next => cases h
  | sighup c =>
    rw [step] at h
    split at h
    next hm =>
      obtain rfl := Option.some.inj h
      exact .sighup c hm
    next => cases h
  | spurious =>
    rw [step] at h
    split at h
    next hw =>
      obtain rfl := Option.some.inj h
      exact .spurious hw
    next => cases h

end Step

end AlarmSys

end Raspberries.IrAlarm
