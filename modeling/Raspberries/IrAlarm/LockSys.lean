import Raspberries.IrAlarm.AlarmWorker
import Raspberries.IrAlarm.IrXmpp
import Raspberries.IrAlarm.Publish
import Raspberries.IrAlarm.SemSys
import Raspberries.Lib.LockOrder

/-!
# All the locks of `iralarmd`

The semaphore, `mtx_status`, `mtx_alarm` and the `mtx_bsy` of the two workers are used by
five threads: the main thread with the SIGHUP handler on top of it, the two workers, the
flank handler and the XMPP thread.

`LockSys` runs them side by side.  What is left of a function of `iralarmd.c` is a list of
instructions; the loop of a worker and the functions of `irthread.c` are those of
`ThreadSys`, where the main thread is caller `0`.  A signal goes to any thread that does
not block it, and the handler's code comes in front of what that thread has left.  The run
starts with the workers, and with the semaphore at `1`; it ends with a SIGTERM.
-/

namespace Raspberries.IrAlarm

open LockOrder SysVSem Bytes

inductive Mtx
  | status
  | alarm
  deriving DecidableEq, Repr

inductive Lock
  | sem
  | mtx (m : Mtx)
  | mtxBsy (w : Worker)
  deriving DecidableEq, Repr

/-- The threads of the daemon. -/
inductive Tid
  | main
  | worker (w : Worker)
  | flank
  | xmpp
  deriving DecidableEq, Repr

inductive StatusInstr
  | digitalWrite (value : Nat)
  | usleep (us : Nat)
  deriving DecidableEq, Repr

/-- `status_led`, after it has read the two times. -/
def statusLed (statusledOn statusledOff : Nat) : AlrmState → List StatusInstr
  | .none => [.digitalWrite 1, .usleep statusledOn, .digitalWrite 0, .usleep statusledOff]
  | .preactive =>
    [.digitalWrite 1, .usleep statusledOn, .digitalWrite 0, .usleep statusledOn,
      .digitalWrite 1, .usleep statusledOn, .digitalWrite 0, .usleep (statusledOff / 2)]
  | .active =>
    [.digitalWrite 1, .usleep statusledOn, .digitalWrite 0,
      .usleep (statusledOn * 2 % 2 ^ 32)]

/-- What a thread does between its lock operations. -/
inductive Work
  | usleep
  | count
  | exportState
  | switch
  | reset
  | irRecvd
  | reload
  | report
  | readStatusled
  | readSpeaker
  | statusLed (data : AlrmState)
  | alarmThread (data : AlrmState)
  | status (i : StatusInstr)
  | digitalWrite (pin : AlarmPin) (value : Nat)
  deriving DecidableEq, Repr

/-- `sigreturn` is the end of a signal handler and `callbackReturn` that of a worker's
callback; `event` is a call of a cycle. -/
inductive Instr
  | sigBlock
  | sigUnblock
  | sigreturn
  | acquire
  | release
  | lock (m : Mtx)
  | unlock (m : Mtx)
  | suspend (w : Worker)
  | event (e : Event)
  | work (k : Work)
  | callbackReturn
  deriving DecidableEq, Repr

/-! ### The functions of `iralarmd.c` -/

def loopCode : List Instr :=
  [.sigUnblock, .work .usleep, .sigBlock, .acquire, .work .count, .work .exportState,
    .work .switch, .work .reset, .release]

def sighandler : List Instr :=
  [.sigBlock, .lock .status, .lock .alarm, .work .reload, .unlock .alarm, .unlock .status,
    .sigreturn]

def irFlank : List Instr := [.acquire, .work .irRecvd, .release]

def irxmppThrdCallback (id : Int) : List Instr :=
  if id = irxmppStatus then [.acquire, .work .report, .release]
  else if id = irxmppConfig then
    [.lock .status, .lock .alarm, .work .report, .unlock .status, .unlock .alarm]
  else []

def workerCallback (data : AlrmState) : Worker → List Instr
  | .status =>
    [.lock .status, .work .readStatusled, .unlock .status, .work (.statusLed data),
      .callbackReturn]
  | .alarm =>
    [.lock .alarm, .work .readSpeaker, .unlock .alarm, .work (.alarmThread data),
      .callbackReturn]

def AlarmInstr.instr : AlarmInstr → Instr
  | .digitalWrite pin value => .work (.digitalWrite pin value)
  | .usleep _ => .work .usleep
  | .suspend => .suspend .alarm

/-- The variables, the shared memory and the pins.  The last three are the copies that
`status_led` and `alarm_thread` work with. -/
structure LockVars where
  daemon : Daemon
  settings : Settings
  seg : Memory
  stats : Nat
  pins : AlarmPin → Nat
  statusledOn : Nat
  statusledOff : Nat
  speaker : Nat

def Work.run (M : Nat) (doXmpp : Bool) (now : Int) (v : LockVars) : Work → LockVars × List Instr
  | .usleep | .report => (v, [])
  | .count => ({ v with daemon := countCycle M v.settings v.daemon }, [])
  | .exportState => ({ v with daemon := { v.daemon with sAstate := v.daemon.astate } }, [])
  | .switch =>
    let (d, es) := alarmSwitch v.settings now v.daemon
    ({ v with daemon := d }, es.map .event)
  | .reset => ({ v with daemon := { v.daemon with irRecvd := 0 } }, [])
  | .irRecvd =>
    ({ v with daemon := { v.daemon with irRecvd := (v.daemon.irRecvd + 1) % M } }, [])
  | .reload => ({ v with settings := IrAlarm.reload doXmpp v.seg v.settings }, [])
  | .readStatusled =>
    ({ v with
      statusledOn := v.settings.sStatusledOn
      statusledOff := v.settings.sStatusledOff }, [])
  | .readSpeaker => ({ v with speaker := v.settings.sSpeaker }, [])
  | .statusLed data =>
    (v, (IrAlarm.statusLed v.statusledOn v.statusledOff data).map fun i => .work (.status i))
  | .alarmThread data => (v, (IrAlarm.alarmThread v.speaker data).map AlarmInstr.instr)
  | .status (.digitalWrite value) => ({ v with stats := value }, [])
  | .status (.usleep _) => (v, [])
  | .digitalWrite pin value => ({ v with pins := Function.update v.pins pin value }, [])

/-! ### The system -/

/-- `owner` are the owners of the two mutexes, `blocked` says whether a thread blocks the
signals of `block_mask`, and `held` is what it has locked and not unlocked, apart from
`mtx_bsy`. -/
structure LockSys where
  kernel : Kernel
  semId : Nat
  owner : Mtx → Option Tid
  thread : Worker → ThreadSys AlrmState
  code : Tid → List Instr
  held : Tid → List Lock
  blocked : Tid → Bool
  pending : Bool
  vars : LockVars

namespace LockSys

def setCode (s : LockSys) (p : Tid) (code : List Instr) : LockSys :=
  { s with code := Function.update s.code p code }

def setHeld (s : LockSys) (p : Tid) (held : List Lock) : LockSys :=
  { s with held := Function.update s.held p held }

def setBlocked (s : LockSys) (p : Tid) (b : Bool) : LockSys :=
  { s with blocked := Function.update s.blocked p b }

def stepThread (s : LockSys) (w : Worker) (a : ThreadSys.Act AlrmState) : Option LockSys :=
  ((s.thread w).step a).map fun u => { s with thread := Function.update s.thread w u }

/-- Thread `p` executes the instruction before `rest`.  `irthread_suspend` may be called by
the main thread or by the worker itself. -/
def exec (M : Nat) (doXmpp : Bool) (s : LockSys) (p : Tid) (now : Int) (rest : List Instr) :
    Instr → Option LockSys
  | .sigBlock => some ((s.setCode p rest).setBlocked p true)
  | .sigUnblock | .sigreturn => some ((s.setCode p rest).setBlocked p false)
  | .acquire =>
    (SysVSem.acquire (some s.semId) irdPid s.kernel).map fun r =>
      { (s.setCode p rest).setHeld p (.sem :: s.held p) with kernel := r.2 }
  | .release =>
    some { (s.setCode p rest).setHeld p ((s.held p).erase .sem) with
      kernel := (SysVSem.release (some s.semId) irdPid s.kernel).2 }
  | .lock m =>
    if s.owner m = none then
      some { (s.setCode p rest).setHeld p (.mtx m :: s.held p) with
        owner := Function.update s.owner m (some p) }
    else none
  | .unlock m =>
    some { (s.setCode p rest).setHeld p ((s.held p).erase (.mtx m)) with
      owner := Function.update s.owner m none }
  | .suspend w =>
    if p = .main then (s.setCode p rest).stepThread w (.suspend 0)
    else if p = .worker w then (s.setCode p rest).stepThread w .callbackSuspend
    else none
  | .event (.setdata w data) =>
    if p = .main then (s.setCode p rest).stepThread w (.setdata 0 data) else none
  | .event (.resume w) =>
    if p = .main then (s.setCode p rest).stepThread w (.resume 0) else none
  | .event (.doAlarmAction _) | .event (.undoAlarmAction _) => some (s.setCode p rest)
  | .work k =>
    let (vars, code) := k.run M doXmpp now s.vars
    some { s.setCode p (code ++ rest) with vars := vars }
  | .callbackReturn =>
    match p with
    | .worker w => (s.setCode p rest).stepThread w .callbackReturn
    | .main | .flank | .xmpp => none

/-- The thread whose function the main thread is in. -/
def inCall (s : LockSys) : Option Worker :=
  if (s.thread .alarm).calls 0 ≠ .idle then some .alarm
  else if (s.thread .status).calls 0 ≠ .idle then some .status
  else none

def codeStep (M : Nat) (doXmpp : Bool) (s : LockSys) (p : Tid) (now : Int)
    (again : List Instr) : Option LockSys :=
  match s.code p with
  | [] => some (s.setCode p again)
  | i :: rest => exec M doXmpp s p now rest i

def mainStep (M : Nat) (doXmpp : Bool) (s : LockSys) (now : Int) : Option LockSys :=
  match s.inCall with
  | some w => s.stepThread w (.call 0)
  | none => codeStep M doXmpp s .main now loopCode

def workerStep (M : Nat) (doXmpp : Bool) (s : LockSys) (w : Worker) (now : Int) :
    Option LockSys :=
  match (s.thread w).worker with
  | .callback data none => codeStep M doXmpp s (.worker w) now (workerCallback data w)
  | _ => s.stepThread w .worker

/-- A signal is handled by a thread that does not block it. -/
def deliver (s : LockSys) (p : Tid) : Option LockSys :=
  if s.pending = true ∧ s.blocked p = false then
    some { (s.setCode p (sighandler ++ s.code p)).setBlocked p true with pending := false }
  else none

/-- The steps.  `xmpp id` is the XMPP thread, which calls `irxmpp_thrd_callback` with `id`
when it does not run it; `edit` is a change of the shared memory. -/
inductive Act
  | main (now : Int)
  | worker (w : Worker)
  | spurious (w : Worker)
  | flank
  | xmpp (id : Int)
  | kill
  | deliver (p : Tid)
  | edit (seg : Memory)

def step (M : Nat) (doXmpp : Bool) (s : LockSys) : Act → Option LockSys
  | .main now => mainStep M doXmpp s now
  | .worker w => workerStep M doXmpp s w 0
  | .spurious w => s.stepThread w .spurious
  | .flank => codeStep M doXmpp s .flank 0 irFlank
  | .xmpp id => codeStep M doXmpp s .xmpp 0 (irxmppThrdCallback id)
  | .kill => some { s with pending := true }
  | .deliver p => deliver s p
  | .edit seg => some { s with vars := { s.vars with seg := seg } }

/-- The workers have been started and the semaphore is free.  The main thread is about to
suspend the alarm worker and to enter its loop. -/
structure Started (s : LockSys) : Prop where
  kernel : ∃ pid, s.kernel = some ⟨s.semId, 1, pid⟩
  owner : ∀ m, s.owner m = none
  thread : ∀ w, s.thread w = .initial .none
  main : s.code .main = [.suspend .alarm]
  code : ∀ p, p ≠ .main → s.code p = []
  held : ∀ p, s.held p = []
  blocked : ∀ p, s.blocked p = true

theorem setCode_code_self (s : LockSys) (p : Tid) (code : List Instr) :
    (s.setCode p code).code p = code := Function.update_self ..

theorem setCode_code_of_ne (s : LockSys) {p q : Tid} (code : List Instr) (h : q ≠ p) :
    (s.setCode p code).code q = s.code q := Function.update_of_ne h ..

/-! ### Waiting and holding -/

/-- The lock that the next instruction takes. -/
def nextLock : List Instr → Option Lock
  | .acquire :: _ => some .sem
  | .lock m :: _ => some (.mtx m)
  | _ => none

def callWaits : Call AlrmState → Bool
  | .suspend .lock | .stop (.suspend .lock) | .setdata _ .lock => true
  | _ => false

/-- A worker that is at a `pthread_mutex_lock` of `mtx_bsy`, or woken from the condition
wait, which takes it again. -/
def workerWaits : WorkerPc AlrmState → Bool
  | .lock | .wakeup | .callback _ (some .lock) => true
  | _ => false

def waits (s : LockSys) : Tid → Option Lock
  | .main =>
    match s.inCall with
    | some w => if callWaits ((s.thread w).calls 0) then some (.mtxBsy w) else none
    | none => nextLock (s.code .main)
  | .worker w =>
    match (s.thread w).worker with
    | .callback _ none => nextLock (s.code (.worker w))
    | pc => if workerWaits pc then some (.mtxBsy w) else none
  | .flank => nextLock (s.code .flank)
  | .xmpp => nextLock (s.code .xmpp)

def tid (w : Worker) : Party → Tid
  | .worker => .worker w
  | .caller _ => .main

/-- A mutex is held by its owner, and the semaphore between the two `semop`s. -/
def Holds (s : LockSys) (p : Tid) : Lock → Prop
  | .sem => .sem ∈ s.held p
  | .mtx m => s.owner m = some p
  | .mtxBsy w => ∃ q, (s.thread w).mtxBsy = some q ∧ tid w q = p

/-- The thread that makes the step by itself. -/
def Act.tid : Act → Option Tid
  | .main _ => some .main
  | .worker w => some (.worker w)
  | .flank => some .flank
  | .xmpp _ => some .xmpp
  | .spurious _ | .kill | .deliver _ | .edit _ => none

def WaitsFor (s : LockSys) : Tid → Tid → Prop :=
  LockOrder.WaitsFor (fun p l => s.waits p = some l) s.Holds

end LockSys

end Raspberries.IrAlarm
