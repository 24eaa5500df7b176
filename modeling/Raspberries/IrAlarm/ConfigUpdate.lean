import Raspberries.IrAlarm.IrShmem
import Raspberries.IrAlarm.SemSys
import Raspberries.IrAlarm.Settings

/-!
# Changing the configuration of a running daemon

`iralarmctl -s ID -v VALUE` stores the value in the shared memory object and sends a
SIGHUP, on which the daemon reloads all its variables from their objects.  The process
to signal is the one `GETPID` names, the last that did a `semop`, and it is asked at the
start, before the semaphore is taken for the store.

`UpdateSys` runs the daemon, with its main loop, its flank handler and its XMPP callback,
and any number of `iralarmctl` processes.  Every `semop`, store, signal and reload of one
variable is a step.  A SIGHUP is pending until the main loop is in its unblocked window.
Which processes the user of an `iralarmctl` may signal is a parameter: the daemon is root's.
-/

namespace Raspberries.IrAlarm

open SysVSem

/-- `-g ID`, `-a` and `-s ID -v VALUE`. -/
inductive CtlCmd
  | get (id : Nat)
  | all
  | set (id value : Nat)
  deriving DecidableEq, Repr

/-- What a process does after `GETPID`; `store` has the content the object gets. -/
inductive CtlInstr
  | acquire
  | print (id : Nat)
  | store (id content : Nat)
  | kill
  | release
  deriving DecidableEq, Repr

def getCode (id : Nat) : List CtlInstr := [.acquire, .print id, .release]

def ctlCode : CtlCmd → List CtlInstr
  | .get id =>
    match irmemType irsmData id with
    | some _ => getCode id
    | none => []
  | .all => (List.range irsmDesc.length).flatMap getCode
  | .set id value =>
    match irmemType irsmData id with
    | some type =>
      [.acquire, .store id (value % 256 ^ type.size), .release, .acquire, .kill, .release]
    | none => []

/-- Where the main thread of the daemon is: in the unblocked window, in the SIGHUP
handler with these objects to reload, or in a cycle. -/
inductive LoopPc
  | window
  | handler (ids : List Nat)
  | cycle (b : Bracket)
  deriving DecidableEq, Repr

/-- Where an `iralarmctl` is: before `GETPID`, or behind it with `ird_pid`. -/
inductive CtlProc
  | idle
  | start (cmd : CtlCmd)
  | run (pid : Int) (code : List CtlInstr)
  deriving DecidableEq, Repr

/-- `shm` are the contents of the objects, `hups` the processes a SIGHUP was addressed to. -/
structure UpdateSys where
  kernel : Kernel
  semId : Nat
  shm : Nat → Nat
  settings : Settings
  pending : Bool
  main : LoopPc
  flank : Bracket
  callback : Bracket
  ctls : Nat → CtlProc
  hups : List Int

namespace UpdateSys

def setCtl (s : UpdateSys) (n : Nat) (c : CtlProc) : UpdateSys :=
  { s with ctls := Function.update s.ctls n c }

/-- `kill(pid, SIGHUP)` by process `n`, which ends an `iralarmctl`; `-1` is every other
process.  One it may not signal is left alone (`EPERM`), and `main` goes on either way. -/
def kill (may : Nat → Int → Bool) (s : UpdateSys) (n : Nat) (pid : Int) : UpdateSys :=
  { s with
    pending := s.pending || (may n irdPid && (pid = irdPid || pid = -1))
    ctls := fun m =>
      if may n (ctlPid m) = true ∧ (pid = ctlPid m ∨ pid = -1 ∧ m ≠ n) then .idle else s.ctls m
    hups := s.hups ++ [pid] }

def mainStep (s : UpdateSys) : Option UpdateSys :=
  match s.main with
  | .window => none
  | .handler [] => some { s with main := .window }
  | .handler (id :: ids) =>
    some { s with settings := s.settings.load id (s.shm id), main := .handler ids }
  | .cycle b =>
    (bracketStep (some s.semId) irdPid s.kernel b).map fun r =>
      { s with kernel := r.2, main := if r.1 = .outside then .window else .cycle r.1 }

def ctlStep (may : Nat → Int → Bool) (s : UpdateSys) (n : Nat) : Option UpdateSys :=
  match s.ctls n with
  | .idle => none
  | .start cmd => some (s.setCtl n (.run (getpid (some s.semId) s.kernel) (ctlCode cmd)))
  | .run _ [] => some (s.setCtl n .idle)
  | .run pid (.acquire :: code) =>
    (acquire (some s.semId) (ctlPid n) s.kernel).map fun r =>
      { s.setCtl n (.run pid code) with kernel := r.2 }
  | .run pid (.print _ :: code) => some (s.setCtl n (.run pid code))
  | .run pid (.store id content :: code) =>
    some { s.setCtl n (.run pid code) with shm := Function.update s.shm id content }
  | .run pid (.kill :: code) => some (kill may (s.setCtl n (.run pid code)) n pid)
  | .run pid (.release :: code) =>
    some { s.setCtl n (.run pid code) with
      kernel := (release (some s.semId) (ctlPid n) s.kernel).2 }

/-- The steps.  `wake` ends the sleep of the main loop and `deliver` interrupts it by the
pending SIGHUP. -/
inductive Act
  | main
  | wake
  | deliver
  | flank
  | callback
  | ctlStart (n : Nat) (cmd : CtlCmd)
  | ctl (n : Nat)
  deriving DecidableEq, Repr

/-- `may n pid` says whether process `n` may signal `pid`. -/
def step (doXmpp : Bool) (may : Nat → Int → Bool) (s : UpdateSys) : Act → Option UpdateSys
  | .main => mainStep s
  | .wake => if s.main = .window then some { s with main := .cycle .acquire } else none
  | .deliver =>
    if s.main = .window ∧ s.pending = true then
      some { s with main := .handler (reloadedIds doXmpp), pending := false }
    else none
  | .flank =>
    if s.flank = .outside then some { s with flank := .acquire }
    else (bracketStep (some s.semId) irdPid s.kernel s.flank).map fun r =>
      { s with flank := r.1, kernel := r.2 }
  | .callback =>
    if s.callback = .outside then some { s with callback := .acquire }
    else (bracketStep (some s.semId) irdPid s.kernel s.callback).map fun r =>
      { s with callback := r.1, kernel := r.2 }
  | .ctlStart n cmd => if s.ctls n = .idle then some (s.setCtl n (.start cmd)) else none
  | .ctl n => ctlStep may s n

/-- The daemon is in its loop, the objects are published, and no `iralarmctl` runs. -/
structure Started (doXmpp : Bool) (s : UpdateSys) : Prop where
  published : ∀ id ∈ reloadedIds doXmpp, s.settings.get id = some (s.shm id : Int)
  /-- It is an `int8_t`. -/
  sXmpp : s.settings.sXmpp < 2 ^ 7
  kernel : s.kernel = some ⟨s.semId, 1, irdPid⟩
  pending : s.pending = false
  main : s.main = .window
  flank : s.flank = .outside
  callback : s.callback = .outside
  ctls : ∀ n, s.ctls n = .idle
  hups : s.hups = []

end UpdateSys

end Raspberries.IrAlarm
