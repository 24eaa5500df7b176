import Mathlib.Logic.Function.Basic
import Raspberries.Lib.SysVSem

/-!
# The semaphore `SEM_ID` and its users

The flank handler, the main loop and the XMPP callback of the daemon, and every
`iralarmctl` process, bracket their work with `semop(sem_id, &sops[0], 1)` and
`semop(sem_id, &sops[1], 1)` and ignore what the two return.  The threads of the daemon
read the one global `sem_id`, which is `0` until `semget` has assigned it; the XMPP
callback and the flank handler are live before that.

`SemSys` has every access to the semaphore as a step of its own, for one daemon that may
be killed and started again and any number of `iralarmctl` processes.
-/

namespace Raspberries.IrAlarm

open SysVSem

/-- Where a party is with respect to the bracket: it is about to acquire, does its work,
or is about to release. -/
inductive Bracket
  | outside
  | acquire
  | work
  | release
  deriving DecidableEq, Repr

def Bracket.inside : Bracket → Bool
  | .work | .release => true
  | .outside | .acquire => false

/-- The next step of a party that has entered the bracket; the results of `semop` are
ignored. -/
def bracketStep (id : Option Nat) (me : Nat) (k : Kernel) : Bracket → Option (Bracket × Kernel)
  | .outside => none
  | .acquire => (acquire id me k).map fun r => (.work, r.2)
  | .work => some (.release, k)
  | .release => some (.outside, (release id me k).2)

/-- Where the main thread of the daemon is: not there, before `irpio_isr`, `semget` and
the first `semop`, in the loop (outside is `usleep`), or in the SIGTERM handler before
`IPC_RMID` and before `exit`. -/
inductive DaemonPc
  | down
  | isr
  | semget
  | post
  | loop (b : Bracket)
  | rmid
  | exit
  deriving DecidableEq, Repr

/-- The flank handler is registered. -/
def DaemonPc.hasIsr : DaemonPc → Bool
  | .down | .isr => false
  | _ => true

/-- Where an `iralarmctl` process is: before its exclusive `semget`, before the
`IPC_RMID` of the set this has created, before the second `semget`, or in its work. -/
inductive CtlPc
  | idle
  | getExcl
  | rmid (id : Nat)
  | get
  | run (id : Option Nat) (b : Bracket)
  deriving DecidableEq, Repr

inductive SemParty
  | main
  | flank
  | callback
  | ctl (n : Nat)
  deriving DecidableEq, Repr

def irdPid : Nat := 1

def ctlPid (n : Nat) : Nat := n + 2

structure SemSys where
  kernel : Kernel
  semId : Nat
  main : DaemonPc
  flank : Bracket
  callback : Bracket
  ctls : Nat → CtlPc

namespace SemSys

/-- Nothing runs and there is no set. -/
def initial : SemSys where
  kernel := none
  semId := 0
  main := .down
  flank := .outside
  callback := .outside
  ctls := fun _ => .idle

def bracket (s : SemSys) : SemParty → Bracket
  | .main => match s.main with
    | .loop b => b
    | _ => .outside
  | .flank => s.flank
  | .callback => s.callback
  | .ctl n => match s.ctls n with
    | .run _ b => b
    | _ => .outside

def Inside (s : SemSys) (p : SemParty) : Prop := (s.bracket p).inside = true

/-- The identifier a party passes to `semop` at this moment. -/
def idOf (s : SemSys) : SemParty → Option Nat
  | .main | .flank | .callback => some s.semId
  | .ctl n => match s.ctls n with
    | .run id _ => id
    | _ => none

def setCtl (s : SemSys) (n : Nat) (c : CtlPc) : SemSys :=
  { s with ctls := Function.update s.ctls n c }

/-- The main thread's next step; a new set gets the identifier `new`. -/
def mainStep (s : SemSys) (new : Nat) : Option SemSys :=
  match s.main with
  | .down => none
  | .isr => some { s with main := .semget }
  | .semget =>
    let (id, k) := create new s.kernel
    some { s with semId := id, kernel := k, main := .post }
  | .post =>
    some { s with
      kernel := (release (some s.semId) irdPid s.kernel).2
      main := .loop .outside }
  | .loop b =>
    (bracketStep (some s.semId) irdPid s.kernel b).map fun r =>
      { s with kernel := r.2, main := .loop r.1 }
  | .rmid => some { s with kernel := remove (some s.semId) s.kernel, main := .exit }
  | .exit => some { s with main := .down, flank := .outside, callback := .outside }

def ctlStep (s : SemSys) (n new : Nat) : Option SemSys :=
  match s.ctls n with
  | .idle => none
  | .getExcl =>
    match createExcl new s.kernel with
    | some (id, k) => some { s.setCtl n (.rmid id) with kernel := k }
    | none => some (s.setCtl n .get)
  | .rmid id => some { s.setCtl n .idle with kernel := remove (some id) s.kernel }
  | .get => some (s.setCtl n (.run (get s.kernel) .outside))
  | .run id b =>
    (bracketStep id (ctlPid n) s.kernel b).map fun r =>
      { s.setCtl n (.run id r.1) with kernel := r.2 }

/-- The steps.  `start` is a start of the daemon and `kill` its end without a handler;
`wake` ends the sleep of the main loop and `term` is the SIGTERM that interrupts it. -/
inductive Act
  | start
  | main (new : Nat)
  | wake
  | term
  | kill
  | flank
  | callback
  | ctlStart (n : Nat)
  | ctl (n new : Nat)
  | ctlEnter (n : Nat)
  | ctlExit (n : Nat)
  | ctlKill (n : Nat)
  deriving DecidableEq, Repr

def step (s : SemSys) : Act → Option SemSys
  | .start =>
    if s.main = .down then some { s with main := .isr, semId := 0 } else none
  | .main new => mainStep s new
  | .wake => if s.main = .loop .outside then some { s with main := .loop .acquire } else none
  | .term => if s.main = .loop .outside then some { s with main := .rmid } else none
  | .kill => some { s with main := .down, flank := .outside, callback := .outside }
  | .flank =>
    if s.main.hasIsr then
      if s.flank = .outside then some { s with flank := .acquire }
      else (bracketStep (some s.semId) irdPid s.kernel s.flank).map fun r =>
        { s with flank := r.1, kernel := r.2 }
    else none
  | .callback =>
    if s.main = .down then none
    else if s.callback = .outside then some { s with callback := .acquire }
    else (bracketStep (some s.semId) irdPid s.kernel s.callback).map fun r =>
      { s with callback := r.1, kernel := r.2 }
  | .ctlStart n => if s.ctls n = .idle then some (s.setCtl n .getExcl) else none
  | .ctl n new => ctlStep s n new
  | .ctlEnter n =>
    match s.ctls n with
    | .run id .outside => some (s.setCtl n (.run id .acquire))
    | _ => none
  | .ctlExit n =>
    match s.ctls n with
    | .run _ .outside => some (s.setCtl n .idle)
    | _ => none
  | .ctlKill n => some (s.setCtl n .idle)

/-! ### What a step can do -/

inductive StepTo (s : SemSys) : Act → SemSys → Prop
  | start (hm : s.main = .down) : StepTo s .start { s with main := .isr, semId := 0 }
  | isr (new) (hm : s.main = .isr) : StepTo s (.main new) { s with main := .semget }
  | semget (new) (hm : s.main = .semget) :
      StepTo s (.main new) { s with
        semId := (create new s.kernel).1
        kernel := (create new s.kernel).2
        main := .post }
  | post (new) (hm : s.main = .post) :
      StepTo s (.main new) { s with
        kernel := (release (some s.semId) irdPid s.kernel).2
        main := .loop .outside }
  | loop (new b b' k) (hm : s.main = .loop b)
      (hb : bracketStep (some s.semId) irdPid s.kernel b = some (b', k)) :
      StepTo s (.main new) { s with kernel := k, main := .loop b' }
  | rmid (new) (hm : s.main = .rmid) :
      StepTo s (.main new) { s with kernel := remove (some s.semId) s.kernel, main := .exit }
  | exit (new) (hm : s.main = .exit) :
      StepTo s (.main new) { s with main := .down, flank := .outside, callback := .outside }
  | wake (hm : s.main = .loop .outside) : StepTo s .wake { s with main := .loop .acquire }
  | term (hm : s.main = .loop .outside) : StepTo s .term { s with main := .rmid }
  | kill : StepTo s .kill { s with main := .down, flank := .outside, callback := .outside }
  | flankEnters (hm : s.main.hasIsr = true) (hf : s.flank = .outside) :
      StepTo s .flank { s with flank := .acquire }
  | flank (b' k) (hm : s.main.hasIsr = true)
      (hb : bracketStep (some s.semId) irdPid s.kernel s.flank = some (b', k)) :
      StepTo s .flank { s with flank := b', kernel := k }
  | callbackEnters (hm : s.main ≠ .down) (hc : s.callback = .outside) :
      StepTo s .callback { s with callback := .acquire }
  | callback (b' k) (hm : s.main ≠ .down)
      (hb : bracketStep (some s.semId) irdPid s.kernel s.callback = some (b', k)) :
      StepTo s .callback { s with callback := b', kernel := k }
  | ctlStart (n) (hc : s.ctls n = .idle) : StepTo s (.ctlStart n) (s.setCtl n .getExcl)
  | ctlCreates (n new id k) (hc : s.ctls n = .getExcl)
      (hr : createExcl new s.kernel = some (id, k)) :
      StepTo s (.ctl n new) { s.setCtl n (.rmid id) with kernel := k }
  | ctlExists (n new) (hc : s.ctls n = .getExcl) (hr : createExcl new s.kernel = none) :
      StepTo s (.ctl n new) (s.setCtl n .get)
  | ctlRmid (n new id) (hc : s.ctls n = .rmid id) :
      StepTo s (.ctl n new) { s.setCtl n .idle with kernel := remove (some id) s.kernel }
  | ctlGet (n new) (hc : s.ctls n = .get) :
      StepTo s (.ctl n new) (s.setCtl n (.run (get s.kernel) .outside))
  | ctlRun (n new id b b' k) (hc : s.ctls n = .run id b)
      (hb : bracketStep id (ctlPid n) s.kernel b = some (b', k)) :
      StepTo s (.ctl n new) { s.setCtl n (.run id b') with kernel := k }
  | ctlEnter (n id) (hc : s.ctls n = .run id .outside) :
      StepTo s (.ctlEnter n) (s.setCtl n (.run id .acquire))
  | ctlExit (n id) (hc : s.ctls n = .run id .outside) :
      StepTo s (.ctlExit n) (s.setCtl n .idle)
  | ctlKill (n) : StepTo s (.ctlKill n) (s.setCtl n .idle)

section Step

variable {s t : SemSys} {a : Act}

theorem stepTo_mainStep {new : Nat} (h : mainStep s new = some t) : StepTo s (.main new) t := by
  rw [mainStep] at h
  split at h
  next => cases h
  next hm =>
    obtain rfl := Option.some.inj h
    exact .isr new hm
  next hm =>
    obtain rfl := Option.some.inj h
    exact .semget new hm
  next hm =>
    obtain rfl := Option.some.inj h
    exact .post new hm
  next b hm =>
    obtain ⟨⟨b', k⟩, hb, rfl⟩ := Option.map_eq_some_iff.mp h
    exact .loop new b b' k hm hb
  next hm =>
    obtain rfl := Option.some.inj h
    exact .rmid new hm
  next hm =>
    obtain rfl := Option.some.inj h
    exact .exit new hm

theorem stepTo_ctlStep {n new : Nat} (h : ctlStep s n new = some t) :
    StepTo s (.ctl n new) t := by
  rw [ctlStep] at h
  split at h
  next => cases h
  next hc =>
    split at h
    next id k hr =>
      obtain rfl := Option.some.inj h
      exact .ctlCreates n new id k hc hr
    next hr =>
      obtain rfl := Option.some.inj h
      exact .ctlExists n new hc hr
  next id hc =>
    obtain rfl := Option.some.inj h
    exact .ctlRmid n new id hc
  next hc =>
    obtain rfl := Option.some.inj h
    exact .ctlGet n new hc
  next id b hc =>
    obtain ⟨⟨b', k⟩, hb, rfl⟩ := Option.map_eq_some_iff.mp h
    exact .ctlRun n new id b b' k hc hb

theorem stepTo_flank (h : step s .flank = some t) : StepTo s .flank t := by
  obtain ⟨hm, h⟩ := Option.ite_none_right_eq_some.mp h
  split at h
  next hf =>
    obtain rfl := Option.some.inj h
    exact .flankEnters hm hf
  next =>
    obtain ⟨⟨b', k⟩, hb, rfl⟩ := Option.map_eq_some_iff.mp h
    exact .flank b' k hm hb

theorem stepTo_callback (h : step s .callback = some t) : StepTo s .callback t := by
  obtain ⟨hm, h⟩ := Option.ite_none_left_eq_some.mp h
  split at h
  next hc =>
    obtain rfl := Option.some.inj h
    exact .callbackEnters hm hc
  next =>
    obtain ⟨⟨b', k⟩, hb, rfl⟩ := Option.map_eq_some_iff.mp h
    exact .callback b' k hm hb

theorem stepTo_of_step (h : step s a = some t) : StepTo s a t := by
  cases a with
  | main new => exact stepTo_mainStep h
  | ctl n new => exact stepTo_ctlStep h
  | flank => exact stepTo_flank h
  | callback => exact stepTo_callback h
  | start =>
    obtain ⟨hm, h⟩ := Option.ite_none_right_eq_some.mp h
    obtain rfl := Option.some.inj h
    exact .start hm
  | wake =>
    obtain ⟨hm, h⟩ := Option.ite_none_right_eq_some.mp h
    obtain rfl := Option.some.inj h
    exact .wake hm
  | term =>
    obtain ⟨hm, h⟩ := Option.ite_none_right_eq_some.mp h
    obtain rfl := Option.some.inj h
    exact .term hm
  | kill =>
    obtain rfl := Option.some.inj h
    exact .kill
  | ctlStart n =>
    obtain ⟨hc, h⟩ := Option.ite_none_right_eq_some.mp h
    obtain rfl := Option.some.inj h
    exact .ctlStart n hc
  | ctlEnter n =>
    rw [step] at h
    split at h
    next id hc =>
      obtain rfl := Option.some.inj h
      exact .ctlEnter n id hc
    next => cases h
  | ctlExit n =>
    rw [step] at h
    split at h
    next id hc =>
      obtain rfl := Option.some.inj h
      exact .ctlExit n id hc
    next => cases h
  | ctlKill n =>
    obtain rfl := Option.some.inj h
    exact .ctlKill n

end Step

end SemSys

end Raspberries.IrAlarm
