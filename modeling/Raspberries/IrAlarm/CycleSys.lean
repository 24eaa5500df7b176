import Mathlib.Algebra.Ring.Nat
import Raspberries.IrAlarm.MainLoop
import Raspberries.IrAlarm.SemMutex

/-!
# The main loop, the flank handler and the readers at the semaphore

`CycleSys` runs the loop of `main` with every access to `ir_recvd`, to the exported state
and to the semaphore as a step of its own, together with the flank handler, the XMPP
callback and any number of `iralarmctl` processes.  The run enters the loop with the
semaphore at `1` and ends with a SIGTERM.  A SIGHUP may replace the settings while the
main loop sleeps.

For the statements about runs the state also has the flank counts: what the cycle has
read of `ir_recvd` so far, on which count it has decided, on which counts the completed
cycles have, and how often `ir_recvd` was raised.
-/

namespace Raspberries.IrAlarm

open SysVSem

/-- Where the main thread is: in `usleep`, or before this access of its cycle.  `calls`
are the calls of the switch that are still to come. -/
inductive CyclePc
  | sleep
  | acquire
  | count
  | exportState
  | switch
  | calls (es : List Event)
  | reset
  | release
  deriving DecidableEq, Repr

def CyclePc.bracket : CyclePc → Bracket
  | .sleep => .outside
  | .acquire => .acquire
  | .count | .exportState | .switch | .calls _ | .reset => .work
  | .release => .release

/-- Where the flank handler is; `write v` has read `v`. -/
inductive FlankPc
  | idle
  | acquire
  | read
  | write (v : Nat)
  | release
  deriving DecidableEq, Repr

def FlankPc.bracket : FlankPc → Bracket
  | .idle => .outside
  | .acquire => .acquire
  | .read | .write _ => .work
  | .release => .release

/-- The next step of a party that enters its bracket again and again. -/
def bracketLoop (id : Option Nat) (me : Nat) (k : Kernel) : Bracket → Option (Bracket × Kernel)
  | .outside => some (.acquire, k)
  | b => bracketStep id me k b

/-- The guards of the switch: a transition is taken. -/
def takesTransition (c : Settings) (now : Int) (d : Daemon) : Bool :=
  match d.astate with
  | .none => d.irAlrmCycls > c.irMinalarm
  | .preactive => diffTimeWithNow now d.irAlrmStart 10 = 1 ∨ d.irRecvdCycls > c.irRstalarm
  | .active => d.irRecvdCycls > c.irRstalarm

def Event.recvd : Event → List Nat
  | .doAlarmAction r => [r.irRecvd]
  | .undoAlarmAction r => [r.irRecvd]
  | .setdata _ _ | .resume _ => []

/-- `doAlarmAction` reads the count once more for the text it sends. -/
def Event.readsAgain : Event → Bool
  | .doAlarmAction r => r.xmpp
  | .undoAlarmAction _ | .setdata _ _ | .resume _ => false

/-- `reads` is what this cycle has read of `ir_recvd` and `decision` the count it has
decided on; `decisions` are those of the completed cycles and `increments` the number of
completed `ir_recvd++`.  `moved` says whether the last switch has taken a transition. -/
structure CycleSys where
  kernel : Kernel
  semId : Nat
  daemon : Daemon
  settings : Settings
  main : CyclePc
  flank : FlankPc
  callback : Bracket
  ctls : Nat → Bracket
  reads : List Nat
  decision : Nat
  decisions : List Nat
  increments : Nat
  moved : Bool

namespace CycleSys

def bracket (s : CycleSys) : SemParty → Bracket
  | .main => s.main.bracket
  | .flank => s.flank.bracket
  | .callback => s.callback
  | .ctl n => s.ctls n

def Inside (s : CycleSys) (p : SemParty) : Prop := (s.bracket p).inside = true

def mainStep (M : Nat) (s : CycleSys) (now : Int) : Option CycleSys :=
  match s.main with
  | .sleep => none
  | .acquire =>
    (acquire (some s.semId) irdPid s.kernel).map fun r =>
      { s with kernel := r.2, main := .count, reads := [] }
  | .count =>
    some { s with
      daemon := countCycle M s.settings s.daemon
      reads := s.reads ++ [s.daemon.irRecvd]
      decision := s.daemon.irRecvd
      main := .exportState }
  | .exportState =>
    some { s with daemon := { s.daemon with sAstate := s.daemon.astate }, main := .switch }
  | .switch =>
    let (d, es) := alarmSwitch s.settings now s.daemon
    some { s with
      daemon := d
      reads := s.reads ++ es.flatMap Event.recvd
      moved := takesTransition s.settings now s.daemon
      main := .calls es }
  | .calls [] => some { s with main := .reset }
  | .calls (e :: es) =>
    some { s with
      reads := s.reads ++ if e.readsAgain then [s.daemon.irRecvd] else []
      main := .calls es }
  | .reset =>
    some { s with
      daemon := { s.daemon with irRecvd := 0 }
      decisions := s.decisions ++ [s.decision]
      main := .release }
  | .release =>
    some { s with kernel := (release (some s.semId) irdPid s.kernel).2, main := .sleep }

def flankStep (M : Nat) (s : CycleSys) : Option CycleSys :=
  match s.flank with
  | .idle => some { s with flank := .acquire }
  | .acquire =>
    (acquire (some s.semId) irdPid s.kernel).map fun r =>
      { s with kernel := r.2, flank := .read }
  | .read => some { s with flank := .write s.daemon.irRecvd }
  | .write v =>
    some { s with
      daemon := { s.daemon with irRecvd := (v + 1) % M }
      increments := s.increments + 1
      flank := .release }
  | .release =>
    some { s with kernel := (release (some s.semId) irdPid s.kernel).2, flank := .idle }

/-- The steps.  `wake` ends the sleep of the main loop; `sighup` interrupts it and loads
new settings. -/
inductive Act
  | main (now : Int)
  | wake
  | sighup (c : Settings)
  | flank
  | callback
  | ctl (n : Nat)
  | ctlKill (n : Nat)
  deriving DecidableEq, Repr

def step (M : Nat) (s : CycleSys) : Act → Option CycleSys
  | .main now => mainStep M s now
  | .wake => if s.main = .sleep then some { s with main := .acquire } else none
  | .sighup c => if s.main = .sleep then some { s with settings := c } else none
  | .flank => flankStep M s
  | .callback =>
    (bracketLoop (some s.semId) irdPid s.kernel s.callback).map fun r =>
      { s with callback := r.1, kernel := r.2 }
  | .ctl n =>
    (bracketLoop (some s.semId) (ctlPid n) s.kernel (s.ctls n)).map fun r =>
      { s with ctls := Function.update s.ctls n r.1, kernel := r.2 }
  | .ctlKill n => some { s with ctls := Function.update s.ctls n .outside }

/-! ### What a step can do -/

inductive StepTo (M : Nat) (s : CycleSys) : Act → CycleSys → Prop
  | acquire (now ok k) (hm : s.main = .acquire)
      (hr : acquire (some s.semId) irdPid s.kernel = some (ok, k)) :
      StepTo M s (.main now) { s with kernel := k, main := .count, reads := [] }
  | count (now) (hm : s.main = .count) :
      StepTo M s (.main now) { s with
        daemon := countCycle M s.settings s.daemon
        reads := s.reads ++ [s.daemon.irRecvd]
        decision := s.daemon.irRecvd
        main := .exportState }
  | exportState (now) (hm : s.main = .exportState) :
      StepTo M s (.main now) { s with
        daemon := { s.daemon with sAstate := s.daemon.astate }
        main := .switch }
  | switch (now) (hm : s.main = .switch) :
      StepTo M s (.main now) { s with
        daemon := (alarmSwitch s.settings now s.daemon).1
        reads := s.reads ++ (alarmSwitch s.settings now s.daemon).2.flatMap Event.recvd
        moved := takesTransition s.settings now s.daemon
        main := .calls (alarmSwitch s.settings now s.daemon).2 }
  | callsEnd (now) (hm : s.main = .calls []) : StepTo M s (.main now) { s with main := .reset }
  | call (now e es) (hm : s.main = .calls (e :: es)) :
      StepTo M s (.main now) { s with
        reads := s.reads ++ if e.readsAgain then [s.daemon.irRecvd] else []
        main := .calls es }
  | reset (now) (hm : s.main = .reset) :
      StepTo M s (.main now) { s with
        daemon := { s.daemon with irRecvd := 0 }
        decisions := s.decisions ++ [s.decision]
        main := .release }
  | release (now) (hm : s.main = .release) :
      StepTo M s (.main now) { s with
        kernel := (release (some s.semId) irdPid s.kernel).2
        main := .sleep }
  | wake (hm : s.main = .sleep) : StepTo M s .wake { s with main := .acquire }
  | sighup (c) (hm : s.main = .sleep) : StepTo M s (.sighup c) { s with settings := c }
  | flankEnters (hf : s.flank = .idle) : StepTo M s .flank { s with flank := .acquire }
  | flankAcquire (ok k) (hf : s.flank = .acquire)
      (hr : acquire (some s.semId) irdPid s.kernel = some (ok, k)) :
      StepTo M s .flank { s with kernel := k, flank := .read }
  | flankRead (hf : s.flank = .read) :
      StepTo M s .flank { s with flank := .write s.daemon.irRecvd }
  | flankWrite (v) (hf : s.flank = .write v) :
      StepTo M s .flank { s with
        daemon := { s.daemon with irRecvd := (v + 1) % M }
        increments := s.increments + 1
        flank := .release }
  | flankRelease (hf : s.flank = .release) :
      StepTo M s .flank { s with
        kernel := (release (some s.semId) irdPid s.kernel).2
        flank := .idle }
  | callback (b k)
      (hb : bracketLoop (some s.semId) irdPid s.kernel s.callback = some (b, k)) :
      StepTo M s .callback { s with callback := b, kernel := k }
  | ctl (n b k) (hb : bracketLoop (some s.semId) (ctlPid n) s.kernel (s.ctls n) = some (b, k)) :
      StepTo M s (.ctl n) { s with ctls := Function.update s.ctls n b, kernel := k }
  | ctlKill (n) :
      StepTo M s (.ctlKill n) { s with ctls := Function.update s.ctls n .outside }

section Step

variable {M : Nat} {s t : CycleSys} {a : Act}

theorem stepTo_mainStep {now : Int} (h : mainStep M s now = some t) :
    StepTo M s (.main now) t := by
  rw [mainStep] at h
  split at h
  next => cases h
  next hm =>
    obtain ⟨⟨ok, k⟩, hr, rfl⟩ := Option.map_eq_some_iff.mp h
    exact .acquire now ok k hm hr
  next hm =>
    obtain rfl := Option.some.inj h
    exact .count now hm
  next hm =>
    obtain rfl := Option.some.inj h
    exact .exportState now hm
  next hm =>
    obtain rfl := Option.some.inj h
    exact .switch now hm
  next hm =>
    obtain rfl := Option.some.inj h
    exact .callsEnd now hm
  next e es hm =>
    obtain rfl := Option.some.inj h
    exact .call now e es hm
  next hm =>
    obtain rfl := Option.some.inj h
    exact .reset now hm
  next hm =>
    obtain rfl := Option.some.inj h
    exact .release now hm

theorem stepTo_flankStep (h : flankStep M s = some t) : StepTo M s .flank t := by
  rw [flankStep] at h
  split at h
  next hf =>
    obtain rfl := Option.some.inj h
    exact .flankEnters hf
  next hf =>
    obtain ⟨⟨ok, k⟩, hr, rfl⟩ := Option.map_eq_some_iff.mp h
    exact .flankAcquire ok k hf hr
  next hf =>
    obtain rfl := Option.some.inj h
    exact .flankRead hf
  next v hf =>
    obtain rfl := Option.some.inj h
    exact .flankWrite v hf
  next hf =>
    obtain rfl := Option.some.inj h
    exact .flankRelease hf

theorem stepTo_of_step (h : step M s a = some t) : StepTo M s a t := by
  cases a with
  | main now => exact stepTo_mainStep h
  | flank => exact stepTo_flankStep h
  | wake =>
    obtain ⟨hm, h⟩ := Option.ite_none_right_eq_some.mp h
    obtain rfl := Option.some.inj h
    exact .wake hm
  | sighup c =>
    obtain ⟨hm, h⟩ := Option.ite_none_right_eq_some.mp h
    obtain rfl := Option.some.inj h
    exact .sighup c hm
  | callback =>
    obtain ⟨⟨b, k⟩, hb, rfl⟩ := Option.map_eq_some_iff.mp h
    exact .callback b k hb
  | ctl n =>
    obtain ⟨⟨b, k⟩, hb, rfl⟩ := Option.map_eq_some_iff.mp h
    exact .ctl n b k hb
  | ctlKill n =>
    obtain rfl := Option.some.inj h
    exact .ctlKill n

end Step

/-- The loop is entered: the semaphore is at `1`, its id is set and nobody is inside.  No
cycle has run, and every flank so far is still in `ir_recvd`. -/
structure Entered (s : CycleSys) : Prop where
  kernel : ∃ pid, s.kernel = some ⟨s.semId, 1, pid⟩
  main : s.main = .sleep
  outside : ∀ p, ¬ s.Inside p
  exported : s.daemon.sAstate = s.daemon.astate
  reads : s.reads = []
  decisions : s.decisions = []
  increments : s.increments = s.daemon.irRecvd
  moved : s.moved = false

def entered : CycleSys where
  kernel := some ⟨1, 1, irdPid⟩
  semId := 1
  daemon := .initial
  settings := .initial true
  main := .sleep
  flank := .idle
  callback := .outside
  ctls := fun _ => .outside
  reads := []
  decision := 0
  decisions := []
  increments := 0
  moved := false

theorem entered_entered : Entered entered where
  kernel := ⟨irdPid, rfl⟩
  main := rfl
  outside p := by cases p <;> rintro ⟨⟩
  exported := rfl
  reads := rfl
  decisions := rfl
  increments := rfl
  moved := rfl

/-! ### The semaphore is a lock -/

/-- The semaphore is used as a lock, and the id names it. -/
structure Locked (s : CycleSys) : Prop where
  mutex : Mutex s.kernel s.Inside
  names : Names (some s.semId) s.kernel

section Locked

variable {M : Nat} {s t : CycleSys}

/-- A step that makes no call, after which nobody is inside who was not before. -/
theorem Locked.leave (hs : Locked s) (hkernel : t.kernel = s.kernel) (hid : t.semId = s.semId)
    (hin : ∀ p, t.Inside p → s.Inside p) : Locked t := by
  refine ⟨?_, ?_⟩
  · rw [hkernel]
    exact hs.mutex.leave hin
  · rw [hkernel, hid]
    exact hs.names

theorem Locked.stay (hs : Locked s) (hkernel : t.kernel = s.kernel) (hid : t.semId = s.semId)
    (hsame : ∀ p, t.bracket p = s.bracket p) : Locked t := by
  refine hs.leave hkernel hid ?_
  intro p hp
  rw [Inside, hsame] at hp
  exact hp

theorem Locked.bracketStep (hs : Locked s) (p : SemParty) (me : Nat)
    (h : bracketStep (some s.semId) me s.kernel (s.bracket p) = some (t.bracket p, t.kernel))
    (hid : t.semId = s.semId) (hother : ∀ q, q ≠ p → t.bracket q = s.bracket q) : Locked t := by
  refine ⟨?_, ?_⟩
  · refine mutex_bracketStep (p := p) hs.mutex h (fun _ => hs.names) Iff.rfl Iff.rfl ?_
    intro q hq
    rw [Inside, Inside, hother q hq]
  · rw [hid]
    cases hb : s.bracket p with
    | outside =>
      rw [hb] at h
      cases h
    | acquire =>
      rw [hb] at h
      obtain ⟨⟨ok, k⟩, hr, heq⟩ := Option.map_eq_some_iff.mp h
      obtain ⟨-, rfl⟩ := Prod.mk.inj heq
      exact hs.names.acquire hr
    | work =>
      rw [hb] at h
      obtain ⟨-, hk⟩ := Prod.mk.inj (Option.some.inj h)
      rw [← hk]
      exact hs.names
    | release =>
      rw [hb] at h
      obtain ⟨-, hk⟩ := Prod.mk.inj (Option.some.inj h)
      rw [← hk]
      exact hs.names.release

theorem Locked.bracketLoop (hs : Locked s) (p : SemParty) (me : Nat)
    (h : bracketLoop (some s.semId) me s.kernel (s.bracket p) = some (t.bracket p, t.kernel))
    (hid : t.semId = s.semId) (hother : ∀ q, q ≠ p → t.bracket q = s.bracket q) : Locked t := by
  rw [IrAlarm.bracketLoop.eq_def] at h
  split at h
  next hb =>
    obtain ⟨hin, hk⟩ := Prod.mk.inj (Option.some.inj h)
    refine hs.leave hk.symm hid ?_
    intro q hq
    by_cases hqp : q = p
    · rw [Inside, hqp, ← hin] at hq
      cases hq
    · rwa [Inside, hother q hqp] at hq
  next => exact hs.bracketStep p me h hid hother

theorem bracket_of_ne_main (hflank : t.flank = s.flank) (hcallback : t.callback = s.callback)
    (hctls : t.ctls = s.ctls) (q : SemParty) (hq : q ≠ .main) : t.bracket q = s.bracket q := by
  cases q with
  | main => exact absurd rfl hq
  | flank => rw [bracket, bracket, hflank]
  | callback => rw [bracket, bracket, hcallback]
  | ctl n => rw [bracket, bracket, hctls]

theorem bracket_of_ne_flank (hmain : t.main = s.main) (hcallback : t.callback = s.callback)
    (hctls : t.ctls = s.ctls) (q : SemParty) (hq : q ≠ .flank) : t.bracket q = s.bracket q := by
  cases q with
  | main => rw [bracket, bracket, hmain]
  | flank => exact absurd rfl hq
  | callback => rw [bracket, bracket, hcallback]
  | ctl n => rw [bracket, bracket, hctls]

theorem Locked.work (hs : Locked s) (hm : s.main.bracket = .work) (ht : t.main.bracket = .work)
    (hkernel : t.kernel = s.kernel) (hid : t.semId = s.semId) (hflank : t.flank = s.flank)
    (hcallback : t.callback = s.callback) (hctls : t.ctls = s.ctls) : Locked t := by
  refine hs.stay hkernel hid ?_
  intro q
  by_cases hq : q = .main
  · subst hq
    exact ht.trans hm.symm
  · exact bracket_of_ne_main hflank hcallback hctls q hq

theorem Locked.ctlKill (hs : Locked s) (n : Nat) :
    Locked { s with ctls := Function.update s.ctls n .outside } := by
  refine hs.leave rfl rfl ?_
  intro q hq
  cases q with
  | ctl m =>
    have hin : (Function.update s.ctls n .outside m).inside = true := hq
    by_cases hm : m = n
    · rw [hm, Function.update_self] at hin
      cases hin
    · rw [Function.update_of_ne hm] at hin
      exact hin
  | main | flank | callback => exact hq

theorem locked_step {a : Act} (hs : Locked s) (h : step M s a = some t) : Locked t := by
  cases stepTo_of_step h with
  | acquire now ok k hm hr =>
    refine hs.bracketStep .main irdPid ?_ rfl (bracket_of_ne_main rfl rfl rfl)
    rw [bracket, hm]
    exact Option.map_eq_some_iff.mpr ⟨_, hr, rfl⟩
  | count now hm | exportState now hm | switch now hm | callsEnd now hm | call now e es hm =>
    exact hs.work (by rw [hm]; rfl) rfl rfl rfl rfl rfl rfl
  | reset now hm | release now hm =>
    refine hs.bracketStep .main irdPid ?_ rfl (bracket_of_ne_main rfl rfl rfl)
    rw [bracket, hm]
    rfl
  | wake =>
    refine hs.leave rfl rfl ?_
    intro q hq
    cases q with
    | main => cases hq
    | flank | callback | ctl n => exact hq
  | sighup => exact hs.stay rfl rfl fun _ => rfl
  | flankEnters hf =>
    refine hs.bracketLoop .flank irdPid ?_ rfl (bracket_of_ne_flank rfl rfl rfl)
    rw [bracket, hf]
    rfl
  | flankAcquire ok k hf hr =>
    refine hs.bracketStep .flank irdPid ?_ rfl (bracket_of_ne_flank rfl rfl rfl)
    rw [bracket, hf]
    exact Option.map_eq_some_iff.mpr ⟨_, hr, rfl⟩
  | flankRead hf =>
    refine hs.stay rfl rfl ?_
    intro q
    cases q with
    | flank =>
      show FlankPc.bracket (.write s.daemon.irRecvd) = s.flank.bracket
      rw [hf]
      rfl
    | main | callback | ctl n => rfl
  | flankWrite v hf | flankRelease hf =>
    refine hs.bracketStep .flank irdPid ?_ rfl (bracket_of_ne_flank rfl rfl rfl)
    rw [bracket, hf]
    rfl
  | callback b k hb =>
    refine hs.bracketLoop .callback irdPid hb rfl ?_
    intro q hq
    cases q with
    | callback => exact absurd rfl hq
    | main | flank | ctl n => rfl
  | ctl n b k hb =>
    refine hs.bracketLoop (.ctl n) (ctlPid n) ?_ rfl ?_
    · show _ = some (Function.update s.ctls n b n, k)
      rw [Function.update_self]
      exact hb
    · intro q hq
      cases q with
      | ctl m =>
        have hm : m ≠ n := fun hm => hq (hm ▸ rfl)
        exact Function.update_of_ne hm ..
      | main | flank | callback => rfl
  | ctlKill n => exact hs.ctlKill n

end Locked

theorem locked_of_entered {s : CycleSys} (h : Entered s) : Locked s := by
  obtain ⟨pid, hkernel⟩ := h.kernel
  refine ⟨?_, ?_⟩
  · refine ⟨?_, ?_, ?_⟩
    · intro set hset
      obtain rfl := Option.some.inj (hkernel.symm.trans hset)
      exact Nat.le_refl 1
    · intro _ _ _
      exact h.outside
    · intro p _ hp _
      exact absurd hp (h.outside p)
  · exact ⟨_, hkernel, rfl⟩

end CycleSys

end Raspberries.IrAlarm
