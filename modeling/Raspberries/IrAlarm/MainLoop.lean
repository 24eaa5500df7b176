import Raspberries.IrAlarm.Settings

/-!
# The main loop of `iralarmd`

One iteration of the loop in `main` sleeps, takes the semaphore, and then runs
`cycle`: it counts the cycle as bad (fewer than `ir_minrecvd` flanks) or good,
exports the alarm state, and switches on it.  What the cycle does to the outside
comes back as a list of events in the order of the calls: `doAlarmAction`,
`undoAlarmAction`, and the `irthread` calls on the two workers.

The counters are `size_t`, so they are kept modulo `M`, which is `2 ^ 32` on the
Pi; with `M = 0` they are the plain natural numbers (`n % 0 = n`).  The inputs of
a cycle are the value `ir_recvd` has when the semaphore is taken and the reading
of the clock.  A cycle that clears the alarm in `PREACTIVE` reads the clock in
`diffTimeWithNow` and once more in `undoAlarmAction`, for the second only to
report the time; both readings are taken for one here.

`alarmSwitch_outcome` lists everything the switch can do, with its guards; the
facts about runs are read off from it.
-/

namespace Raspberries.IrAlarm

inductive AlrmState
  | none
  | preactive
  | active
  deriving DecidableEq, Repr

/-- The variables of the main loop.  `sAstate` is the object `s_astate` points at. -/
structure Daemon where
  irRecvd : Nat
  irRecvdCycls : Nat
  irAlrmCycls : Nat
  astate : AlrmState
  irAlrmStart : Int
  sAstate : AlrmState
  deriving DecidableEq, Repr

def Daemon.initial : Daemon where
  irRecvd := 0
  irRecvdCycls := 0
  irAlrmCycls := 0
  astate := .none
  irAlrmStart := 0
  sAstate := .none

inductive Worker
  | alarm
  | status
  deriving DecidableEq, Repr

/-- What `doAlarmAction` reports, and whether it also sends the report to the
trusted JID and starts `raspivid`. -/
structure AlarmReport where
  irAlrmStart : Int
  irRecvd : Nat
  irMinrecvd : Nat
  irRecvdCycls : Nat
  irAlrmCycls : Nat
  xmpp : Bool
  video : Bool
  deriving DecidableEq, Repr

/-- What `undoAlarmAction` reports. -/
structure StopReport where
  irAlrmStop : Int
  difftm : Int
  irRecvd : Nat
  irRstalarm : Nat
  irRecvdCycls : Nat
  irAlrmCycls : Nat
  deriving DecidableEq, Repr

inductive Event
  | doAlarmAction (r : AlarmReport)
  | undoAlarmAction (r : StopReport)
  | setdata (t : Worker) (data : AlrmState)
  | resume (t : Worker)
  deriving DecidableEq, Repr

/-- The cast of a `double` to `int`; the conversion of the target saturates. -/
def truncInt (d : Int) : Int := max (-2 ^ 31) (min d (2 ^ 31 - 1))

/-- `diffTimeWithNow`, with the time it reads. -/
def diffTimeWithNow (now start difft : Int) : Int :=
  if truncInt (now - start) > difft then 1 else 0

theorem diffTimeWithNow_eq_one {now start : Int} :
    diffTimeWithNow now start 10 = 1 ↔ now - start > 10 := by
  have htrunc : truncInt (now - start) > 10 ↔ now - start > 10 := by
    rw [truncInt]; omega
  rw [diffTimeWithNow]
  by_cases h : truncInt (now - start) > 10
  · rw [if_pos h]; exact ⟨fun _ => htrunc.mp h, fun _ => rfl⟩
  · rw [if_neg h]; exact ⟨fun h0 => absurd h0 (by decide), fun h0 => absurd (htrunc.mpr h0) h⟩

def doAlarmAction (c : Settings) (d : Daemon) : AlarmReport where
  irAlrmStart := d.irAlrmStart
  irRecvd := d.irRecvd
  irMinrecvd := c.irMinrecvd
  irRecvdCycls := d.irRecvdCycls
  irAlrmCycls := d.irAlrmCycls
  xmpp := c.sXmpp > 0
  video := c.sVideo > 0

def undoAlarmAction (c : Settings) (now : Int) (d : Daemon) : StopReport where
  irAlrmStop := now
  difftm := truncInt (now - d.irAlrmStart)
  irRecvd := d.irRecvd
  irRstalarm := c.irRstalarm
  irRecvdCycls := d.irRecvdCycls
  irAlrmCycls := d.irAlrmCycls

/-! ### One cycle -/

def countCycle (M : Nat) (c : Settings) (d : Daemon) : Daemon :=
  if d.irRecvd < c.irMinrecvd then
    { d with irAlrmCycls := (d.irAlrmCycls + 1) % M }
  else
    { d with
      irRecvdCycls := (d.irRecvdCycls + 1) % M
      irAlrmCycls := if d.irAlrmCycls > 0 then d.irAlrmCycls - 1 else d.irAlrmCycls }

/-- The alarm is raised (`case ALRM_NONE`). -/
def raiseAlarm (c : Settings) (now : Int) (d : Daemon) : Daemon × List Event :=
  let d := { d with irAlrmStart := now }
  let report := doAlarmAction c d
  ({ d with irRecvdCycls := 0, astate := .preactive },
    [.doAlarmAction report, .setdata .alarm .preactive, .setdata .status .preactive,
      .resume .alarm])

/-- The alarm becomes active (`case ALRM_PREACTIVE`, ten seconds later). -/
def escalateAlarm (d : Daemon) : Daemon × List Event :=
  ({ d with irRecvdCycls := 0, astate := .active },
    [.setdata .alarm .active, .setdata .status .active])

/-- The alarm is cleared; the same code in `ALRM_PREACTIVE` and `ALRM_ACTIVE`. -/
def clearAlarm (c : Settings) (now : Int) (d : Daemon) : Daemon × List Event :=
  let d := { d with astate := .none }
  ({ d with irAlrmCycls := 0 },
    [.setdata .alarm .none, .setdata .status .none,
      .undoAlarmAction (undoAlarmAction c now d)])

def alarmSwitch (c : Settings) (now : Int) (d : Daemon) : Daemon × List Event :=
  match d.astate with
  | .none => if d.irAlrmCycls > c.irMinalarm then raiseAlarm c now d else (d, [])
  | .preactive =>
    if diffTimeWithNow now d.irAlrmStart 10 = 1 then escalateAlarm d
    else if d.irRecvdCycls > c.irRstalarm then clearAlarm c now d
    else (d, [])
  | .active => if d.irRecvdCycls > c.irRstalarm then clearAlarm c now d else (d, [])

/-- What a cycle takes from outside. -/
structure Tick where
  flanks : Nat
  now : Int
  deriving DecidableEq, Repr

/-- The section of the loop between the two `semop`s. -/
def cycle (M : Nat) (c : Settings) (d : Daemon) (t : Tick) : Daemon × List Event :=
  let d := countCycle M c { d with irRecvd := t.flanks }
  let d := { d with sAstate := d.astate }
  let (d, calls) := alarmSwitch c t.now d
  ({ d with irRecvd := 0 }, calls)

/-! ### What the switch can do -/

/-- The outcomes of the switch, with the guards under which they happen. -/
inductive Outcome (c : Settings) (now : Int) (d : Daemon) : Daemon × List Event → Prop
  | raise : d.astate = .none → d.irAlrmCycls > c.irMinalarm → Outcome c now d (raiseAlarm c now d)
  | escalate : d.astate = .preactive → now - d.irAlrmStart > 10 →
      Outcome c now d (escalateAlarm d)
  | clear : d.astate = .preactive ∧ ¬ now - d.irAlrmStart > 10 ∨ d.astate = .active →
      d.irRecvdCycls > c.irRstalarm → Outcome c now d (clearAlarm c now d)
  | stay : (d.astate = .none → ¬ d.irAlrmCycls > c.irMinalarm) →
      (d.astate = .preactive → ¬ now - d.irAlrmStart > 10) →
      (d.astate ≠ .none → ¬ d.irRecvdCycls > c.irRstalarm) → Outcome c now d (d, [])

theorem alarmSwitch_outcome (c : Settings) (now : Int) (d : Daemon) :
    Outcome c now d (alarmSwitch c now d) := by
  rw [alarmSwitch]
  cases hst : d.astate with
  | none =>
    by_cases h : d.irAlrmCycls > c.irMinalarm
    · simp only [if_pos h]; exact .raise hst h
    · simp only [if_neg h]; exact .stay (fun _ => h) (by simp [hst]) (by simp [hst])
  | preactive =>
    by_cases ht : now - d.irAlrmStart > 10
    · simp only [if_pos (diffTimeWithNow_eq_one.mpr ht)]; exact .escalate hst ht
    · simp only [if_neg (mt diffTimeWithNow_eq_one.mp ht)]
      by_cases h : d.irRecvdCycls > c.irRstalarm
      · rw [if_pos h]; exact .clear (Or.inl ⟨hst, ht⟩) h
      · rw [if_neg h]; exact .stay (by simp [hst]) (fun _ => ht) (fun _ => h)
  | active =>
    by_cases h : d.irRecvdCycls > c.irRstalarm
    · simp only [if_pos h]; exact .clear (Or.inr hst) h
    · simp only [if_neg h]; exact .stay (by simp [hst]) (by simp [hst]) (fun _ => h)

/-! ### Small facts about the counters -/

@[simp] theorem countCycle_astate (M : Nat) (c : Settings) (d : Daemon) :
    (countCycle M c d).astate = d.astate := by
  rw [countCycle]; split <;> rfl

@[simp] theorem countCycle_irAlrmStart (M : Nat) (c : Settings) (d : Daemon) :
    (countCycle M c d).irAlrmStart = d.irAlrmStart := by
  rw [countCycle]; split <;> rfl

@[simp] theorem countCycle_sAstate (M : Nat) (c : Settings) (d : Daemon) :
    (countCycle M c d).sAstate = d.sAstate := by
  rw [countCycle]; split <;> rfl

@[simp] theorem countCycle_irRecvd (M : Nat) (c : Settings) (d : Daemon) :
    (countCycle M c d).irRecvd = d.irRecvd := by
  rw [countCycle]; split <;> rfl

theorem countCycle_irAlrmCycls (M : Nat) (c : Settings) (d : Daemon) :
    (countCycle M c d).irAlrmCycls =
      if d.irRecvd < c.irMinrecvd then (d.irAlrmCycls + 1) % M else d.irAlrmCycls - 1 := by
  rw [countCycle]
  split
  · rfl
  · show (if d.irAlrmCycls > 0 then d.irAlrmCycls - 1 else d.irAlrmCycls) = _
    split <;> omega

theorem countCycle_irRecvdCycls (M : Nat) (c : Settings) (d : Daemon) :
    (countCycle M c d).irRecvdCycls =
      if d.irRecvd < c.irMinrecvd then d.irRecvdCycls else (d.irRecvdCycls + 1) % M := by
  rw [countCycle]; split <;> rfl

/-- The outcomes of a whole cycle, on the counted variables. -/
theorem cycle_outcome (M : Nat) (c : Settings) (d : Daemon) (t : Tick) :
    ∃ r, Outcome c t.now
        { countCycle M c { d with irRecvd := t.flanks } with sAstate := d.astate } r ∧
      cycle M c d t = ({ r.1 with irRecvd := 0 }, r.2) := by
  refine ⟨_, alarmSwitch_outcome c t.now _, ?_⟩
  simp only [cycle, countCycle_astate]

/-! ### Runs with fixed settings -/

/-- The variables before cycle `n`. -/
def daemonAt (M : Nat) (c : Settings) (inp : Nat → Tick) : Nat → Daemon
  | 0 => Daemon.initial
  | n + 1 => (cycle M c (daemonAt M c inp n) (inp n)).1

/-- The calls of cycle `n`. -/
def callsAt (M : Nat) (c : Settings) (inp : Nat → Tick) (n : Nat) : List Event :=
  (cycle M c (daemonAt M c inp n) (inp n)).2

/-- A cycle is bad when it sees fewer than `ir_minrecvd` flanks, and good otherwise. -/
def Bad (c : Settings) (inp : Nat → Tick) (n : Nat) : Prop := (inp n).flanks < c.irMinrecvd

instance (c : Settings) (inp : Nat → Tick) : DecidablePred (Bad c inp) :=
  fun n => inferInstanceAs (Decidable ((inp n).flanks < c.irMinrecvd))

/-- The variables of cycle `n` after it has been counted. -/
def countedAt (M : Nat) (c : Settings) (inp : Nat → Tick) (n : Nat) : Daemon :=
  { countCycle M c { daemonAt M c inp n with irRecvd := (inp n).flanks } with
    sAstate := (daemonAt M c inp n).astate }

section Runs

variable (M : Nat) (c : Settings) (inp : Nat → Tick) (n : Nat)

@[simp] theorem countedAt_astate : (countedAt M c inp n).astate = (daemonAt M c inp n).astate :=
  countCycle_astate _ _ _

@[simp] theorem countedAt_irAlrmStart :
    (countedAt M c inp n).irAlrmStart = (daemonAt M c inp n).irAlrmStart :=
  countCycle_irAlrmStart _ _ _

theorem countedAt_irAlrmCycls : (countedAt M c inp n).irAlrmCycls =
    if Bad c inp n then ((daemonAt M c inp n).irAlrmCycls + 1) % M
    else (daemonAt M c inp n).irAlrmCycls - 1 :=
  countCycle_irAlrmCycls _ _ _

theorem countedAt_irRecvdCycls : (countedAt M c inp n).irRecvdCycls =
    if Bad c inp n then (daemonAt M c inp n).irRecvdCycls
    else ((daemonAt M c inp n).irRecvdCycls + 1) % M :=
  countCycle_irRecvdCycls _ _ _

/-- Every cycle of a run has one of the outcomes of the switch. -/
theorem run_outcome : ∃ r, Outcome c (inp n).now (countedAt M c inp n) r ∧
    daemonAt M c inp (n + 1) = { r.1 with irRecvd := 0 } ∧ callsAt M c inp n = r.2 := by
  obtain ⟨r, hr, heq⟩ := cycle_outcome M c (daemonAt M c inp n) (inp n)
  exact ⟨r, hr, by rw [daemonAt, heq], by rw [callsAt, heq]⟩

end Runs

end Raspberries.IrAlarm
