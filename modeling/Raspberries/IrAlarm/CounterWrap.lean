import Raspberries.IrAlarm.MainLoop

/-!
# Counters that wrap

`ir_recvd_cycls` runs on while there is no alarm and `ir_alrm_cycls` while there is one,
so after months both wrap.  Neither is read then: `ir_alrm_cycls` decides in `ALRM_NONE`
and is reset when the alarm is cleared, `ir_recvd_cycls` decides in the alarm states and
is reset when the alarm is raised or becomes active.

`SameDecisions` relates the loop with counters of `w` bits to the loop with natural
numbers: a counter is only related in the states that read it.  `counters_may_wrap` is
the simulation for whole runs, in which a SIGHUP may replace the settings between two
cycles.
-/

namespace Raspberries.IrAlarm

/-- The variables before cycle `n`, which runs with the settings `c n`. -/
def daemonUnder (M : Nat) (c : Nat → Settings) (inp : Nat → Tick) : Nat → Daemon
  | 0 => Daemon.initial
  | n + 1 => (cycle M (c n) (daemonUnder M c inp n) (inp n)).1

/-- The calls of cycle `n`. -/
def callsUnder (M : Nat) (c : Nat → Settings) (inp : Nat → Tick) (n : Nat) : List Event :=
  (cycle M (c n) (daemonUnder M c inp n) (inp n)).2

inductive AlarmCall
  | doAlarmAction
  | undoAlarmAction
  deriving DecidableEq, Repr

def Event.alarmCall : Event → Option AlarmCall
  | .doAlarmAction _ => some .doAlarmAction
  | .undoAlarmAction _ => some .undoAlarmAction
  | .setdata _ _ | .resume _ => none

def alarmCalls (es : List Event) : List AlarmCall := es.filterMap Event.alarmCall

/-- The two loops are in the same state and agree on the counter that this state reads. -/
structure SameDecisions (d d' : Daemon) : Prop where
  astate : d.astate = d'.astate
  irAlrmStart : d.irAlrmStart = d'.irAlrmStart
  irRecvd : d.irRecvd = d'.irRecvd
  irAlrmCycls : d.astate = .none → d.irAlrmCycls = d'.irAlrmCycls
  irRecvdCycls : d.astate ≠ .none → d.irRecvdCycls = d'.irRecvdCycls

/-- The counter that the state reads can be raised once more without wrapping. -/
structure NoWrap (M : Nat) (d : Daemon) : Prop where
  irAlrmCycls : d.astate = .none → d.irAlrmCycls + 1 < M
  irRecvdCycls : d.astate ≠ .none → d.irRecvdCycls + 1 < M

/-! ### One cycle -/

theorem sameDecisions_countCycle {M : Nat} {c : Settings} {d d' : Daemon}
    (h : SameDecisions d d') (hd : NoWrap M d) :
    SameDecisions (countCycle M c d) (countCycle 0 c d') := by
  refine ⟨?_, ?_, ?_, ?_, ?_⟩
  · rw [countCycle_astate, countCycle_astate, h.astate]
  · rw [countCycle_irAlrmStart, countCycle_irAlrmStart, h.irAlrmStart]
  · rw [countCycle_irRecvd, countCycle_irRecvd, h.irRecvd]
  · intro hnone
    rw [countCycle_astate] at hnone
    have hlt := hd.irAlrmCycls hnone
    rw [countCycle_irAlrmCycls, countCycle_irAlrmCycls, ← h.irRecvd, ← h.irAlrmCycls hnone,
      Nat.mod_eq_of_lt hlt, Nat.mod_zero]
  · intro halarm
    rw [countCycle_astate] at halarm
    have hlt := hd.irRecvdCycls halarm
    rw [countCycle_irRecvdCycls, countCycle_irRecvdCycls, ← h.irRecvd, ← h.irRecvdCycls halarm,
      Nat.mod_eq_of_lt hlt, Nat.mod_zero]

theorem sameDecisions_clear {M : Nat} {c : Settings} {now : Int} {d d' : Daemon}
    (h : SameDecisions d d') (hne : d.astate ≠ .none) (hrst : c.irRstalarm + 1 < M) :
    let r := if d.irRecvdCycls > c.irRstalarm then clearAlarm c now d else (d, [])
    let r' := if d.irRecvdCycls > c.irRstalarm then clearAlarm c now d' else (d', [])
    SameDecisions r.1 r'.1 ∧ NoWrap M r.1 ∧ alarmCalls r.2 = alarmCalls r'.2 := by
  by_cases hclear : d.irRecvdCycls > c.irRstalarm
  · simp only [if_pos hclear]
    refine ⟨⟨rfl, h.irAlrmStart, h.irRecvd, fun _ => rfl, fun hn => absurd rfl hn⟩, ⟨?_, ?_⟩, rfl⟩
    · intro _
      show 0 + 1 < M
      omega
    · intro hn
      exact absurd rfl hn
  · simp only [if_neg hclear]
    refine ⟨h, ⟨?_, ?_⟩, trivial⟩
    · intro hnone
      exact absurd hnone hne
    · intro _
      omega

/-- The switch takes the same branch, and what it leaves behind cannot wrap in the next
cycle: a counter that decides is at most its threshold. -/
theorem sameDecisions_alarmSwitch {M : Nat} {c : Settings} {now : Int} {d d' : Daemon}
    (h : SameDecisions d d') (hmin : c.irMinalarm + 1 < M) (hrst : c.irRstalarm + 1 < M) :
    SameDecisions (alarmSwitch c now d).1 (alarmSwitch c now d').1 ∧
    NoWrap M (alarmSwitch c now d).1 ∧
    alarmCalls (alarmSwitch c now d).2 = alarmCalls (alarmSwitch c now d').2 := by
  obtain ⟨hstate, hstart, hrecvd, halrm, hcycls⟩ := h
  cases hst : d.astate with
  | none =>
    have halrm' := halrm hst
    rw [alarmSwitch, alarmSwitch, ← hstate, hst, ← halrm']
    by_cases hraise : d.irAlrmCycls > c.irMinalarm
    · simp only [if_pos hraise]
      refine ⟨⟨rfl, rfl, hrecvd, ?_, fun _ => rfl⟩, ⟨?_, ?_⟩, rfl⟩
      · intro hnone
        cases hnone
      · intro hnone
        cases hnone
      · intro _
        show 0 + 1 < M
        omega
    · simp only [if_neg hraise]
      refine ⟨⟨hstate, hstart, hrecvd, halrm, hcycls⟩, ⟨?_, ?_⟩, trivial⟩
      · intro _
        omega
      · intro hne
        exact absurd hst hne
  | preactive =>
    have hne : d.astate ≠ .none := by simp [hst]
    rw [alarmSwitch, alarmSwitch, ← hstate, hst, ← hstart, ← hcycls hne]
    by_cases htime : diffTimeWithNow now d.irAlrmStart 10 = 1
    · simp only [if_pos htime]
      refine ⟨⟨rfl, hstart, hrecvd, ?_, fun _ => rfl⟩, ⟨?_, ?_⟩, rfl⟩
      · intro hnone
        cases hnone
      · intro hnone
        cases hnone
      · intro _
        show 0 + 1 < M
        omega
    · simp only [if_neg htime]
      exact sameDecisions_clear ⟨hstate, hstart, hrecvd, halrm, hcycls⟩ hne hrst
  | active =>
    have hne : d.astate ≠ .none := by simp [hst]
    rw [alarmSwitch, alarmSwitch, ← hstate, hst, ← hcycls hne]
    exact sameDecisions_clear ⟨hstate, hstart, hrecvd, halrm, hcycls⟩ hne hrst

theorem sameDecisions_cycle {M : Nat} {c : Settings} {d d' : Daemon} {t : Tick}
    (h : SameDecisions d d') (hd : NoWrap M d) (hmin : c.irMinalarm + 1 < M)
    (hrst : c.irRstalarm + 1 < M) :
    SameDecisions (cycle M c d t).1 (cycle 0 c d' t).1 ∧ NoWrap M (cycle M c d t).1 ∧
    alarmCalls (cycle M c d t).2 = alarmCalls (cycle 0 c d' t).2 := by
  have hinput : SameDecisions { d with irRecvd := t.flanks } { d' with irRecvd := t.flanks } :=
    ⟨h.astate, h.irAlrmStart, rfl, h.irAlrmCycls, h.irRecvdCycls⟩
  obtain ⟨hs, hs', hst, ha, hr⟩ := @sameDecisions_countCycle M c _ _ hinput
    ⟨hd.irAlrmCycls, hd.irRecvdCycls⟩
  -- the export changes nothing that decides
  obtain ⟨hsame, hnowrap, hcalls⟩ := @sameDecisions_alarmSwitch M c t.now
    { countCycle M c { d with irRecvd := t.flanks } with
      sAstate := (countCycle M c { d with irRecvd := t.flanks }).astate }
    { countCycle 0 c { d' with irRecvd := t.flanks } with
      sAstate := (countCycle 0 c { d' with irRecvd := t.flanks }).astate }
    ⟨hs, hs', hst, ha, hr⟩ hmin hrst
  exact ⟨⟨hsame.astate, hsame.irAlrmStart, rfl, hsame.irAlrmCycls, hsame.irRecvdCycls⟩,
    ⟨hnowrap.irAlrmCycls, hnowrap.irRecvdCycls⟩, hcalls⟩

/-! ### Runs -/

/-- **Wrapping never changes a decision.**  With thresholds below `2 ^ w - 1` the loop
with counters of `w` bits has the states and the alarm calls of the loop with natural
numbers, whatever a SIGHUP does to the settings between the cycles. -/
theorem counters_may_wrap (w : Nat) (c : Nat → Settings) (inp : Nat → Tick)
    (hmin : ∀ n, (c n).irMinalarm < 2 ^ w - 1) (hrst : ∀ n, (c n).irRstalarm < 2 ^ w - 1)
    (n : Nat) :
    (daemonUnder (2 ^ w) c inp n).astate = (daemonUnder 0 c inp n).astate ∧
    alarmCalls (callsUnder (2 ^ w) c inp n) = alarmCalls (callsUnder 0 c inp n) := by
  have hmin' : ∀ n, (c n).irMinalarm + 1 < 2 ^ w := by
    intro n
    have hn := hmin n
    omega
  have hrst' : ∀ n, (c n).irRstalarm + 1 < 2 ^ w := by
    intro n
    have hn := hrst n
    omega
  have hrun : ∀ n, SameDecisions (daemonUnder (2 ^ w) c inp n) (daemonUnder 0 c inp n) ∧
      NoWrap (2 ^ w) (daemonUnder (2 ^ w) c inp n) := by
    intro n
    induction n with
    | zero =>
      have hw := hmin' 0
      refine ⟨⟨rfl, rfl, rfl, fun _ => rfl, fun _ => rfl⟩, ⟨?_, ?_⟩⟩
      · intro _
        show 0 + 1 < 2 ^ w
        omega
      · intro hne
        exact absurd rfl hne
    | succ n ih =>
      obtain ⟨hsame, hnowrap, -⟩ := sameDecisions_cycle (t := inp n) ih.1 ih.2 (hmin' n) (hrst' n)
      exact ⟨hsame, hnowrap⟩
  obtain ⟨hsame, hnowrap⟩ := hrun n
  obtain ⟨-, -, hcalls⟩ := sameDecisions_cycle (t := inp n) hsame hnowrap (hmin' n) (hrst' n)
  exact ⟨hsame.astate, hcalls⟩

def goodThenBad (n : Nat) : Tick := ⟨if n < 10 then 8 else 0, 0⟩

def quickReset (_ : Nat) : Settings := { Settings.initial true with irRstalarm := 2 }

/-- With three bits the count of the good cycles has wrapped when the alarm is raised. -/
theorem counters_may_wrap_three :
    (daemonUnder (2 ^ 3) quickReset goodThenBad 10).irRecvdCycls = 2 ∧
    (daemonUnder 0 quickReset goodThenBad 10).irRecvdCycls = 10 ∧
    (daemonUnder (2 ^ 3) quickReset goodThenBad 13).astate =
      (daemonUnder 0 quickReset goodThenBad 13).astate ∧
    alarmCalls (callsUnder (2 ^ 3) quickReset goodThenBad 13) =
      alarmCalls (callsUnder 0 quickReset goodThenBad 13) :=
  ⟨by decide, by decide, counters_may_wrap 3 quickReset goodThenBad
    (fun _ => show 2 < 2 ^ 3 - 1 by decide) (fun _ => show 2 < 2 ^ 3 - 1 by decide) 13⟩

end Raspberries.IrAlarm
