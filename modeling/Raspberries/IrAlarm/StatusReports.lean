import Raspberries.IrAlarm.CycleSys
import Raspberries.Lib.Transition

/-!
# Do the two status reports agree?

A cycle exports `astate` to the shared memory object before it runs the switch.  When the
switch takes a transition, the object keeps the old state until the next cycle, so for one
sleep of the main loop `iralarmctl` prints another state than the XMPP command `status`
(`stale_export`).

`reports_agree` says that this is the only way: the two agree in every run without a
transition, and whenever the semaphore is free they differ exactly if the last cycle has
taken one.  `iralarmctl` does not write the object here.
-/

namespace Raspberries.IrAlarm

open SysVSem Transition

/-! ### What the switch does to the two variables -/

theorem Outcome.sAstate {c : Settings} {now : Int} {d : Daemon} {r : Daemon × List Event}
    (h : Outcome c now d r) : r.1.sAstate = d.sAstate := by
  cases h with
  | raise | escalate | clear | stay => rfl

theorem alarmSwitch_astate {c : Settings} {now : Int} {d : Daemon} :
    d.astate = (alarmSwitch c now d).1.astate ↔ takesTransition c now d = false := by
  rw [alarmSwitch, takesTransition]
  cases hst : d.astate with
  | none =>
    by_cases h : d.irAlrmCycls > c.irMinalarm
    · simp [h, raiseAlarm]
    · simp [h, hst]
  | preactive =>
    by_cases ht : diffTimeWithNow now d.irAlrmStart 10 = 1
    · simp [ht, escalateAlarm]
    · by_cases h : d.irRecvdCycls > c.irRstalarm
      · simp [ht, h, clearAlarm]
      · simp [ht, h, hst]
  | active =>
    by_cases h : d.irRecvdCycls > c.irRstalarm
    · simp [h, clearAlarm]
    · simp [h, hst]

namespace CycleSys

def Free (s : CycleSys) : Prop := ∃ set, s.kernel = some set ∧ 0 < set.value

/-- What a reader finds when it enters. -/
def ReportsAgree (s : CycleSys) : Prop := s.Free → s.daemon.sAstate = s.daemon.astate

def NoTransition (s : CycleSys) : Act → Prop
  | .main now => s.main = .switch → takesTransition s.settings now s.daemon = false
  | _ => True

/-- The loop is entered, whoever has the semaphore. -/
structure Published (s : CycleSys) : Prop where
  main : s.main = .sleep
  exported : s.daemon.sAstate = s.daemon.astate
  moved : s.moved = false

/-- Right behind the export the two are equal, and later they are if the switch has not
taken a transition. -/
structure Exported (s : CycleSys) : Prop where
  fresh : s.main = .switch → s.daemon.sAstate = s.daemon.astate
  settled : s.main ≠ .switch → (s.daemon.sAstate = s.daemon.astate ↔ s.moved = false)

section Step

variable {M : Nat} {s t : CycleSys}

theorem Exported.keep (hs : Exported s) (hm : s.main ≠ .switch) (ht : t.main ≠ .switch)
    (hmoved : t.moved = s.moved) (hexport : t.daemon.sAstate = s.daemon.sAstate)
    (hstate : t.daemon.astate = s.daemon.astate) : Exported t := by
  refine ⟨fun hsw => absurd hsw ht, fun _ => ?_⟩
  rw [hexport, hstate, hmoved]
  exact hs.settled hm

theorem exported_step {a : Act} (hs : Exported s) (h : step M s a = some t) : Exported t := by
  cases stepTo_of_step h with
  | exportState => exact ⟨fun _ => rfl, fun hsw => absurd rfl hsw⟩
  | switch now hm =>
    have hequal := hs.fresh hm
    have hout := alarmSwitch_outcome s.settings now s.daemon
    refine ⟨(by simp), fun _ => ?_⟩
    show (alarmSwitch s.settings now s.daemon).1.sAstate = _ ↔ takesTransition _ _ _ = false
    rw [hout.sAstate, hequal]
    exact alarmSwitch_astate
  | count now hm =>
    exact hs.keep (by rw [hm]; rintro ⟨⟩) (by simp) rfl (countCycle_sAstate ..)
      (countCycle_astate ..)
  | acquire now ok k hm | callsEnd now hm | call now e es hm | reset now hm | release now hm
  | wake hm => exact hs.keep (by rw [hm]; rintro ⟨⟩) (by simp) rfl rfl rfl
  | flankEnters | flankAcquire | flankRead | flankWrite | flankRelease =>
    exact ⟨hs.fresh, hs.settled⟩
  | sighup | callback | ctl | ctlKill => exact ⟨hs.fresh, hs.settled⟩

theorem moved_step {a : Act} (hs : s.moved = false) (ha : NoTransition s a)
    (h : step M s a = some t) : t.moved = false := by
  cases stepTo_of_step h with
  | switch now hm => exact ha hm
  | _ => exact hs

end Step

/-! ### Runs -/

theorem exported_of_published {s : CycleSys} (h : Published s) : Exported s := by
  refine ⟨fun _ => h.exported, fun _ => ?_⟩
  rw [h.moved]
  exact iff_of_true h.exported rfl

theorem published_of_entered {s : CycleSys} (h : Entered s) : Published s :=
  ⟨h.main, h.exported, h.moved⟩

/-- While the semaphore is free the main thread is not before its switch. -/
theorem Locked.not_switch {s : CycleSys} (hs : Locked s) (hfree : s.Free) : s.main ≠ .switch := by
  obtain ⟨set, hset, hpos⟩ := hfree
  have hle := hs.mutex.le_one set hset
  have hout := hs.mutex.free set hset (by omega) .main
  intro hm
  rw [Inside, bracket, hm] at hout
  exact hout rfl

/-- **When the reports agree.**  They do in every run in which no switch takes a transition.
In a run that enters the loop with the semaphore at `1` they do, whenever it is free,
exactly if the last switch has taken none. -/
theorem reports_agree (M : Nat) :
    (∀ s, Reach (step M) NoTransition Published s → s.ReportsAgree) ∧
    ∀ s, Reach (step M) anyStep Entered s → s.Free →
      (s.daemon.sAstate = s.daemon.astate ↔ s.moved = false) := by
  refine ⟨?_, ?_⟩
  · intro s hs _
    have hinv : Exported s ∧ s.moved = false := by
      apply hs.invariant
      · exact fun s hs => ⟨exported_of_published hs, hs.moved⟩
      · exact fun s a t hs hok hst => ⟨exported_step hs.1 hst, moved_step hs.2 hok hst⟩
    obtain ⟨hexported, hmoved⟩ := hinv
    by_cases hm : s.main = .switch
    · exact hexported.fresh hm
    · exact (hexported.settled hm).mpr hmoved
  · intro s hs hfree
    have hinv : Locked s ∧ Exported s := by
      apply hs.invariant
      · exact fun s hs => ⟨locked_of_entered hs, exported_of_published (published_of_entered hs)⟩
      · exact fun s a t hs _ hst => ⟨locked_step hs.1 hst, exported_step hs.2 hst⟩
    exact hinv.2.settled (hinv.1.not_switch hfree)

instance (s : CycleSys) (a : Act) : Decidable (NoTransition s a) :=
  match a with
  | .main now => inferInstanceAs (Decidable
      (s.main = .switch → takesTransition s.settings now s.daemon = false))
  | .wake | .sighup _ | .flank | .callback | .ctl _ | .ctlKill _ => inferInstanceAs (Decidable True)

def quietCycle : CycleSys :=
  (exec (step (2 ^ 32)) NoTransition entered (.wake :: List.replicate 7 (.main 0))).get (by decide)

theorem reports_agree_once :
    quietCycle.decisions = [0] ∧ quietCycle.daemon.sAstate = quietCycle.daemon.astate ∧
    (quietCycle.daemon.sAstate = quietCycle.daemon.astate ↔ quietCycle.moved = false) := by
  have hreach : Reach (step (2 ^ 32)) NoTransition Entered quietCycle :=
    (Reach.start entered_entered).trans (reach_get entered _ _)
  have hreach' : Reach (step (2 ^ 32)) NoTransition Published quietCycle :=
    (Reach.start (published_of_entered entered_entered)).trans (reach_get entered _ _)
  have hfree : quietCycle.Free := ⟨⟨1, 1, irdPid⟩, by decide, by decide⟩
  refine ⟨by decide, ?_, ?_⟩
  · exact (reports_agree (2 ^ 32)).1 quietCycle hreach' hfree
  · exact (reports_agree (2 ^ 32)).2 quietCycle hreach.any hfree

def raisedCycle : CycleSys :=
  (exec (step (2 ^ 32)) anyStep entered (List.flatten
    [[.sighup { Settings.initial true with irMinalarm := 0 }, .wake],
      List.replicate 11 (.main 0)])).get (by decide)

/-- The alarm is raised, and the shared memory object says that there is none. -/
theorem stale_export :
    ¬ ∀ s, Reach (step (2 ^ 32)) anyStep Entered s → s.ReportsAgree := by
  intro h
  have hreach : Reach (step (2 ^ 32)) anyStep Entered raisedCycle :=
    (Reach.start entered_entered).trans (reach_get entered _ _)
  have hagree := h raisedCycle hreach ⟨⟨1, 1, irdPid⟩, by decide, by decide⟩
  exact absurd hagree (by decide)

end CycleSys

end Raspberries.IrAlarm
