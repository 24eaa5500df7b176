import Raspberries.IrAlarm.AlarmWorker

/-!
# A raised alarm and its worker

A worker that has sampled `ALRM_NONE` still has its `irthread_suspend` to come: it is
*stale*.  If the main loop raises the next alarm before that, its `irthread_resume`
finds `susp = 0` and returns `-1`, and the stale suspend then stops the worker of an
alarm that is raised (`raised_alarm_suspended`).

`raised_alarm_running` proves that this is the only way: as long as no resume meets a
stale worker, the worker of a raised alarm runs with the data of the alarm.
-/

namespace Raspberries.IrAlarm

open Transition

def dataAfter (w : Worker) : AlrmState → List Event → AlrmState
  | data, [] => data
  | data, .setdata w' data' :: es => dataAfter w (if w' = w then data' else data) es
  | data, .doAlarmAction _ :: es | data, .undoAlarmAction _ :: es | data, .resume _ :: es =>
    dataAfter w data es

theorem cycle_calls (M : Nat) (c : Settings) (d : Daemon) (t : Tick) :
    (∃ r, (cycle M c d t).1.astate = .preactive ∧ d.astate = .none ∧
      (cycle M c d t).2 = [.doAlarmAction r, .setdata .alarm .preactive,
        .setdata .status .preactive, .resume .alarm]) ∨
    ((cycle M c d t).1.astate = .active ∧ d.astate = .preactive ∧
      (cycle M c d t).2 = [.setdata .alarm .active, .setdata .status .active]) ∨
    (∃ r, (cycle M c d t).1.astate = .none ∧
      (cycle M c d t).2 = [.setdata .alarm .none, .setdata .status .none, .undoAlarmAction r]) ∨
    (cycle M c d t).1.astate = d.astate ∧ (cycle M c d t).2 = [] := by
  obtain ⟨r, hr, heq⟩ := cycle_outcome M c d t
  rw [heq]
  cases hr with
  | raise hnone _ => exact Or.inl ⟨_, rfl, by simpa using hnone, rfl⟩
  | escalate hpre _ => exact Or.inr (Or.inl ⟨rfl, by simpa using hpre, rfl⟩)
  | clear _ _ => exact Or.inr (Or.inr (Or.inl ⟨_, rfl, rfl⟩))
  | stay _ _ _ => exact Or.inr (Or.inr (Or.inr ⟨by simp, rfl⟩))

namespace AlarmSys

/-- The calls the main loop still has to make in this cycle. -/
def pending (s : AlarmSys) : List Event :=
  match s.main with
  | .calls es => es
  | _ => []

/-- The worker has sampled `ALRM_NONE` and its `irthread_suspend` is still to come. -/
def stale : AlarmPc → Bool
  | .sampled data => data = .none
  | .callback _ rest => rest.contains .suspend
  | _ => false

/-- The step is the `irthread_resume` of the main loop and the worker is stale. -/
def staleResume (s : AlarmSys) : Act → Bool
  | .main =>
    match s.main with
    | .calls (.resume .alarm :: _) => stale s.worker
    | _ => false
  | _ => false

theorem stale_alarmThread (sSpeaker : Nat) (data : AlrmState) :
    stale (.callback data (alarmThread sSpeaker data)) = stale (.sampled data) := by
  cases data with
  | active => by_cases h : sSpeaker > 0 <;> simp [stale, alarmThread, h]
  | preactive | none => simp [stale, alarmThread]

theorem stale_wake (w : AlarmPc) : stale (wake w) = stale w := by
  cases w <;> rfl

theorem wake_ne_parked (w : AlarmPc) : wake w ≠ .parked := by
  cases w <;> nofun

/-! ### The calls of a cycle -/

theorem mainCall_daemon (s : AlarmSys) (e : Event) : (s.mainCall e).daemon = s.daemon := by
  cases e with
  | doAlarmAction r | undoAlarmAction r => rfl
  | setdata w data | resume w => cases w <;> rfl

/-- A step of the system, seen from the main loop: nothing, the next call, or a cycle. -/
theorem pending_of_step {M : Nat} {s t : AlarmSys} {a : Act} (h : step M s a = some t) :
    pending t = pending s ∧ t.daemon = s.daemon ∨
    (∃ e, pending s = e :: pending t ∧ t.daemon = s.daemon) ∨
    ∃ tick, t.daemon = (IrAlarm.cycle M s.settings s.daemon tick).1 ∧
      pending t = (IrAlarm.cycle M s.settings s.daemon tick).2 := by
  cases stepTo_of_step h with
  | start hm | callsEnd hm => exact Or.inl ⟨by rw [pending, pending, hm], rfl⟩
  | call e es hm => exact Or.inr (Or.inl ⟨e, by rw [pending, hm]; rfl, mainCall_daemon s e⟩)
  | cycle tick => exact Or.inr (Or.inr ⟨tick, rfl, rfl⟩)
  | sighup | spurious => exact Or.inl ⟨rfl, rfl⟩
  | parks | samples | woken | enters | returns | digitalWrite | usleep | suspend =>
    exact Or.inl ⟨rfl, rfl⟩

/-- The worker is resumed by the last call of a cycle, when the alarm is raised. -/
structure ResumeLast (s : AlarmSys) : Prop where
  last : ∀ l es, pending s = l ++ .resume .alarm :: es → es = []
  raised : .resume .alarm ∈ pending s → s.daemon.astate ≠ .none

theorem resumeLast_step {M : Nat} {s t : AlarmSys} {a : Act} (hs : s.ResumeLast)
    (h : step M s a = some t) : t.ResumeLast := by
  rcases pending_of_step h with ⟨hp, hd⟩ | ⟨e, hp, hd⟩ | ⟨tick, hd, hp⟩
  · refine ⟨?_, ?_⟩
    · rw [hp]
      exact hs.last
    · rw [hp, hd]
      exact hs.raised
  · refine ⟨?_, ?_⟩
    · intro l es hl
      apply hs.last (e :: l)
      rw [hp, hl]
      rfl
    · intro hmem
      rw [hd]
      apply hs.raised
      rw [hp]
      exact List.mem_cons_of_mem e hmem
  · have hcalls := cycle_calls M s.settings s.daemon tick
    rw [← hd, ← hp] at hcalls
    rcases hcalls with ⟨r, ha, -, hes⟩ | ⟨ha, -, hes⟩ | ⟨r, ha, hes⟩ | ⟨ha, hes⟩
    · refine ⟨?_, ?_⟩
      · intro l es hl
        rw [hes] at hl
        rcases l with _ | ⟨_, _ | ⟨_, _ | ⟨_, _ | ⟨_, l⟩⟩⟩⟩ <;> simp at hl
        exact hl.2.2.2
      · intro _
        rw [ha]
        nofun
    all_goals
      have hnot : .resume .alarm ∉ pending t := by
        rw [hes]
        simp
      refine ⟨?_, ?_⟩
      · intro l es hl
        exact absurd (hl ▸ List.mem_append_right l List.mem_cons_self) hnot
      · exact fun hmem => absurd hmem hnot

/-! ### The invariant -/

/-- What holds while no resume meets a stale worker. -/
structure Running (s : AlarmSys) : Prop where
  alarmData : dataAfter .alarm s.alarm.data (pending s) = s.daemon.astate
  statusData : dataAfter .status s.status.data (pending s) = s.daemon.astate
  start : s.main = .start → s.daemon.astate = .none
  parked : s.worker = .parked → s.alarm.susp = true
  /-- A raised alarm has its resume still to come, or a worker that will not suspend itself. -/
  raised : s.daemon.astate ≠ .none → .resume .alarm ∈ pending s ∨
    s.alarm.susp = false ∧ stale s.worker = false ∧ s.alarm.data ≠ .none ∧
      ∀ data, .setdata .alarm data ∈ pending s → data ≠ .none

theorem running_cycle {M : Nat} {s : AlarmSys} {tick : Tick} (hs : s.Running)
    (hm : s.main = .sleep) :
    Running { s with
      daemon := (IrAlarm.cycle M s.settings s.daemon tick).1
      main := .calls (IrAlarm.cycle M s.settings s.daemon tick).2 } := by
  have hp : pending s = [] := by rw [pending, hm]
  obtain ⟨halarm, hstatus, -, hparked, hraised⟩ := hs
  rw [hp] at halarm hstatus hraised
  rcases cycle_calls M s.settings s.daemon tick with
    ⟨r, ha, -, hes⟩ | ⟨ha, hpre, hes⟩ | ⟨r, ha, hes⟩ | ⟨ha, hes⟩
  · refine ⟨?_, ?_, nofun, hparked, fun _ => Or.inl ?_⟩
    · rw [ha, pending, hes]
      rfl
    · rw [ha, pending, hes]
      rfl
    · rw [pending, hes]
      simp
  · -- the worker of the alarm runs already
    refine ⟨?_, ?_, nofun, hparked, fun _ => Or.inr ?_⟩
    · rw [ha, pending, hes]
      rfl
    · rw [ha, pending, hes]
      rfl
    · rcases hraised (by rw [hpre]; nofun) with hmem | ⟨hsusp, hstale, hdata, -⟩
      · cases hmem
      · refine ⟨hsusp, hstale, hdata, fun data hmem => ?_⟩
        rw [pending, hes] at hmem
        rintro rfl
        simp at hmem
  · refine ⟨?_, ?_, nofun, hparked, fun hne => absurd ha hne⟩
    · rw [ha, pending, hes]
      rfl
    · rw [ha, pending, hes]
      rfl
  · refine ⟨?_, ?_, nofun, hparked, fun hne => Or.inr ?_⟩
    · rw [ha, pending, hes, ← halarm]
    · rw [ha, pending, hes, ← hstatus]
    · rw [ha] at hne
      rcases hraised hne with hmem | ⟨hsusp, hstale, hdata, -⟩
      · cases hmem
      · refine ⟨hsusp, hstale, hdata, fun data hmem => ?_⟩
        rw [pending, hes] at hmem
        cases hmem

/-- A call that leaves the alarm worker alone. -/
theorem running_skip {s u : AlarmSys} {e : Event} {es : List Event} (hs : s.Running)
    (hp : pending s = e :: es) (hdaemon : u.daemon = s.daemon) (halarm : u.alarm = s.alarm)
    (hworker : u.worker = s.worker) (he : e ≠ .resume .alarm)
    (hdata : dataAfter .alarm s.alarm.data es = s.daemon.astate)
    (hstatus : dataAfter .status u.status.data es = s.daemon.astate) :
    Running { u with main := .calls es } := by
  have hraised := hs.raised
  rw [hp] at hraised
  refine ⟨?_, ?_, nofun, ?_, ?_⟩
  · rw [hdaemon, halarm]
    exact hdata
  · rw [hdaemon]
    exact hstatus
  · rw [halarm, hworker]
    exact hs.parked
  · intro hne
    rw [hdaemon] at hne
    rw [halarm, hworker]
    rcases hraised hne with hmem | ⟨hsusp, hstale, hnone, hset⟩
    · refine Or.inl ?_
      rcases List.mem_cons.mp hmem with hmem | hmem
      · exact absurd hmem.symm he
      · exact hmem
    · exact Or.inr ⟨hsusp, hstale, hnone, fun d hd => hset d (List.mem_cons_of_mem e hd)⟩

theorem running_call {s : AlarmSys} {e : Event} {es : List Event} (hs : s.Running)
    (hlast : s.ResumeLast) (hm : s.main = .calls (e :: es))
    (hok : staleResume s .main = false) :
    Running { s.mainCall e with main := .calls es } := by
  have hp : pending s = e :: es := by rw [pending, hm]
  have halarm := hs.alarmData
  have hstatus := hs.statusData
  have hraised := hs.raised
  rw [hp] at halarm hstatus hraised
  cases e with
  | doAlarmAction r | undoAlarmAction r => exact running_skip hs hp rfl rfl rfl nofun halarm hstatus
  | setdata w data =>
    cases w with
    | status => exact running_skip hs hp rfl rfl rfl nofun halarm hstatus
    | alarm =>
      refine ⟨halarm, hstatus, nofun, hs.parked, fun hne => ?_⟩
      rcases hraised hne with hmem | ⟨hsusp, hstale, -, hset⟩
      · exact Or.inl (by simpa [pending] using hmem)
      · refine Or.inr ⟨hsusp, hstale, hset data List.mem_cons_self, fun d hd => ?_⟩
        exact hset d (List.mem_cons_of_mem _ hd)
  | resume w =>
    cases w with
    | status =>
      refine running_skip hs hp rfl rfl rfl nofun halarm ?_
      rw [mainCall, irthreadResume_data]
      exact hstatus
    | alarm =>
      obtain rfl : es = [] := hlast.last [] es hp
      have hstale : stale s.worker = false := by rwa [staleResume, hm] at hok
      have hdata : s.alarm.data = s.daemon.astate := halarm
      refine ⟨?_, hstatus, nofun, ?_, fun hne => Or.inr ⟨?_, ?_, ?_, nofun⟩⟩
      · rw [mainCall, irthreadResume_data]
        exact halarm
      · intro hw
        rw [mainCall] at hw
        by_cases hsusp : s.alarm.susp = true
        · rw [irthreadResume, hsusp] at hw
          exact absurd hw (wake_ne_parked _)
        · simp [irthreadResume, hsusp] at hw
          exact absurd (hs.parked hw) hsusp
      · rw [mainCall, irthreadResume_susp]
      · change stale (if (irthreadResume s.alarm).2.2 then wake s.worker else s.worker) = false
        split
        · rw [stale_wake, hstale]
        · exact hstale
      · rw [mainCall, irthreadResume_data, hdata]
        exact hne

theorem Running.move {s : AlarmSys} (hs : s.Running) (w : AlarmPc) (pins : AlarmPin → Nat)
    (hw : w = .parked → s.alarm.susp = true)
    (hstale : stale s.worker = false → s.alarm.susp = false → s.alarm.data ≠ .none →
      stale w = false) : Running { s with worker := w, pins := pins } := by
  refine ⟨hs.alarmData, hs.statusData, hs.start, hw, fun hne => (hs.raised hne).imp_right ?_⟩
  intro h
  obtain ⟨hsusp, hst, hdata, hset⟩ := h
  exact ⟨hsusp, hstale hst hsusp hdata, hdata, hset⟩

theorem Running.suspend {s : AlarmSys} {data : AlrmState} {rest : List AlarmInstr}
    (hs : s.Running) (hw : s.worker = .callback data (.suspend :: rest)) :
    Running { s with alarm := irthreadSuspend s.alarm, worker := .callback data rest } := by
  refine ⟨?_, hs.statusData, hs.start, nofun, fun hne => ?_⟩
  · rw [irthreadSuspend_data]
    exact hs.alarmData
  · rcases hs.raised hne with hmem | ⟨-, hst, -⟩
    · exact Or.inl hmem
    · simp [hw, stale] at hst

theorem running_step {M : Nat} {s t : AlarmSys} {a : Act} (hlast : s.ResumeLast) (hs : s.Running)
    (ha : staleResume s a = false) (h : step M s a = some t) : t.Running := by
  cases stepTo_of_step h with
  | start hm =>
    have hp : pending s = [] := by rw [pending, hm]
    obtain ⟨halarm, hstatus, hstart, -, -⟩ := hs
    rw [hp] at halarm hstatus
    refine ⟨?_, hstatus, nofun, fun _ => irthreadSuspend_susp _, fun hne => ?_⟩
    · rw [irthreadSuspend_data]
      exact halarm
    · exact absurd (hstart hm) hne
  | callsEnd hm =>
    have hp : pending s = [] := by rw [pending, hm]
    obtain ⟨halarm, hstatus, -, hparked, hraised⟩ := hs
    rw [hp] at halarm hstatus hraised
    exact ⟨halarm, hstatus, nofun, hparked, hraised⟩
  | call e es hm => exact running_call hs hlast hm ha
  | cycle tick hm => exact running_cycle hs hm
  | sighup => exact ⟨hs.alarmData, hs.statusData, hs.start, hs.parked, hs.raised⟩
  | parks _ hsusp =>
    exact hs.move .parked s.pins (fun _ => hsusp) fun _ hfalse => by simp [hsusp] at hfalse
  | samples | woken =>
    refine hs.move (.sampled s.alarm.data) s.pins nofun fun _ _ hdata => ?_
    simpa [stale] using hdata
  | enters data hw =>
    refine hs.move (.callback data _) s.pins nofun fun hst _ _ => ?_
    rw [stale_alarmThread, ← hw, hst]
  | returns => exact hs.move .test s.pins nofun fun _ _ _ => rfl
  | digitalWrite data pin value rest hw | usleep data us rest hw =>
    refine hs.move (.callback data rest) _ nofun fun hst _ _ => ?_
    simpa [hw, stale] using hst
  | suspend data rest hw => exact hs.suspend hw
  | spurious => exact hs.move .woken s.pins nofun fun _ _ _ => rfl

/-! ### Runs -/

theorem resumeLast_initial (c : Settings) : (initial c).ResumeLast := by
  refine ⟨?_, ?_⟩
  · intro l es hl
    simp [pending, initial] at hl
  · intro hmem
    cases hmem

theorem running_initial (c : Settings) : (initial c).Running :=
  ⟨rfl, rfl, fun _ => rfl, nofun, fun hne => absurd rfl hne⟩

theorem resumeLast_of_reach {M : Nat} {c : Settings} {ok : AlarmSys → Act → Prop} {s : AlarmSys}
    (hs : Reach (step M) ok (· = initial c) s) : s.ResumeLast := by
  apply hs.invariant_from (resumeLast_initial c)
  exact fun _ _ _ hlast _ h => resumeLast_step hlast h

theorem running_of_reach {M : Nat} {c : Settings} {s : AlarmSys}
    (hs : Reach (step M) (fun s a => staleResume s a = false) (· = initial c) s) : s.Running := by
  apply hs.invariant_of (fun _ => resumeLast_of_reach)
  · intro s hs
    rw [hs]
    exact running_initial c
  · exact fun _ _ _ => running_step

/-- The worker can come to suspend itself while the main loop does nothing. -/
def RunsIntoSuspend (M : Nat) (s : AlarmSys) : Prop :=
  ∃ t, Reach (step M) anyStep (· = s) t ∧ t.main = s.main ∧ t.daemon = s.daemon ∧
    t.alarm.susp = true

theorem runsIntoSuspend_of_step {M : Nat} {s t : AlarmSys} (h : step M s .worker = some t)
    (hmain : t.main = s.main) (hdaemon : t.daemon = s.daemon) (ht : RunsIntoSuspend M t) :
    RunsIntoSuspend M s := by
  obtain ⟨u, hu, humain, hudaemon, hsusp⟩ := ht
  have hst : Reach (step M) anyStep (· = s) t := .next (.start rfl) trivial h
  exact ⟨u, hst.trans hu, humain.trans hmain, hudaemon.trans hdaemon, hsusp⟩

theorem runsIntoSuspend_of_callback {M : Nat} {s : AlarmSys} {data : AlrmState}
    {rest : List AlarmInstr} (hw : s.worker = .callback data rest) (hmem : .suspend ∈ rest) :
    RunsIntoSuspend M s := by
  induction rest generalizing s with
  | nil => exact absurd hmem List.not_mem_nil
  | cons i rest ih =>
    have hrest : i ≠ .suspend → .suspend ∈ rest := by
      intro hi
      rcases List.mem_cons.mp hmem with hmem | hmem
      · exact absurd hmem.symm hi
      · exact hmem
    cases i with
    | digitalWrite pin value =>
      have hstep : step M s .worker = some { s with
          pins := Function.update s.pins pin value, worker := .callback data rest } := by
        rw [step, workerStep, hw]
      exact runsIntoSuspend_of_step hstep rfl rfl (ih rfl (hrest (by simp)))
    | usleep us =>
      have hstep : step M s .worker = some { s with worker := .callback data rest } := by
        rw [step, workerStep, hw]
      exact runsIntoSuspend_of_step hstep rfl rfl (ih rfl (hrest (by simp)))
    | suspend =>
      have hstep : step M s .worker = some { s with
          alarm := irthreadSuspend s.alarm, worker := .callback data rest } := by
        rw [step, workerStep, hw]
      exact ⟨_, .next (.start rfl) trivial hstep, rfl, rfl, irthreadSuspend_susp _⟩

theorem runsIntoSuspend_of_stale {M : Nat} {s : AlarmSys} (hs : stale s.worker = true) :
    RunsIntoSuspend M s := by
  cases hw : s.worker with
  | test | parked | woken =>
    rw [hw] at hs
    cases hs
  | sampled data =>
    have hstep : step M s .worker = some { s with
        worker := .callback data (alarmThread s.settings.sSpeaker data) } := by
      rw [step, workerStep, hw]
    have hmem := stale_alarmThread s.settings.sSpeaker data
    rw [← hw, hs, stale, List.contains_iff_mem] at hmem
    exact runsIntoSuspend_of_step hstep rfl rfl (runsIntoSuspend_of_callback rfl hmem)
  | callback data rest =>
    rw [hw, stale, List.contains_iff_mem] at hs
    exact runsIntoSuspend_of_callback hw hs

/-- A resume of a stale worker can end in a raised alarm whose worker is suspended. -/
theorem suspended_of_staleResume {M : Nat} {c : Settings} {s : AlarmSys}
    (hs : Reach (step M) anyStep (· = initial c) s) (hstale : staleResume s .main = true) :
    ∃ t, Reach (step M) anyStep (· = s) t ∧ t.main = .sleep ∧ t.daemon.astate ≠ .none ∧
      t.alarm.susp = true := by
  have hlast := resumeLast_of_reach hs
  rw [staleResume] at hstale
  split at hstale
  next es hm =>
    have hp : pending s = .resume .alarm :: es := by rw [pending, hm]
    obtain rfl : es = [] := hlast.last [] es hp
    have hraised := hlast.raised (hp ▸ List.mem_cons_self)
    -- the resume, the end of the cycle, and then the worker
    have hresume : step M s .main =
      some { s.mainCall (.resume .alarm) with main := .calls [] } := by
      rw [step, mainStep, hm]
    have hend : step M { s.mainCall (.resume .alarm) with main := .calls [] } .main =
        some { s.mainCall (.resume .alarm) with main := .sleep } := rfl
    have hworker : stale (s.mainCall (.resume .alarm)).worker = true := by
      change stale (if (irthreadResume s.alarm).2.2 then wake s.worker else s.worker) = true
      split
      · rw [stale_wake, hstale]
      · exact hstale
    have hreach : Reach (step M) anyStep (· = s)
        { s.mainCall (.resume .alarm) with main := .sleep } :=
      .next (.next (.start rfl) trivial hresume) trivial hend
    obtain ⟨t, ht, hmain, hdaemon, hsusp⟩ := @runsIntoSuspend_of_stale M
      { s.mainCall (.resume .alarm) with main := .sleep } hworker
    refine ⟨t, hreach.trans ht, hmain, ?_, hsusp⟩
    rw [hdaemon]
    exact hraised
  next => cases hstale

/-- The worker of a raised alarm runs, with the data of the alarm. -/
def Served (s : AlarmSys) : Prop :=
  s.main = .sleep → s.daemon.astate ≠ .none →
    s.alarm.susp = false ∧ s.worker ≠ .parked ∧
      s.alarm.data = s.daemon.astate ∧ s.status.data = s.daemon.astate

/-- **A raised alarm has a running worker**, between two cycles, as long as no resume
meets a stale worker; and from every reachable state in which a resume meets a stale
worker a raised alarm with a suspended worker can be reached. -/
theorem raised_alarm_running (M : Nat) (c : Settings) :
    (∀ s, Reach (step M) (fun s a => staleResume s a = false) (· = initial c) s → s.Served) ∧
    ∀ s, Reach (step M) anyStep (· = initial c) s → staleResume s .main = true →
      ∃ t, Reach (step M) anyStep (· = s) t ∧ ¬ t.Served := by
  refine ⟨?_, ?_⟩
  · intro s hs hm hne
    obtain ⟨halarm, hstatus, -, hparked, hraised⟩ := running_of_reach hs
    have hp : pending s = [] := by rw [pending, hm]
    rw [hp] at halarm hstatus hraised
    rcases hraised hne with hmem | ⟨hsusp, -⟩
    · cases hmem
    · refine ⟨hsusp, fun hw => ?_, halarm, hstatus⟩
      rw [hparked hw] at hsusp
      cases hsusp
  · intro s hs hstale
    obtain ⟨t, ht, hm, hne, hsusp⟩ := suspended_of_staleResume hs hstale
    refine ⟨t, ht, fun hserved => ?_⟩
    rw [(hserved hm hne).1] at hsusp
    cases hsusp

def quietCycles (n flanks : Nat) : List Act :=
  (List.replicate n [Act.cycle ⟨flanks, 0⟩, .main]).flatten

def raisedOnce : AlarmSys :=
  (exec (step (2 ^ 32)) (fun s a => staleResume s a = false) (initial (.initial true))
    (List.flatten [[.main, .worker], quietCycles 2 0, [.cycle ⟨0, 0⟩],
      List.replicate 5 .main])).get (by decide)

/-- The alarm is cleared, the worker samples `ALRM_NONE`, and three bad cycles raise the
next alarm up to its resume. -/
def raisedAgain : AlarmSys :=
  (exec (step (2 ^ 32)) anyStep (initial (.initial true))
    (List.flatten [[.main], quietCycles 2 0, [.cycle ⟨0, 0⟩], List.replicate 5 .main,
      quietCycles 15 8, [.cycle ⟨8, 0⟩], List.replicate 4 .main, [.worker],
      quietCycles 2 0, [.cycle ⟨0, 0⟩], List.replicate 3 .main])).get (by decide)

theorem raised_alarm_running_once :
    raisedOnce.Served ∧
    ∃ t, Reach (step (2 ^ 32)) anyStep (· = raisedAgain) t ∧ ¬ t.Served :=
  ⟨(raised_alarm_running _ _).1 _ (reach_get _ _ _),
    (raised_alarm_running _ _).2 _ (reach_get _ _ _) (by decide)⟩

def raisedSuspended : AlarmSys :=
  (exec (step (2 ^ 32)) anyStep raisedAgain
    (List.replicate 2 .main ++ List.replicate 5 .worker)).get (by decide)

theorem raised_alarm_suspended :
    ¬ ∀ s, Reach (step (2 ^ 32)) anyStep (· = initial (.initial true)) s → s.Served := by
  intro h
  have hagain : Reach (step (2 ^ 32)) anyStep (· = initial (.initial true)) raisedAgain :=
    reach_get _ _ _
  have hsuspended : Reach (step (2 ^ 32)) anyStep (· = raisedAgain) raisedSuspended :=
    reach_get _ _ _
  have hserved := h _ (hagain.trans hsuspended) (by decide) (by decide)
  exact absurd hserved.1 (by decide)

end AlarmSys

end Raspberries.IrAlarm
