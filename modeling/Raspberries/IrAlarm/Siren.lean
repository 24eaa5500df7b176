import Raspberries.IrAlarm.AlarmWorker
import Raspberries.IrAlarm.SuspendedWorker

/-!
# Is the siren ever left on?

`alarm_thread` leaves the ALARM pin on behind `ALRM_ACTIVE` and switches both pins off
behind `ALRM_NONE`, and only then suspends its worker.  So a worker that parks has just
switched the pins off, or so it seems: `irthread_resume` stores `susp = 0` and signals
without the lock, and when the worker suspends itself and waits in between, the signal
wakes it with `susp = 1`.  It then samples whatever the data is by now, and parks behind
that callback.

`SirenSys` runs the main loop and the alarm worker with every access to the thread record
as a step of its own; the condition wait returns only after a signal, and a SIGHUP may
change the settings while the main loop sleeps.  `no_siren_left_on` proves that this
wake-up is the only way.
-/

namespace Raspberries.IrAlarm

open Transition

def runPins : List AlarmInstr → (AlarmPin → Nat) → AlarmPin → Nat
  | [], pins => pins
  | .digitalWrite pin value :: rest, pins => runPins rest (Function.update pins pin value)
  | .usleep _ :: rest, pins => runPins rest pins
  | .suspend :: rest, pins => runPins rest pins

def Off (pins : AlarmPin → Nat) : Prop := ∀ pin, pins pin = 0

theorem off_alarmThread_none (sSpeaker : Nat) (pins : AlarmPin → Nat) :
    Off (runPins (alarmThread sSpeaker .none) pins) := by
  intro pin
  cases pin <;> rfl

/-- No callback leaves SPEKR on. -/
theorem runPins_spekr (sSpeaker : Nat) (data : AlrmState) {pins : AlarmPin → Nat}
    (h : pins .spekr = 0) : runPins (alarmThread sSpeaker data) pins .spekr = 0 := by
  cases data with
  | none => rfl
  | preactive => exact h
  | active =>
    rw [alarmThread]
    by_cases hs : sSpeaker > 0
    · rw [if_pos hs]
      rfl
    · rw [if_neg hs]
      rfl

theorem eq_none_of_suspend_mem {sSpeaker : Nat} {data : AlrmState}
    (h : .suspend ∈ alarmThread sSpeaker data) : data = .none := by
  cases data with
  | none => rfl
  | preactive => simp [alarmThread] at h
  | active => by_cases hs : sSpeaker > 0 <;> simp [alarmThread, hs] at h

/-- The data with which a callback is about to start. -/
def WorkerPc.starts {α : Type*} : WorkerPc α → Option α
  | .unlock data | .actvTest2 data | .callback data none => some data
  | _ => none

/-- In the loop of the worker, and neither on the way to the wait nor to a callback. -/
def WorkerPc.rests {α : Type*} : WorkerPc α → Bool
  | .actvTest | .testcancel | .disable | .lock | .suspTest | .enable | .exited => true
  | _ => false

def Event.threadAct : Event → Option (ThreadSys.Act AlrmState)
  | .setdata .alarm data => some (.setdata 0 data)
  | .resume .alarm => some (.resume 0)
  | .setdata .status _ | .resume .status | .doAlarmAction _ | .undoAlarmAction _ => none

/-- The main thread is caller `0` of the alarm worker's thread.  `code` is the rest of
`alarm_thread`, `none` before it has read `s_speaker`. -/
structure SirenSys where
  daemon : Daemon
  settings : Settings
  main : MainPc
  thread : ThreadSys AlrmState
  code : Option (List AlarmInstr)
  pins : AlarmPin → Nat

namespace SirenSys

open ThreadSys

def initial (c : Settings) : SirenSys where
  daemon := .initial
  settings := c
  main := .start
  thread := .initial .none
  code := none
  pins := fun _ => 0

def enterThread (s : SirenSys) (a : ThreadSys.Act AlrmState) (m : MainPc) : Option SirenSys :=
  (s.thread.step a).map fun u => { s with thread := u, main := m }

def mainStep (s : SirenSys) : Option SirenSys :=
  match s.thread.calls 0 with
  | .idle =>
    match s.main with
    | .start => s.enterThread (.suspend 0) (.calls [])
    | .sleep => none
    | .calls [] => some { s with main := .sleep }
    | .calls (e :: es) =>
      match e.threadAct with
      | some a => s.enterThread a (.calls es)
      | none => some { s with main := .calls es }
  | _ => s.enterThread (.call 0) s.main

def workerStep (s : SirenSys) : Option SirenSys :=
  match s.thread.worker with
  | .callback data none =>
    match s.code with
    | none => some { s with code := some (alarmThread s.settings.sSpeaker data) }
    | some [] => (s.thread.step .callbackReturn).map fun u => { s with thread := u, code := none }
    | some (.digitalWrite pin value :: rest) =>
      some { s with pins := Function.update s.pins pin value, code := some rest }
    | some (.usleep _ :: rest) => some { s with code := some rest }
    | some (.suspend :: rest) =>
      (s.thread.step .callbackSuspend).map fun u => { s with thread := u, code := some rest }
  | _ => (s.thread.step .worker).map fun u => { s with thread := u }

/-- The steps.  `cycle` ends the sleep of the main loop and `sighup` interrupts it. -/
inductive Act
  | main
  | cycle (t : Tick)
  | sighup (c : Settings)
  | worker
  deriving DecidableEq, Repr

/-- The system with counters modulo `M`. -/
def step (M : Nat) (s : SirenSys) : Act → Option SirenSys
  | .main => mainStep s
  | .cycle t =>
    match s.main with
    | .sleep =>
      let (d, es) := IrAlarm.cycle M s.settings s.daemon t
      some { s with daemon := d, main := .calls es }
    | _ => none
  | .sighup c =>
    match s.main with
    | .sleep => some { s with settings := c }
    | _ => none
  | .worker => workerStep s

def InCallback (s : SirenSys) : Prop := ∃ data self, s.thread.worker = .callback data self

/-- Both pins are off while the worker is parked, and SPEKR between two callbacks. -/
structure Quiet (s : SirenSys) : Prop where
  parked : s.thread.worker = .waiting → Off s.pins
  between : ¬ s.InCallback → s.pins .spekr = 0

/-- The signal of `irthread_resume` does not wake the worker while `susp = 1`. -/
def WakesResumed (s : SirenSys) : Act → Prop
  | .main => s.thread.calls 0 = .resume .signal → s.thread.worker = .waiting →
      s.thread.it.susp = false
  | _ => True

/-! ### The invariant -/

def after (s : SirenSys) : AlarmPin → Nat := runPins (s.code.getD []) s.pins

/-- What holds while `susp = 1`: the pins will be off behind this callback, another one
can only be for `ALRM_NONE`, and the worker is not woken. -/
structure Calm (s : SirenSys) : Prop where
  off : Off s.after
  starts : s.code = none → ∀ data, s.thread.worker.starts = some data → data = .none
  woken : s.thread.worker.woken = false

/-- The main thread has not suspended the worker yet. -/
def Starting (s : SirenSys) : Prop := s.main = .start ∨ ∃ p, s.thread.calls 0 = .suspend p

/-- What holds as long as that: there is no alarm yet. -/
structure Startup (s : SirenSys) : Prop where
  off : Off s.after
  starts : s.code = none → ∀ data, s.thread.worker.starts = some data → data = .none
  data : s.thread.it.data = .none
  wakeup : s.thread.worker ≠ .wakeup

structure Silent (s : SirenSys) : Prop where
  owner : s.thread.Owner
  noStop : ∀ p, s.thread.calls 0 ≠ .stop p
  idle : s.main = .start → s.thread.calls 0 = .idle
  inCallback : s.code ≠ none → s.InCallback
  self : ∀ data p, s.thread.worker = .callback data (some p) → s.code ≠ none ∧ Off s.after
  suspend : .suspend ∈ s.code.getD [] → Off s.after
  spekr : s.after .spekr = 0
  waits : s.thread.Waits → Off s.pins
  susp : s.thread.it.susp = true → s.Calm
  starting : s.Starting → s.Startup

theorem code_of_out {s : SirenSys} (hs : s.Silent) (hout : ¬ s.InCallback) : s.code = none := by
  by_contra hcode
  exact hout (hs.inCallback hcode)

theorem quiet_of_silent {s : SirenSys} (hs : s.Silent) : s.Quiet := by
  refine ⟨fun hw => hs.waits (Or.inr hw), ?_⟩
  intro hout
  have hspekr := hs.spekr
  rw [after, code_of_out hs hout] at hspekr
  exact hspekr

section Step

variable {s : SirenSys}

theorem after_of_none (hcode : s.code = none) : s.after = s.pins := by
  rw [after, hcode]
  rfl

theorem silent_loop {u : ThreadSys AlrmState} (hs : s.Silent) (hcode : s.code = none)
    (howner : u.Owner) (hcalls : u.calls = s.thread.calls) (hit : u.it = s.thread.it)
    (hself : ∀ data p, u.worker ≠ .callback data (some p)) (hwaits : u.Waits → Off s.pins)
    (hwoken : u.it.susp = true → u.worker.woken = false) (hwakeup : u.worker ≠ .wakeup)
    (hstarts : ∀ data, u.worker.starts = some data → s.thread.worker.starts = some data ∨
      s.thread.it.susp = false ∧ data = s.thread.it.data) :
    Silent { s with thread := u } where
  owner := howner
  noStop := by
    show ∀ p, u.calls 0 ≠ .stop p
    rw [hcalls]
    exact hs.noStop
  idle := by
    show s.main = .start → u.calls 0 = .idle
    rw [hcalls]
    exact hs.idle
  inCallback h := absurd hcode h
  self data p h := absurd h (hself data p)
  suspend := hs.suspend
  spekr := hs.spekr
  waits := hwaits
  susp := by
    intro hsusp
    have hsusp' : s.thread.it.susp = true := hit ▸ hsusp
    have hcalm := hs.susp hsusp'
    refine ⟨hcalm.off, ?_, hwoken hsusp⟩
    intro _ data hdata
    rcases hstarts data hdata with hold | ⟨hnot, -⟩
    · exact hcalm.starts hcode data hold
    · rw [hsusp'] at hnot
      cases hnot
  starting := by
    intro hstarting
    have hstarting' : s.Starting := by
      rcases hstarting with hm | ⟨p, hp⟩
      · exact Or.inl hm
      · exact Or.inr ⟨p, hcalls ▸ hp⟩
    have hup := hs.starting hstarting'
    refine ⟨hup.off, ?_, ?_, hwakeup⟩
    · intro _ data hdata
      rcases hstarts data hdata with hold | ⟨-, hdata⟩
      · exact hup.starts hcode data hold
      · rw [hdata, hup.data]
    · show u.it.data = .none
      rw [hit, hup.data]

theorem silent_noStart {u : ThreadSys AlrmState} (hs : s.Silent) (hcode : s.code = none)
    (howner : u.Owner) (hcalls : u.calls = s.thread.calls) (hit : u.it = s.thread.it)
    (hself : ∀ data p, u.worker ≠ .callback data (some p)) (hwaits : u.Waits → Off s.pins)
    (hwoken : u.it.susp = true → u.worker.woken = false) (hwakeup : u.worker ≠ .wakeup)
    (hnone : u.worker.starts = none) : Silent { s with thread := u } := by
  refine silent_loop hs hcode howner hcalls hit hself hwaits hwoken hwakeup ?_
  intro data hdata
  rw [hnone] at hdata
  cases hdata

theorem silent_rests {u : ThreadSys AlrmState} (hs : s.Silent) (hcode : s.code = none)
    (howner : u.Owner) (hcalls : u.calls = s.thread.calls) (hit : u.it = s.thread.it)
    (hrests : u.worker.rests = true) : Silent { s with thread := u } := by
  refine silent_loop hs hcode howner hcalls hit ?_ ?_ ?_ ?_ ?_
  · intro data p hw
    rw [hw] at hrests
    cases hrests
  · rintro (hw | hw) <;> rw [hw] at hrests <;> cases hrests
  · intro _
    cases hw : u.worker with
    | wakeup | sample =>
      rw [hw] at hrests
      cases hrests
    | _ => rfl
  · intro hw
    rw [hw] at hrests
    cases hrests
  · intro data hdata
    cases hw : u.worker with
    | unlock | actvTest2 | callback =>
      rw [hw] at hrests
      cases hrests
    | _ =>
      rw [hw] at hdata
      cases hdata

theorem silent_selfSuspend {data : AlrmState} {p : SuspendPc}
    {r : ThreadSys AlrmState × Option SuspendPc} (hs : s.Silent)
    (hw : s.thread.worker = .callback data (some p))
    (hr : suspendStep .worker p s.thread = some r)
    (howner : Owner { r.1 with worker := .callback data r.2 }) :
    Silent { s with thread := { r.1 with worker := .callback data r.2 } } := by
  obtain ⟨hcode, hoff⟩ := hs.self data p hw
  obtain ⟨b, m, hm, -⟩ := suspendStep_cases hr
  rw [hm] at howner ⊢
  refine ⟨howner, hs.noStop, hs.idle, fun _ => ⟨data, r.2, rfl⟩, fun _ _ _ => ⟨hcode, hoff⟩,
    hs.suspend, hs.spekr, ?_, ?_, ?_⟩
  · intro hwaits
    exact absurd hwaits (not_waits_of_callback rfl)
  · intro _
    exact ⟨hoff, fun hnone => absurd hnone hcode, rfl⟩
  · intro hstarting
    have hup := hs.starting hstarting
    exact ⟨hoff, fun hnone => absurd hnone hcode, hup.data, (by simp)⟩

theorem susp_of_woken (hs : s.Silent) (hwoken : s.thread.worker.woken = true) :
    s.thread.it.susp = false := by
  cases hsusp : s.thread.it.susp with
  | false => rfl
  | true =>
    have hcalm := (hs.susp hsusp).woken
    rw [hwoken] at hcalm
    cases hcalm

theorem silent_threadLoop {u : ThreadSys AlrmState} (hs : s.Silent) (hout : ¬ s.InCallback)
    (h : ThreadSys.workerStep s.thread = some u) : Silent { s with thread := u } := by
  have howner : u.Owner := owner_step (a := .worker) hs.owner h
  have hcode := code_of_out hs hout
  cases workerStepTo_of_step h with
  | actvTest | ends | testcancel | cancels | disable | lock | skips | enable =>
    exact silent_rests hs hcode howner rfl rfl rfl
  | suspended _ hsusp =>
    have hoff := (hs.susp hsusp).off
    rw [after_of_none hcode] at hoff
    exact silent_noStart hs hcode howner rfl rfl (by simp) (fun _ => hoff) (fun _ => rfl)
      (by simp) rfl
  | runs _ hsusp =>
    refine silent_noStart hs hcode howner rfl rfl (by simp) (by simp [Waits]) ?_ (by simp) rfl
    intro h
    cases hsusp.symm.trans h
  | condWait hw =>
    have hoff := hs.waits (Or.inl hw)
    exact silent_noStart hs hcode howner rfl rfl (by simp) (fun _ => hoff) (fun _ => rfl)
      (by simp) rfl
  | wakeup hw =>
    have hresumed := susp_of_woken hs (by rw [hw]; rfl)
    refine silent_noStart hs hcode howner rfl rfl (by simp) (by simp [Waits]) ?_ (by simp) rfl
    intro hsusp
    cases hresumed.symm.trans hsusp
  | sample hw =>
    have hresumed := susp_of_woken hs (by rw [hw]; rfl)
    refine silent_loop hs hcode howner rfl rfl (by simp) (by simp [Waits]) (fun _ => rfl)
      (by simp) ?_
    intro data hdata
    exact Or.inr ⟨hresumed, (Option.some.inj hdata).symm⟩
  | unlock data hw | calls data hw =>
    refine silent_loop hs hcode howner rfl rfl (by simp) (by simp [Waits]) (fun _ => rfl)
      (by simp) ?_
    intro data' hdata
    rw [hw]
    exact Or.inl hdata
  | suspend data p r hw => exact absurd ⟨_, _, hw⟩ hout

theorem silent_threadWorker {u : ThreadSys AlrmState} (hs : s.Silent)
    (h : ThreadSys.workerStep s.thread = some u) : Silent { s with thread := u } := by
  by_cases hin : s.InCallback
  · obtain ⟨data, self, hpc⟩ := hin
    have howner : u.Owner := owner_step (a := .worker) hs.owner h
    rw [ThreadSys.workerStep, hpc] at h
    cases self with
    | none => cases h
    | some p =>
      obtain ⟨r, hr, rfl⟩ := Option.map_eq_some_iff.mp h
      exact silent_selfSuspend hs hpc hr howner
  · exact silent_threadLoop hs hin h

theorem silent_code {rest : List AlarmInstr} {pins : AlarmPin → Nat} (hs : s.Silent)
    (hafter : runPins rest pins = s.after) (hin : s.InCallback)
    (hself : ∀ data p, s.thread.worker ≠ .callback data (some p))
    (hmem : .suspend ∈ rest → .suspend ∈ s.code.getD []) :
    Silent { s with pins := pins, code := some rest } := by
  have hwaits : ¬ s.thread.Waits := by
    obtain ⟨data, self, hw⟩ := hin
    exact not_waits_of_callback hw
  have hoff : Off s.after → Off (runPins rest pins) := by
    rw [hafter]
    exact id
  refine ⟨hs.owner, hs.noStop, hs.idle, fun _ => hin, fun data p h => absurd h (hself data p),
    fun h => hoff (hs.suspend (hmem h)), ?_, fun h => absurd h hwaits, ?_, ?_⟩
  · show runPins rest pins .spekr = 0
    rw [hafter]
    exact hs.spekr
  · intro hsusp
    have hcalm := hs.susp hsusp
    exact ⟨hoff hcalm.off, (by simp), hcalm.woken⟩
  · intro hstarting
    have hup := hs.starting hstarting
    exact ⟨hoff hup.off, (by simp), hup.data, hup.wakeup⟩

section Callback

variable {data : AlrmState}

theorem silent_enter (hs : s.Silent) (hw : s.thread.worker = .callback data none)
    (hcode : s.code = none) :
    Silent { s with code := some (alarmThread s.settings.sSpeaker data) } := by
  have hwaits : ¬ s.thread.Waits := not_waits_of_callback hw
  have hself : ∀ data' p, s.thread.worker ≠ .callback data' (some p) := by
    intro data' p hp
    cases hw.symm.trans hp
  have hstarts : s.thread.worker.starts = some data := by
    rw [hw]
    rfl
  have hoff : data = .none → Off (runPins (alarmThread s.settings.sSpeaker data) s.pins) := by
    rintro rfl
    exact off_alarmThread_none _ _
  refine ⟨hs.owner, hs.noStop, hs.idle, fun _ => ⟨data, none, hw⟩,
    fun _ _ h => absurd h (hself _ _),
    fun h => hoff (eq_none_of_suspend_mem h), ?_, fun h => absurd h hwaits, ?_, ?_⟩
  · have hspekr := hs.spekr
    rw [after_of_none hcode] at hspekr
    exact runPins_spekr _ _ hspekr
  · intro hsusp
    have hcalm := hs.susp hsusp
    exact ⟨hoff (hcalm.starts hcode data hstarts), (by simp), hcalm.woken⟩
  · intro hstarting
    have hup := hs.starting hstarting
    exact ⟨hoff (hup.starts hcode data hstarts), (by simp), hup.data, hup.wakeup⟩

theorem silent_return {u : ThreadSys AlrmState} (hs : s.Silent)
    (hw : s.thread.worker = .callback data none) (hcode : s.code = some [])
    (hu : s.thread.step .callbackReturn = some u) :
    Silent { s with thread := u, code := none } := by
  have howner := owner_step hs.owner hu
  have hafter : s.after = s.pins := by
    rw [after, hcode]
    rfl
  rw [ThreadSys.step, hw] at hu
  obtain rfl := Option.some.inj hu
  refine ⟨howner, hs.noStop, hs.idle, fun h => absurd rfl h, (by simp),
    (by simp), ?_, ?_, ?_, ?_⟩
  · show s.pins .spekr = 0
    rw [← hafter]
    exact hs.spekr
  · simp [Waits]
  · intro hsusp
    have hoff := (hs.susp hsusp).off
    rw [hafter] at hoff
    exact ⟨hoff, (by rintro _ _ ⟨⟩), rfl⟩
  · intro hstarting
    have hup := hs.starting hstarting
    have hoff := hup.off
    rw [hafter] at hoff
    exact ⟨hoff, (by rintro _ _ ⟨⟩), hup.data, (by rintro ⟨⟩)⟩

theorem silent_callSuspend {u : ThreadSys AlrmState} {rest : List AlarmInstr} (hs : s.Silent)
    (hw : s.thread.worker = .callback data none) (hcode : s.code = some (.suspend :: rest))
    (hu : s.thread.step .callbackSuspend = some u) :
    Silent { s with thread := u, code := some rest } := by
  have howner := owner_step hs.owner hu
  have hoff : Off (runPins rest s.pins) := by
    have hself := hs.suspend (by rw [hcode]; exact List.mem_cons_self)
    rw [after, hcode] at hself
    exact hself
  rw [ThreadSys.step, hw] at hu
  obtain rfl := Option.some.inj hu
  refine ⟨howner, hs.noStop, hs.idle, fun _ => ⟨data, _, rfl⟩,
    fun _ _ _ => ⟨(by simp), hoff⟩, fun _ => hoff, hoff .spekr, ?_, ?_, ?_⟩
  · intro hwaits
    exact absurd hwaits (not_waits_of_callback rfl)
  · intro _
    exact ⟨hoff, (by simp), rfl⟩
  · intro hstarting
    exact ⟨hoff, (by simp), (hs.starting hstarting).data, (by simp)⟩

end Callback

theorem silent_workerStep {t : SirenSys} (hs : s.Silent) (h : s.workerStep = some t) :
    t.Silent := by
  rw [workerStep] at h
  split at h
  next data hw =>
    have hself : ∀ data' p, s.thread.worker ≠ .callback data' (some p) := by
      intro data' p hp
      cases hw.symm.trans hp
    have hin : s.InCallback := ⟨data, none, hw⟩
    split at h
    next hcode =>
      obtain rfl := Option.some.inj h
      exact silent_enter hs hw hcode
    next hcode =>
      obtain ⟨u, hu, rfl⟩ := Option.map_eq_some_iff.mp h
      exact silent_return hs hw hcode hu
    next pin value rest hcode =>
      obtain rfl := Option.some.inj h
      refine silent_code hs ?_ hin hself ?_
      · rw [after, hcode]
        rfl
      · rw [hcode]
        exact List.mem_cons_of_mem _
    next us rest hcode =>
      obtain rfl := Option.some.inj h
      refine silent_code hs ?_ hin hself ?_
      · rw [after, hcode]
        rfl
      · rw [hcode]
        exact List.mem_cons_of_mem _
    next rest hcode =>
      obtain ⟨u, hu, rfl⟩ := Option.map_eq_some_iff.mp h
      exact silent_callSuspend hs hw hcode hu
  next =>
    obtain ⟨u, hu, rfl⟩ := Option.map_eq_some_iff.mp h
    exact silent_threadWorker hs hu

/-! ### The main thread -/

/-- A step of the main thread that leaves the worker alone; `Calm` is about the state before. -/
theorem silent_call {u : ThreadSys AlrmState} {c : Call AlrmState} {m : MainPc} (hs : s.Silent)
    (howner : (u.setCall 0 c).Owner) (hworker : u.worker = s.thread.worker)
    (hstop : ∀ p, c ≠ .stop p) (hmain : m ≠ .start) (hsusp : u.it.susp = true → s.Calm)
    (hstarting : ∀ p, c = .suspend p → s.Starting ∧ u.it.data = s.thread.it.data) :
    Silent { s with thread := u.setCall 0 c, main := m } := by
  refine ⟨howner, ?_, fun h => absurd h hmain, ?_, ?_, hs.suspend, hs.spekr, ?_, ?_, ?_⟩
  · intro p
    show (u.setCall 0 c).calls 0 ≠ .stop p
    rw [setCall_calls_self]
    exact hstop p
  · intro hcode
    obtain ⟨data, self, hw⟩ := hs.inCallback hcode
    exact ⟨data, self, hworker.trans hw⟩
  · intro data p hw
    exact hs.self data p (hworker.symm.trans hw)
  · intro hw
    apply hs.waits
    rw [Waits, ← hworker]
    exact hw
  · intro h
    obtain ⟨hoff, hstarts, hwoken⟩ := hsusp h
    rw [← hworker] at hstarts hwoken
    exact ⟨hoff, hstarts, hwoken⟩
  · intro h
    obtain ⟨p, hp⟩ := h.resolve_left hmain
    rw [setCall_calls_self] at hp
    obtain ⟨hstart, hdata⟩ := hstarting p hp
    obtain ⟨hoff, hstarts, hnone, hwakeup⟩ := hs.starting hstart
    rw [← hworker] at hstarts hwakeup
    exact ⟨hoff, hstarts, hdata.trans hnone, hwakeup⟩

/-- A step of the `irthread_suspend` before the main loop.  Its store holds the lock, so the
worker is not between its wait and its sample. -/
theorem silent_suspendStep {p : SuspendPc} {r : ThreadSys AlrmState × Option SuspendPc}
    {c : Call AlrmState} (hs : s.Silent) (hm : s.main ≠ .start)
    (hc : s.thread.calls 0 = .suspend p) (hr : suspendStep (.caller 0) p s.thread = some r)
    (howner : (r.1.setCall 0 c).Owner) (hstop : ∀ p, c ≠ .stop p) :
    Silent { s with thread := r.1.setCall 0 c, main := s.main } := by
  have hstart : s.Starting := Or.inr ⟨p, hc⟩
  obtain ⟨b, m, hu, hb⟩ := suspendStep_cases hr
  rw [hu] at howner ⊢
  refine silent_call hs howner rfl hstop hm ?_ fun _ _ => ⟨hstart, rfl⟩
  intro hsusp
  have hup := hs.starting hstart
  rcases hb with hsame | ⟨rfl, -⟩
  · exact hs.susp (hsame ▸ hsusp)
  · refine ⟨hup.off, hup.starts, ?_⟩
    have hmtx := (hs.owner (.caller 0)).mpr (by rw [holds, hc]; rfl)
    have hout : s.thread.worker ≠ .sample := by
      intro hw
      have hmtx' := (hs.owner .worker).mpr (by rw [holds, hw]; rfl)
      cases hmtx.symm.trans hmtx'
    have hwakeup := hup.wakeup
    cases hw : s.thread.worker with
    | wakeup => exact absurd hw hwakeup
    | sample => exact absurd hw hout
    | _ => rfl

/-- The signal of `irthread_resume` wakes a worker that has been resumed. -/
theorem silent_wakeup {c : Call AlrmState} (hs : s.Silent) (hm : s.main ≠ .start)
    (hw : s.thread.worker = .waiting) (hsusp : s.thread.it.susp = false)
    (howner : (s.thread.condSignal.setCall 0 c).Owner) (hstop : ∀ p, c ≠ .stop p)
    (hsuspend : ∀ p, c ≠ .suspend p) :
    Silent { s with thread := s.thread.condSignal.setCall 0 c, main := s.main } := by
  have hcode : s.code = none := by
    apply code_of_out hs
    intro hex
    obtain ⟨data, self, hw'⟩ := hex
    cases hw.symm.trans hw'
  have hu : s.thread.condSignal = { s.thread with worker := .wakeup } := by
    rw [condSignal, hw]
  rw [hu] at howner ⊢
  refine ⟨howner, ?_, fun h => absurd h hm, fun h => absurd hcode h, (by simp), hs.suspend,
    hs.spekr, ?_, ?_, ?_⟩
  · intro p
    rw [setCall_calls_self]
    exact hstop p
  · simp [Waits]
  · intro h
    cases hsusp.symm.trans h
  · intro hex
    obtain h | ⟨p, hp⟩ := hex
    · exact absurd h hm
    · rw [setCall_calls_self] at hp
      exact absurd hp (hsuspend p)

theorem silent_callStep {u : ThreadSys AlrmState} (hs : s.Silent) (hm : s.main ≠ .start)
    (hwakes : s.thread.calls 0 = .resume .signal → s.thread.worker = .waiting →
      s.thread.it.susp = false) (h : callStep s.thread 0 = some u) :
    Silent { s with thread := u, main := s.main } := by
  have howner : u.Owner := owner_step (a := .call 0) hs.owner h
  cases callStepTo_of_step h with
  | suspend p r hc hr =>
    refine silent_suspendStep hs hm hc hr howner ?_
    cases r.2 <;> rintro _ ⟨⟩
  | resumeStore =>
    exact silent_call hs howner rfl (by simp) hm (by simp) (by simp)
  | resumeSignal hc =>
    rcases condSignal_worker s.thread with ⟨hwake, hw⟩ | ⟨hsame, -⟩
    · exact silent_wakeup hs hm hw (hwakes hc hw) howner (by simp) (by simp)
    · exact silent_call hs howner hsame (by simp) hm
        (by rw [condSignal_it]; exact hs.susp) (by simp)
  | refused | resumeTest | setdataLock | setdataStore | setdataUnlock =>
    exact silent_call hs howner rfl (by simp) hm hs.susp (by simp)
  | stopSuspend _ _ hc => exact absurd hc (hs.noStop _)
  | stopUsed hc | stopActv hc | stopSignal hc | stopCancel hc | stopJoin hc =>
    exact absurd hc (hs.noStop _)

theorem silent_main {d : Daemon} {c : Settings} {m : MainPc} (hs : s.Silent) (hm : m ≠ .start) :
    Silent { s with daemon := d, settings := c, main := m } where
  owner := hs.owner
  noStop := hs.noStop
  idle h := absurd h hm
  inCallback := hs.inCallback
  self := hs.self
  suspend := hs.suspend
  spekr := hs.spekr
  waits := hs.waits
  susp hsusp := by
    obtain ⟨hoff, hstarts, hwoken⟩ := hs.susp hsusp
    exact ⟨hoff, hstarts, hwoken⟩
  starting h := by
    obtain ⟨hoff, hstarts, hdata, hwakeup⟩ := hs.starting (Or.inr (h.resolve_left hm))
    exact ⟨hoff, hstarts, hdata, hwakeup⟩

theorem silent_mainStep {t : SirenSys} (hs : s.Silent) (ha : s.WakesResumed .main)
    (h : s.mainStep = some t) : t.Silent := by
  rw [mainStep] at h
  split at h
  next hidle =>
    -- the thread is entered
    have henter : ∀ (a : ThreadSys.Act AlrmState) (c : Call AlrmState) (es : List Event),
        s.thread.step a = s.thread.enter 0 c → (∀ p, c ≠ .stop p) →
        (∀ p, c = .suspend p → s.Starting) → s.enterThread a (.calls es) = some t →
        t.Silent := by
      intro a c es hstep hstop hstart h
      obtain ⟨u, hu, rfl⟩ := Option.map_eq_some_iff.mp h
      have howner := owner_step hs.owner hu
      rw [hstep] at hu
      obtain ⟨-, rfl⟩ := enter_cases hu
      exact silent_call hs howner rfl hstop (by simp) hs.susp fun p hp => ⟨hstart p hp, rfl⟩
    split at h
    next hm =>
      exact henter (.suspend 0) (.suspend .test) [] rfl (by simp) (fun _ _ => Or.inl hm) h
    next => cases h
    next =>
      obtain rfl := Option.some.inj h
      exact silent_main hs (by simp)
    next e es hm =>
      cases e with
      | doAlarmAction r | undoAlarmAction r =>
        obtain rfl := Option.some.inj h
        exact silent_main hs (by simp)
      | setdata w data =>
        cases w with
        | alarm =>
          exact henter (.setdata 0 data) (.setdata data .lock) es rfl (by simp)
            (by simp) h
        | status =>
          obtain rfl := Option.some.inj h
          exact silent_main hs (by simp)
      | resume w =>
        cases w with
        | alarm =>
          exact henter (.resume 0) (.resume .test) es rfl (by simp) (by simp) h
        | status =>
          obtain rfl := Option.some.inj h
          exact silent_main hs (by simp)
  next hcall =>
    have hm : s.main ≠ .start := fun hm => hcall (hs.idle hm)
    obtain ⟨u, hu, rfl⟩ := Option.map_eq_some_iff.mp h
    exact silent_callStep hs hm ha hu

theorem silent_step {M : Nat} {t : SirenSys} {a : Act} (hs : s.Silent) (ha : s.WakesResumed a)
    (h : step M s a = some t) : t.Silent := by
  cases a with
  | main => exact silent_mainStep hs ha h
  | worker => exact silent_workerStep hs h
  | cycle tick =>
    rw [step] at h
    split at h
    next =>
      obtain rfl := Option.some.inj h
      exact silent_main hs (by simp)
    next => cases h
  | sighup c =>
    rw [step] at h
    split at h
    next hm =>
      obtain rfl := Option.some.inj h
      exact silent_main (m := s.main) hs (by rw [hm]; rintro ⟨⟩)
    next => cases h

end Step

/-! ### Runs -/

theorem silent_initial (c : Settings) : Silent (initial c) where
  owner p := by
    cases p <;> simp [initial, ThreadSys.initial, holds, WorkerPc.holds, Call.holds]
  noStop := by simp [initial, ThreadSys.initial]
  idle _ := rfl
  inCallback h := absurd rfl h
  self := by simp [initial, ThreadSys.initial]
  suspend := by simp [initial]
  spekr := rfl
  waits := by simp [initial, ThreadSys.initial, Waits]
  susp := by simp [initial, ThreadSys.initial, IrThread.started]
  starting _ := ⟨fun _ => rfl, (by rintro _ _ ⟨⟩), rfl, (by rintro ⟨⟩)⟩

/-- **No siren is left on** in a run in which the signal of `irthread_resume` never wakes
the worker while `susp = 1`. -/
theorem no_siren_left_on (M : Nat) (c : Settings) (s : SirenSys)
    (hs : Reach (step M) WakesResumed (· = initial c) s) : s.Quiet := by
  apply quiet_of_silent
  apply hs.invariant_from
  · exact silent_initial c
  · exact fun _ _ _ hs ha h => silent_step hs ha h

instance (s : SirenSys) (a : Act) : Decidable (WakesResumed s a) :=
  match a with
  | .main => inferInstanceAs (Decidable (s.thread.calls 0 = .resume .signal →
      s.thread.worker = .waiting → s.thread.it.susp = false))
  | .cycle _ | .sighup _ | .worker => inferInstanceAs (Decidable True)

def quickSettings : Settings := { Settings.initial true with irMinalarm := 0, irRstalarm := 0 }

def parkedAgain : SirenSys :=
  (exec (step (2 ^ 32)) WakesResumed (initial quickSettings)
    (List.flatten [List.replicate 6 .main, List.replicate 6 .worker, [.cycle ⟨0, 0⟩],
      List.replicate 11 .main, List.replicate 11 .worker, [.cycle ⟨8, 0⟩],
      List.replicate 7 .main, List.replicate 25 .worker])).get (by decide)

theorem no_siren_left_on_parked :
    parkedAgain.thread.worker = .waiting ∧ parkedAgain.daemon.irAlrmCycls = 0 ∧
    parkedAgain.Quiet := by
  refine ⟨by decide, by decide, no_siren_left_on (2 ^ 32) quickSettings parkedAgain ?_⟩
  exact reach_get (initial quickSettings) _ _

/-- The worker suspends itself and parks between the store and the signal of the first
resume, and runs again when the alarm has become active. -/
def parkedActive : SirenSys :=
  (exec (step (2 ^ 32)) anyStep (initial quickSettings)
    (List.flatten [List.replicate 12 .worker, List.replicate 6 .main, [.cycle ⟨0, 0⟩],
      List.replicate 9 .main, List.replicate 13 .worker, List.replicate 2 .main,
      [.cycle ⟨0, 11⟩], List.replicate 6 .main, List.replicate 18 .worker])).get (by decide)

/-- The worker is parked and ALARM is on. -/
theorem siren_left_on :
    ¬ ∀ (c : Settings) (s : SirenSys),
      Reach (step (2 ^ 32)) anyStep (· = initial c) s → s.Quiet := by
  intro h
  have hquiet := h quickSettings parkedActive (reach_get (initial quickSettings) _ _)
  exact absurd (hquiet.parked (by decide) .alarm) (by decide)

end SirenSys

end Raspberries.IrAlarm
