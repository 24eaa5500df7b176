import Raspberries.IrAlarm.ThreadLock

/-!
# A suspended worker that starts work

The worker tests `susp` once, with `if`, and samples its data when the wait is over
whatever `susp` is by then.  So a wait that returns without a signal lets a suspended
worker start its callback (`suspended_starts_work`), and so does an `irthread_suspend`
that comes after the signal of an `irthread_resume` and before the worker has run again.

`Controlled` is the thread with one controlling thread, and remembers whether an
`irthread_suspend` has returned since the last call of `irthread_resume`.
`suspended_starts_no_work` proves that the two are the only ways.
-/

namespace Raspberries.IrAlarm

open Transition

/-- Woken from the wait, with the sample still to come. -/
def WorkerPc.woken {α : Type*} : WorkerPc α → Bool
  | .wakeup | .sample => true
  | _ => false

namespace ThreadSys

variable {α : Type*}

def suspendReturns (s : ThreadSys α) : Act α → Bool
  | .call i =>
    match s.calls i with
    | .suspend .unlock => true
    | .suspend .test => s.it.susp
    | _ => false
  | _ => false

/-- The step is one of the worker or of the controlling thread, which calls
`irthread_suspend`, `irthread_resume` and `irthread_setdata`. -/
def ByController : Act α → Prop
  | .suspend i | .resume i | .setdata i _ | .call i => i = 0
  | .stop _ | .callbackSuspend => False
  | .worker | .callbackReturn | .spurious => True

instance (a : Act α) : Decidable (ByController a) :=
  match a with
  | .suspend i | .resume i | .setdata i _ | .call i => inferInstanceAs (Decidable (i = 0))
  | .stop _ | .callbackSuspend => isFalse id
  | .worker | .callbackReturn | .spurious => isTrue trivial

/-- A worker that finds `susp = 1` does not come to its sample by itself. -/
theorem woken_workerStep {s t : ThreadSys α} (h : workerStep s = some t)
    (hsusp : s.it.susp = true) (hs : s.worker.woken = false) : t.worker.woken = false := by
  cases workerStepTo_of_step h with
  | runs _ hfree => cases hsusp.symm.trans hfree
  -- the worker is not woken yet
  | wakeup hw =>
    rw [hw] at hs
    cases hs
  | _ => rfl

theorem suspendStep_unlock {s : ThreadSys α} {me : Party} {p : SuspendPc}
    {r : ThreadSys α × Option SuspendPc} (hr : suspendStep me p s = some r)
    (hq : r.2 = some .unlock) : r.1.it.susp = true := by
  cases p with
  | test =>
    obtain rfl := Option.some.inj hr
    cases hs : s.it.susp <;> simp [hs] at hq
  | lock =>
    obtain ⟨-, hr⟩ := Option.ite_none_right_eq_some.mp hr
    obtain rfl := Option.some.inj hr
    cases hq
  | store =>
    obtain rfl := Option.some.inj hr
    rfl
  | unlock =>
    obtain rfl := Option.some.inj hr
    cases hq

/-- A step of `irthread_suspend`, `irthread_resume` or `irthread_setdata` stays in that
function, and leaves `susp` set on the way out of `irthread_suspend`. -/
theorem callStep_stays {s t : ThreadSys α} {i : Nat} (h : callStep s i = some t)
    (hstop : ∀ p, s.calls i ≠ .stop p) :
    (∀ p, t.calls i ≠ .stop p) ∧ (t.calls i = .suspend .unlock → t.it.susp = true) ∧
    ∀ p, t.calls i = .resume p → ∃ q, s.calls i = .resume q := by
  cases callStepTo_of_step h with
  | suspend p r _ hr =>
    obtain ⟨u, q⟩ := r
    rw [setCall_calls_self]
    refine ⟨?_, ?_, ?_⟩
    · cases q <;> simp
    · intro hq
      cases q with
      | none => cases hq
      | some q => exact suspendStep_unlock hr (congrArg some (Call.suspend.inj hq))
    · cases q <;> simp
  | resumeTest hc | resumeStore hc =>
    rw [setCall_calls_self]
    exact ⟨(by simp), (by simp), fun p _ => ⟨_, hc⟩⟩
  | refused | resumeSignal | setdataLock | setdataStore | setdataUnlock =>
    rw [setCall_calls_self]
    exact ⟨(by simp), (by simp), by simp⟩
  | stopSuspend _ _ hc => exact absurd hc (hstop _)
  | stopUsed hc | stopActv hc | stopSignal hc | stopCancel hc | stopJoin hc =>
    exact absurd hc (hstop _)

end ThreadSys

/-- `suspended` says that an `irthread_suspend` has returned and no `irthread_resume` was
called since. -/
structure Controlled (α : Type*) where
  sys : ThreadSys α
  suspended : Bool

namespace Controlled

open ThreadSys

variable {α : Type*}

def initial (null : α) : Controlled α where
  sys := .initial null
  suspended := false

def step (s : Controlled α) (a : Act α) : Option (Controlled α) :=
  (s.sys.step a).map fun t =>
    { sys := t
      suspended := match a with
        | .resume _ => false
        | a => s.suspended || s.sys.suspendReturns a }

/-- A suspended worker is not about to sample. -/
def NoNewWork (s : Controlled α) : Prop := s.suspended = true → s.sys.worker ≠ .sample

/-- The steps of the controlling thread and of the worker. -/
def Controls (_ : Controlled α) (a : Act α) : Prop := ByController a

/-- The wait of a suspended worker does not return without a signal, and no
`irthread_suspend` returns while the worker is woken and has not sampled yet. -/
structure InTime (s : Controlled α) (a : Act α) : Prop where
  controls : s.Controls a
  spurious : a = .spurious → s.suspended = false
  returns : s.sys.suspendReturns a = true → s.sys.worker.woken = false

instance (s : Controlled α) (a : Act α) : Decidable (s.Controls a) :=
  inferInstanceAs (Decidable (ByController a))

instance [DecidableEq α] (s : Controlled α) (a : Act α) : Decidable (s.InTime a) :=
  decidable_of_iff (s.Controls a ∧ (a = .spurious → s.suspended = false) ∧
      (s.sys.suspendReturns a = true → s.sys.worker.woken = false))
    ⟨fun ⟨h1, h2, h3⟩ => ⟨h1, h2, h3⟩, fun h => ⟨h.controls, h.spurious, h.returns⟩⟩

/-! ### One step -/

/-- A suspended worker has `susp = 1`, no resume under way, and is not woken. -/
structure Asleep (s : Controlled α) : Prop where
  noStop : ∀ p, s.sys.calls 0 ≠ .stop p
  stored : s.sys.calls 0 = .suspend .unlock → s.sys.it.susp = true
  susp : s.suspended = true → s.sys.it.susp = true
  noResume : s.suspended = true → ∀ p, s.sys.calls 0 ≠ .resume p
  asleep : s.suspended = true → s.sys.worker.woken = false

theorem asleep_worker {s : Controlled α} {t : ThreadSys α} (hs : s.Asleep)
    (hcalls : t.calls = s.sys.calls) (hsusp : s.sys.it.susp = true → t.it.susp = true)
    (hworker : s.suspended = true → t.worker.woken = false) :
    Asleep { sys := t, suspended := s.suspended || false } := by
  have hbit : (s.suspended || false) = s.suspended := Bool.or_false _
  refine ⟨?_, ?_, ?_, ?_, ?_⟩
  · intro p
    rw [hcalls]
    exact hs.noStop p
  · intro hc
    rw [hcalls] at hc
    exact hsusp (hs.stored hc)
  · intro h
    exact hsusp (hs.susp (hbit ▸ h))
  · intro h p
    rw [hcalls]
    exact hs.noResume (hbit ▸ h) p
  · intro h
    exact hworker (hbit ▸ h)

theorem asleep_enter {s : Controlled α} {c : Call α} {b : Bool} (hs : s.Asleep)
    (hstop : ∀ p, c ≠ .stop p) (hunlock : c ≠ .suspend .unlock)
    (hresume : b = true → s.suspended = true ∧ ∀ p, c ≠ .resume p) :
    Asleep { sys := s.sys.setCall 0 c, suspended := b } := by
  refine ⟨?_, ?_, ?_, ?_, ?_⟩
  · intro p
    rw [setCall_calls_self]
    exact hstop p
  · intro hc
    rw [setCall_calls_self] at hc
    exact absurd hc hunlock
  · intro h
    exact hs.susp (hresume h).1
  · intro h p
    rw [setCall_calls_self]
    exact (hresume h).2 p
  · intro h
    exact hs.asleep (hresume h).1

/-- The functions other than `irthread_resume` and `irthread_stop` leave what was asked for. -/
theorem asleep_enter_keep {s : Controlled α} {c : Call α} (hs : s.Asleep)
    (hstop : ∀ p, c ≠ .stop p) (hunlock : c ≠ .suspend .unlock) (hresume : ∀ p, c ≠ .resume p) :
    Asleep { sys := s.sys.setCall 0 c, suspended := s.suspended || false } := by
  refine asleep_enter hs hstop hunlock ?_
  intro hb
  exact ⟨(Bool.or_false _).symm.trans hb, hresume⟩

theorem asleep_call {s : Controlled α} {t : ThreadSys α} (hs : s.Asleep)
    (hreturns : s.sys.suspendReturns (.call 0) = true → s.sys.worker.woken = false)
    (h : callStep s.sys 0 = some t) :
    Asleep { sys := t, suspended := s.suspended || s.sys.suspendReturns (.call 0) } := by
  obtain ⟨hstop, hstored, hback⟩ := callStep_stays h hs.noStop
  -- a suspended worker, and one whose suspend returns, has no resume under way
  have hquiet : (s.suspended || s.sys.suspendReturns (.call 0)) = true →
      s.sys.it.susp = true ∧ s.sys.worker.woken = false ∧ ∀ p, s.sys.calls 0 ≠ .resume p := by
    intro hor
    rcases Bool.or_eq_true_iff.mp hor with h | hret
    · exact ⟨hs.susp h, hs.asleep h, hs.noResume h⟩
    · have hwoken := hreturns hret
      rw [suspendReturns] at hret
      split at hret
      next hc => exact ⟨hs.stored hc, hwoken, by simp [hc]⟩
      next hc => exact ⟨hret, hwoken, by simp [hc]⟩
      next => cases hret
  obtain ⟨-, hworker, hsusp⟩ := callStep_cases h
  refine ⟨hstop, hstored, ?_, ?_, ?_⟩
  · intro hor
    obtain ⟨hset, -, hnot⟩ := hquiet hor
    rcases hsusp with hsame | ⟨htrue, -⟩ | ⟨-, hc, -⟩
    · exact hsame.trans hset
    · exact htrue
    · exact absurd hc (hnot _)
  · intro hor p hp
    obtain ⟨q, hq⟩ := hback p hp
    exact (hquiet hor).2.2 q hq
  · intro hor
    obtain ⟨-, hwoken, hnot⟩ := hquiet hor
    rcases hworker with hsame | ⟨-, hc | hc⟩
    · rw [hsame, hwoken]
    · exact absurd hc (hnot _)
    · exact absurd hc (hs.noStop _)

theorem asleep_step {s t : Controlled α} {a : Act α} (hs : s.Asleep) (ha : s.InTime a)
    (h : step s a = some t) : t.Asleep := by
  obtain ⟨u, hu, rfl⟩ := Option.map_eq_some_iff.mp h
  obtain ⟨hcontrols, hspurious, hreturns⟩ := ha
  cases a with
  | worker =>
    obtain ⟨hcalls, -, -, hsusp, -⟩ := workerStep_cases hu
    refine asleep_worker hs hcalls ?_ ?_
    · intro hset
      rcases hsusp with hsame | ⟨htrue, -⟩
      · rw [hsame, hset]
      · exact htrue
    · intro hsuspended
      exact woken_workerStep hu (hs.susp hsuspended) (hs.asleep hsuspended)
  | callbackReturn =>
    rw [ThreadSys.step] at hu
    split at hu
    · obtain rfl := Option.some.inj hu
      exact asleep_worker hs rfl id fun _ => rfl
    · cases hu
  | spurious =>
    rw [ThreadSys.step] at hu
    split at hu
    · obtain rfl := Option.some.inj hu
      refine asleep_worker hs rfl id fun hsuspended => ?_
      rw [hspurious rfl] at hsuspended
      cases hsuspended
    · cases hu
  | suspend i =>
    obtain rfl : i = 0 := hcontrols
    obtain ⟨-, rfl⟩ := enter_cases hu
    exact asleep_enter_keep hs (by simp) (by simp) (by simp)
  | setdata i data =>
    obtain rfl : i = 0 := hcontrols
    obtain ⟨-, rfl⟩ := enter_cases hu
    exact asleep_enter_keep hs (by simp) (by simp) (by simp)
  | resume i =>
    obtain rfl : i = 0 := hcontrols
    obtain ⟨-, rfl⟩ := enter_cases hu
    exact asleep_enter hs (by simp) (by simp) (by simp)
  | call i =>
    obtain rfl : i = 0 := hcontrols
    exact asleep_call hs hreturns hu
  | stop | callbackSuspend => exact absurd hcontrols id

/-! ### Runs -/

theorem asleep_initial (null : α) : (initial null).Asleep := by
  constructor <;> intro h <;> simp [initial, ThreadSys.initial] at h ⊢

theorem reach_sys {null : α} {ok : Controlled α → Act α → Prop} {s : Controlled α}
    (hs : Reach step ok (· = initial null) s) :
    Reach ThreadSys.step anyStep (· = .initial null) s.sys := by
  induction hs with
  | start hs =>
    rw [hs]
    exact .start rfl
  | next _ _ hst ih =>
    obtain ⟨u, hu, rfl⟩ := Option.map_eq_some_iff.mp hst
    exact .next ih trivial hu

/-- Only the controlling thread is in a function, and never in `irthread_stop`. -/
theorem others_idle {null : α} {s : Controlled α} (hs : Reach step Controls (· = initial null) s) :
    (∀ p, s.sys.calls 0 ≠ .stop p) ∧ ∀ j, j ≠ 0 → s.sys.calls j = .idle := by
  apply hs.invariant_from
  · exact ⟨(by rintro _ ⟨⟩), fun _ _ => rfl⟩
  · intro s a t hidle ha h
    obtain ⟨hstop, hother⟩ := hidle
    obtain ⟨u, hu, rfl⟩ := Option.map_eq_some_iff.mp h
    have henter : ∀ i c, i = 0 → (∀ p, c ≠ .stop p) → s.sys.enter i c = some u →
        (∀ p, u.calls 0 ≠ .stop p) ∧ ∀ j, j ≠ 0 → u.calls j = .idle := by
      intro i c hi hc he
      subst hi
      obtain ⟨-, rfl⟩ := enter_cases he
      refine ⟨fun p => ?_, fun j hj => ?_⟩
      · rw [setCall_calls_self]
        exact hc p
      · rw [setCall_calls_of_ne _ _ _ hj, hother j hj]
    cases a with
    | worker =>
      obtain ⟨hcalls, -⟩ := workerStep_cases hu
      show (∀ p, u.calls 0 ≠ .stop p) ∧ ∀ j, j ≠ 0 → u.calls j = .idle
      rw [hcalls]
      exact ⟨hstop, hother⟩
    | callbackReturn | spurious =>
      rw [ThreadSys.step] at hu
      split at hu
      · obtain rfl := Option.some.inj hu
        exact ⟨hstop, hother⟩
      · cases hu
    | suspend i => exact henter i (.suspend .test) ha (by simp) hu
    | resume i => exact henter i (.resume .test) ha (by simp) hu
    | setdata i data => exact henter i (.setdata data .lock) ha (by simp) hu
    | call i =>
      obtain rfl : i = 0 := ha
      obtain ⟨hkeep, -⟩ := callStep_cases hu
      obtain ⟨hstop', -⟩ := callStep_stays hu hstop
      exact ⟨hstop', fun j hj => (hkeep j hj).trans (hother j hj)⟩
    | stop | callbackSuspend => exact absurd ha id

/-- The worker can come to sample although it is suspended. -/
def CanStart (s : Controlled α) : Prop := ∃ t, Reach step Controls (· = s) t ∧ ¬ t.NoNewWork

theorem canStart_of_step {s t : Controlled α} {a : Act α} (h : step s a = some t)
    (ha : s.Controls a) (ht : t.CanStart) : s.CanStart := by
  obtain ⟨u, hu, hwork⟩ := ht
  have hst : Reach step Controls (· = s) t := .next (.start rfl) ha h
  exact ⟨u, hst.trans hu, hwork⟩

/-- A step that does not call `irthread_resume` leaves a suspended worker suspended. -/
theorem step_of_suspended {s : Controlled α} {t : ThreadSys α} {a : Act α}
    (hs : s.suspended = true) (ha : ∀ i, a ≠ .resume i) (h : s.sys.step a = some t) :
    step s a = some ⟨t, true⟩ := by
  rw [step.eq_def, h, Option.map_some]
  split
  next i => exact absurd rfl (ha i)
  next => rw [hs, Bool.true_or]

theorem reach_unlocked {s : Controlled α} (hs : s.suspended = true)
    (hstop : ∀ p, s.sys.calls 0 ≠ .stop p) (hholds : (s.sys.calls 0).holds = true) :
    ∃ t, Reach step Controls (· = s) t ∧ t.suspended = true ∧
      t.sys.worker = s.sys.worker ∧ t.sys.mtxBsy = none := by
  have unlock : ∀ u : Controlled α, u.suspended = true →
      (u.sys.calls 0 = .suspend .unlock ∨ ∃ data, u.sys.calls 0 = .setdata data .unlock) →
      ∃ t, Reach step Controls (· = u) t ∧ t.suspended = true ∧
        t.sys.worker = u.sys.worker ∧ t.sys.mtxBsy = none := by
    intro u hu hc
    have hcall : u.sys.step (.call 0) =
        some ({ u.sys with mtxBsy := none }.setCall 0 .idle) := by
      rcases hc with hc | ⟨data, hc⟩
      · rw [ThreadSys.step, callStep, hc]
        rfl
      · rw [ThreadSys.step, callStep, hc]
    have hstep := step_of_suspended (a := .call 0) hu (by simp) hcall
    exact ⟨_, .next (a := .call 0) (.start rfl) rfl hstep, rfl, rfl, rfl⟩
  have store : ∀ (u : Controlled α) (v : ThreadSys α) (c : Call α), u.suspended = true →
      u.sys.step (.call 0) = some (v.setCall 0 c) → v.worker = u.sys.worker →
      (c = .suspend .unlock ∨ ∃ data, c = .setdata data .unlock) →
      ∃ t, Reach step Controls (· = u) t ∧ t.suspended = true ∧
        t.sys.worker = u.sys.worker ∧ t.sys.mtxBsy = none := by
    intro u v c hu hcall hworker hc
    have hstep := step_of_suspended (a := .call 0) hu (by simp) hcall
    obtain ⟨t, ht, hsuspended, hw, hm⟩ := unlock ⟨v.setCall 0 c, true⟩ rfl (by
      rw [setCall_calls_self]
      exact hc)
    have hnext : Reach step Controls (· = u) ⟨v.setCall 0 c, true⟩ :=
      .next (a := .call 0) (.start rfl) rfl hstep
    exact ⟨t, hnext.trans ht, hsuspended, hw.trans hworker, hm⟩
  cases hc : s.sys.calls 0 with
  | idle | resume =>
    rw [hc] at hholds
    cases hholds
  | stop p => exact absurd hc (hstop p)
  | suspend p =>
    rw [hc] at hholds
    cases p with
    | test | lock => cases hholds
    | store =>
      refine store s { s.sys with it := { s.sys.it with susp := true } } _ hs ?_ rfl (Or.inl rfl)
      rw [ThreadSys.step, callStep, hc]
      rfl
    | unlock => exact unlock s hs (Or.inl hc)
  | setdata data p =>
    rw [hc] at hholds
    cases p with
    | lock => cases hholds
    | store =>
      refine store s { s.sys with it := { s.sys.it with data := data } } _ hs ?_ rfl
        (Or.inr ⟨data, rfl⟩)
      rw [ThreadSys.step, callStep, hc]
    | unlock => exact unlock s hs (Or.inr ⟨data, hc⟩)

/-- A suspended worker that is woken samples as soon as the lock is free. -/
theorem canStart_of_woken {null : α} {s : Controlled α}
    (hs : Reach step Controls (· = initial null) s) (hsuspended : s.suspended = true)
    (hwoken : s.sys.worker.woken = true) : s.CanStart := by
  have free : ∀ u : Controlled α, u.suspended = true → u.sys.worker = .wakeup →
      u.sys.mtxBsy = none → u.CanStart := by
    intro u hu hw hm
    have hworker : u.sys.step .worker =
        some { u.sys with mtxBsy := some .worker, worker := .sample } := by
      rw [ThreadSys.step, workerStep, hw]
      simp [hm]
    have hstep := step_of_suspended (a := .worker) hu (by simp) hworker
    refine canStart_of_step hstep trivial ?_
    exact ⟨_, .start rfl, fun hno => hno rfl rfl⟩
  cases hw : s.sys.worker with
  | sample => exact ⟨s, .start rfl, fun hno => hno hsuspended hw⟩
  | wakeup =>
    cases hm : s.sys.mtxBsy with
    | none => exact free s hsuspended hw hm
    | some p =>
      -- only the controlling thread can have the lock
      have hp := (mtxBsy_owner (reach_sys hs) p).mp hm
      obtain ⟨hstop, hother⟩ := others_idle hs
      cases p with
      | worker =>
        rw [holds, hw] at hp
        cases hp
      | caller j =>
        have hj : j = 0 := by
          by_contra hj
          rw [holds, hother j hj] at hp
          cases hp
        subst hj
        obtain ⟨t, ht, hsuspended', hworker, hfree⟩ := reach_unlocked hsuspended hstop hp
        obtain ⟨u, hu, hwork⟩ := free t hsuspended' (hworker.trans hw) hfree
        exact ⟨u, ht.trans hu, hwork⟩
  | _ =>
    rw [hw] at hwoken
    cases hwoken

theorem canStart_of_late {null : α} {s t : Controlled α} {a : Act α}
    (hs : Reach step Controls (· = initial null) s) (ha : s.Controls a) (hlate : ¬ s.InTime a)
    (h : step s a = some t) : t.CanStart := by
  have ht : Reach step Controls (· = initial null) t := .next hs ha h
  obtain ⟨u, hu, hut⟩ := Option.map_eq_some_iff.mp h
  by_cases hreturns : s.sys.suspendReturns a = true ∧ s.sys.worker.woken = true
  · obtain ⟨hret, hwoken⟩ := hreturns
    cases a with
    | call i =>
      obtain rfl : i = 0 := ha
      obtain ⟨-, hworker, -⟩ := callStep_cases hu
      have hsame : u.worker = s.sys.worker := by
        rcases hworker with hsame | ⟨-, hc | hc⟩
        · exact hsame
        · rw [suspendReturns, hc] at hret
          cases hret
        · rw [suspendReturns, hc] at hret
          cases hret
      rw [← hut] at ht ⊢
      refine canStart_of_woken ht ?_ ?_
      · show (s.suspended || s.sys.suspendReturns (.call 0)) = true
        rw [hret, Bool.or_true]
      · show u.worker.woken = true
        rw [hsame, hwoken]
    | _ => cases hret
  · -- so it is a return of the wait without a signal
    have hspurious : a = .spurious ∧ s.suspended = true := by
      by_contra hnot
      refine hlate ⟨ha, fun hsp => ?_, fun hret => ?_⟩
      · by_contra hsuspended
        exact hnot ⟨hsp, by simpa using hsuspended⟩
      · by_contra hwoken
        exact hreturns ⟨hret, by simpa using hwoken⟩
    obtain ⟨rfl, hsuspended⟩ := hspurious
    rw [ThreadSys.step] at hu
    split at hu
    next hw =>
      obtain rfl := Option.some.inj hu
      rw [← hut] at ht ⊢
      refine canStart_of_woken ht ?_ rfl
      show (s.suspended || false) = true
      rw [hsuspended]
      rfl
    next => cases hu

/-- **A suspended worker starts no work** as long as its wait does not return without a
signal and no suspend returns between its being woken and its sample; and from every
reachable state in which one of the two happens the suspended worker can sample. -/
theorem suspended_starts_no_work (null : α) :
    (∀ s, Reach step InTime (· = initial null) s → s.NoNewWork) ∧
    ∀ s a t, Reach step Controls (· = initial null) s → s.Controls a → ¬ s.InTime a →
      step s a = some t → ∃ u, Reach step Controls (· = t) u ∧ ¬ u.NoNewWork := by
  refine ⟨?_, ?_⟩
  · intro s hs hsuspended hw
    have hasleep : s.Asleep := by
      apply hs.invariant_from (asleep_initial null)
      exact fun _ _ _ => asleep_step
    have hwoken := hasleep.asleep hsuspended
    rw [hw] at hwoken
    cases hwoken
  · exact fun _ _ _ => canStart_of_late

def suspendedOnce : Controlled Unit :=
  (exec step InTime (initial ())
    (List.flatten [[.suspend 0], List.replicate 4 (.call 0), List.replicate 6 .worker])).get
    (by decide)

def wokenSpuriously : Controlled Unit :=
  (exec step Controls suspendedOnce [.spurious]).get (by decide)

theorem suspended_starts_no_work_once :
    suspendedOnce.NoNewWork ∧
    ∃ u, Reach step Controls (· = wokenSpuriously) u ∧ ¬ u.NoNewWork := by
  have hreach : Reach step InTime (· = initial ()) suspendedOnce := reach_get _ _ _
  have hcontrols : Reach step Controls (· = initial ()) suspendedOnce :=
    hreach.mono fun _ _ h => h.controls
  exact ⟨(suspended_starts_no_work ()).1 _ hreach,
    (suspended_starts_no_work ()).2 suspendedOnce .spurious wokenSpuriously hcontrols (by decide)
      (by decide) rfl⟩

def suspendedSampling : Controlled Unit :=
  (exec step Controls suspendedOnce [.spurious, .worker]).get (by decide)

/-- The worker is suspended and about to sample. -/
theorem suspended_starts_work :
    ¬ ∀ s, Reach step Controls (· = initial ()) s → s.NoNewWork := by
  intro h
  have hsuspended : Reach step Controls (· = initial ()) suspendedOnce := by
    have hreach : Reach step InTime (· = initial ()) suspendedOnce := reach_get _ _ _
    exact hreach.mono fun _ _ h => h.controls
  have hsampling : Reach step Controls (· = suspendedOnce) suspendedSampling := reach_get _ _ _
  exact h _ (hsuspended.trans hsampling) (by decide) (by decide)

end Controlled

end Raspberries.IrAlarm
