import Mathlib.Logic.Function.Basic
import Raspberries.Lib.Transition

/-!
# The worker threads of `irthread.c`

A `struct irthread` is shared between the worker that runs `__thread_mainloop`
and the threads that call `irthread_suspend`, `irthread_resume`,
`irthread_setdata` and `irthread_stop` on it.

The first part has the calls as functions on the record, for models in which a
call is one step.  The second part is `ThreadSys`, in which every access to the
record, every lock operation and every use of the condition variable is a step
of its own, for one worker and any number of calling threads.  Only
`irthread_suspend` and `irthread_setdata` take `mtx_bsy`; `irthread_resume` tests
`susp`, stores it and signals without the lock.

`suspend_atomic`, `resume_atomic` and `setdata_atomic` say that a call whose
steps are not interrupted does what the function on the record says.
-/

namespace Raspberries.IrAlarm

open Transition

variable {α : Type*}

/-- The fields of `struct irthread` that change while the thread lives. -/
structure IrThread (α : Type*) where
  actv : Bool
  used : Bool
  susp : Bool
  data : α
  deriving DecidableEq, Repr

/-- The record as `irthread_start` leaves it, `null` for the data. -/
def IrThread.started (null : α) : IrThread α where
  actv := true
  used := true
  susp := false
  data := null

def irthreadSuspend (it : IrThread α) : IrThread α :=
  if it.susp then it else { it with susp := true }

/-- The return value, the record, and whether the condition is signalled. -/
def irthreadResume (it : IrThread α) : Int × IrThread α × Bool :=
  if !it.susp then (-1, it, false) else (0, { it with susp := false }, true)

def irthreadSetdata (data : α) (it : IrThread α) : IrThread α := { it with data := data }

@[simp] theorem irthreadSuspend_susp (it : IrThread α) : (irthreadSuspend it).susp = true := by
  rw [irthreadSuspend]; split <;> simp_all

@[simp] theorem irthreadSuspend_data (it : IrThread α) : (irthreadSuspend it).data = it.data := by
  rw [irthreadSuspend]; split <;> rfl

@[simp] theorem irthreadResume_susp (it : IrThread α) : (irthreadResume it).2.1.susp = false := by
  rw [irthreadResume]; split <;> simp_all

@[simp] theorem irthreadResume_data (it : IrThread α) : (irthreadResume it).2.1.data = it.data := by
  rw [irthreadResume]; split <;> rfl

@[simp] theorem irthreadSetdata_susp (d : α) (it : IrThread α) :
    (irthreadSetdata d it).susp = it.susp := rfl

@[simp] theorem irthreadSetdata_data (d : α) (it : IrThread α) :
    (irthreadSetdata d it).data = d := rfl

/-! ### The steps of a call -/

inductive SuspendPc
  | test
  | lock
  | store
  | unlock
  deriving DecidableEq, Repr

inductive ResumePc
  | test
  | store
  | signal
  deriving DecidableEq, Repr

inductive SetdataPc
  | lock
  | store
  | unlock
  deriving DecidableEq, Repr

/-- Where a thread is in `irthread_stop`, behind the lock of the pool. -/
inductive StopPc
  | suspend (p : SuspendPc)
  | used
  | actv
  | signal
  | cancel
  | join
  deriving DecidableEq, Repr

/-- What a calling thread is executing. -/
inductive Call (α : Type*)
  | idle
  | suspend (p : SuspendPc)
  | resume (p : ResumePc)
  | setdata (data : α) (p : SetdataPc)
  | stop (p : StopPc)
  deriving DecidableEq, Repr

/-- Where the worker is in `__thread_mainloop`.  In the callback it may be inside
an `irthread_suspend` of itself. -/
inductive WorkerPc (α : Type*)
  | actvTest
  | testcancel
  | disable
  | lock
  | suspTest
  | condWait
  | waiting
  | wakeup
  | sample
  | unlock (data : α)
  | actvTest2 (data : α)
  | callback (data : α) (self : Option SuspendPc)
  | enable
  | exited
  deriving DecidableEq, Repr

/-- A holder of `mtx_bsy`. -/
inductive Party
  | worker
  | caller (i : Nat)
  deriving DecidableEq, Repr

/-- One worker and its callers.  `cancelled` is a pending cancellation request and
`tbusy` the lock of the pool. -/
structure ThreadSys (α : Type*) where
  it : IrThread α
  mtxBsy : Option Party
  tbusy : Bool
  worker : WorkerPc α
  cancelDisabled : Bool
  cancelled : Bool
  calls : Nat → Call α

namespace ThreadSys

def initial (null : α) : ThreadSys α where
  it := .started null
  mtxBsy := none
  tbusy := false
  worker := .actvTest
  cancelDisabled := false
  cancelled := false
  calls := fun _ => .idle

def setCall (s : ThreadSys α) (i : Nat) (c : Call α) : ThreadSys α :=
  { s with calls := Function.update s.calls i c }

/-- `pthread_cond_signal(&cnd_bsy)`: it wakes the worker if it is waiting. -/
def condSignal (s : ThreadSys α) : ThreadSys α :=
  match s.worker with
  | .waiting => { s with worker := .wakeup }
  | _ => s

/-- One step of `irthread_suspend`; `none` for the new place when it returns. -/
def suspendStep (me : Party) (p : SuspendPc) (s : ThreadSys α) :
    Option (ThreadSys α × Option SuspendPc) :=
  match p with
  | .test => some (s, if s.it.susp then none else some .lock)
  | .lock => if s.mtxBsy = none then some ({ s with mtxBsy := some me }, some .store) else none
  | .store => some ({ s with it := { s.it with susp := true } }, some .unlock)
  | .unlock => some ({ s with mtxBsy := none }, none)

/-- The next step of the worker; a callback ends or suspends itself by actions of
its own. -/
def workerStep (s : ThreadSys α) : Option (ThreadSys α) :=
  match s.worker with
  | .actvTest => some { s with worker := if s.it.actv then .testcancel else .exited }
  | .testcancel => some { s with worker := if s.cancelled then .exited else .disable }
  | .disable => some { s with cancelDisabled := true, worker := .lock }
  | .lock =>
    if s.mtxBsy = none then some { s with mtxBsy := some .worker, worker := .suspTest } else none
  | .suspTest => some { s with worker := if s.it.susp then .condWait else .sample }
  | .condWait => some { s with mtxBsy := none, worker := .waiting }
  | .waiting => none
  | .wakeup =>
    if s.mtxBsy = none then some { s with mtxBsy := some .worker, worker := .sample } else none
  | .sample => some { s with worker := .unlock s.it.data }
  | .unlock data => some { s with mtxBsy := none, worker := .actvTest2 data }
  | .actvTest2 data =>
    some { s with worker := if s.it.actv then .callback data none else .enable }
  | .callback _ none => none
  | .callback data (some p) =>
    (suspendStep .worker p s).map fun r => { r.1 with worker := .callback data r.2 }
  | .enable => some { s with cancelDisabled := false, worker := .actvTest }
  | .exited => none

def callStep (s : ThreadSys α) (i : Nat) : Option (ThreadSys α) :=
  match s.calls i with
  | .idle => none
  | .suspend p =>
    (suspendStep (.caller i) p s).map fun r => r.1.setCall i (r.2.elim .idle .suspend)
  | .resume .test =>
    if !s.it.susp then some (s.setCall i .idle) else some (s.setCall i (.resume .store))
  | .resume .store =>
    some ({ s with it := { s.it with susp := false } }.setCall i (.resume .signal))
  | .resume .signal => some (s.condSignal.setCall i .idle)
  | .setdata data .lock =>
    if s.mtxBsy = none then
      some ({ s with mtxBsy := some (.caller i) }.setCall i (.setdata data .store))
    else none
  | .setdata data .store =>
    some ({ s with it := { s.it with data := data } }.setCall i (.setdata data .unlock))
  | .setdata _ .unlock => some ({ s with mtxBsy := none }.setCall i .idle)
  | .stop (.suspend p) =>
    (suspendStep (.caller i) p s).map fun r =>
      r.1.setCall i (.stop (r.2.elim .used .suspend))
  | .stop .used => some ({ s with it := { s.it with used := false } }.setCall i (.stop .actv))
  | .stop .actv => some ({ s with it := { s.it with actv := false } }.setCall i (.stop .signal))
  | .stop .signal => some (s.condSignal.setCall i (.stop .cancel))
  | .stop .cancel => some ({ s with cancelled := true }.setCall i (.stop .join))
  | .stop .join =>
    match s.worker with
    | .exited => some ({ s with tbusy := false }.setCall i .idle)
    | _ => none

/-- The steps of the system.  `spurious` is a return of `pthread_cond_wait` without
a signal. -/
inductive Act (α : Type*)
  | worker
  | callbackReturn
  | callbackSuspend
  | spurious
  | suspend (i : Nat)
  | resume (i : Nat)
  | setdata (i : Nat) (data : α)
  | stop (i : Nat)
  | call (i : Nat)
  deriving DecidableEq, Repr

def enter (s : ThreadSys α) (i : Nat) (c : Call α) : Option (ThreadSys α) :=
  match s.calls i with
  | .idle => some (s.setCall i c)
  | _ => none

def step (s : ThreadSys α) : Act α → Option (ThreadSys α)
  | .worker => workerStep s
  | .callbackReturn =>
    match s.worker with
    | .callback _ none => some { s with worker := .enable }
    | _ => none
  | .callbackSuspend =>
    match s.worker with
    | .callback data none => some { s with worker := .callback data (some .test) }
    | _ => none
  | .spurious =>
    match s.worker with
    | .waiting => some { s with worker := .wakeup }
    | _ => none
  | .suspend i => s.enter i (.suspend .test)
  | .resume i => s.enter i (.resume .test)
  | .setdata i data => s.enter i (.setdata data .lock)
  | .stop i =>
    if s.it.used ∧ s.tbusy = false then { s with tbusy := true }.enter i (.stop (.suspend .test))
    else none
  | .call i => callStep s i

/-! ### What one step changes -/

section SetCall

variable (s : ThreadSys α) (i : Nat) (c : Call α)

@[simp] theorem setCall_it : (s.setCall i c).it = s.it := rfl
@[simp] theorem setCall_mtxBsy : (s.setCall i c).mtxBsy = s.mtxBsy := rfl
@[simp] theorem setCall_worker : (s.setCall i c).worker = s.worker := rfl
@[simp] theorem setCall_calls_self : (s.setCall i c).calls i = c := Function.update_self ..

theorem setCall_calls_of_ne {j : Nat} (h : j ≠ i) : (s.setCall i c).calls j = s.calls j :=
  Function.update_of_ne h ..

@[simp] theorem condSignal_it : s.condSignal.it = s.it := by
  rw [condSignal]; split <;> rfl

@[simp] theorem condSignal_calls : s.condSignal.calls = s.calls := by
  rw [condSignal]; split <;> rfl

@[simp] theorem condSignal_mtxBsy : s.condSignal.mtxBsy = s.mtxBsy := by
  rw [condSignal]; split <;> rfl

@[simp] theorem condSignal_cancelDisabled : s.condSignal.cancelDisabled = s.cancelDisabled := by
  rw [condSignal]; split <;> rfl

@[simp] theorem condSignal_cancelled : s.condSignal.cancelled = s.cancelled := by
  rw [condSignal]; split <;> rfl

theorem condSignal_worker : s.condSignal.worker = .wakeup ∧ s.worker = .waiting ∨
    s.condSignal.worker = s.worker ∧ s.worker ≠ .waiting := by
  rw [condSignal]
  split
  next h => exact Or.inl ⟨rfl, h⟩
  next h => exact Or.inr ⟨rfl, fun hw => h hw⟩

end SetCall

/-- What `irthread_suspend` can do in one step: it leaves everything but `susp` and
the lock alone, and `susp` can only be set. -/
theorem suspendStep_cases {me : Party} {p : SuspendPc} {s : ThreadSys α}
    {r : ThreadSys α × Option SuspendPc} (h : suspendStep me p s = some r) :
    ∃ b m, r.1 = { s with it := { s.it with susp := b }, mtxBsy := m } ∧
      (b = s.it.susp ∨ p = .store ∧ b = true) := by
  cases p with
  | test =>
    obtain rfl := Option.some.inj h
    exact ⟨_, _, rfl, Or.inl rfl⟩
  | lock =>
    rw [suspendStep] at h
    split at h
    · obtain rfl := Option.some.inj h
      exact ⟨_, _, rfl, Or.inl rfl⟩
    · cases h
  | store =>
    obtain rfl := Option.some.inj h
    exact ⟨_, _, rfl, Or.inr ⟨rfl, rfl⟩⟩
  | unlock =>
    obtain rfl := Option.some.inj h
    exact ⟨_, _, rfl, Or.inl rfl⟩

theorem enter_cases {s t : ThreadSys α} {i : Nat} {c : Call α} (h : s.enter i c = some t) :
    s.calls i = .idle ∧ t = s.setCall i c := by
  rw [enter] at h
  split at h
  next hidle => exact ⟨hidle, (Option.some.inj h).symm⟩
  next => cases h

def Enters (c : Call α) : Prop :=
  c = .suspend .test ∨ c = .resume .test ∨ (∃ data, c = .setdata data .lock) ∨
    c = .stop (.suspend .test)

/-- The moves of the worker that are not its own steps: the callback ends or suspends the
worker, and a wait ends without a signal. -/
def Leaves (w w' : WorkerPc α) : Prop :=
  (∃ data, w = .callback data none ∧ (w' = .enable ∨ w' = .callback data (some .test))) ∨
    w = .waiting ∧ w' = .wakeup

/-- What a step can do: move the worker, move a call, let a thread enter a function, or
end a callback or a wait. -/
theorem step_cases {s t : ThreadSys α} {a : Act α} (h : step s a = some t) :
    a = .worker ∧ workerStep s = some t ∨ (∃ i, a = .call i ∧ callStep s i = some t) ∨
    (∃ i c b, s.calls i = .idle ∧ Enters c ∧ t = { s with tbusy := b }.setCall i c) ∨
    ∃ w, Leaves s.worker w ∧ t = { s with worker := w } := by
  cases a with
  | worker => exact Or.inl ⟨rfl, h⟩
  | call i => exact Or.inr (Or.inl ⟨i, rfl, h⟩)
  | suspend i =>
    obtain ⟨hidle, rfl⟩ := enter_cases h
    exact Or.inr (Or.inr (Or.inl ⟨i, _, s.tbusy, hidle, Or.inl rfl, rfl⟩))
  | resume i =>
    obtain ⟨hidle, rfl⟩ := enter_cases h
    exact Or.inr (Or.inr (Or.inl ⟨i, _, s.tbusy, hidle, Or.inr (Or.inl rfl), rfl⟩))
  | setdata i data =>
    obtain ⟨hidle, rfl⟩ := enter_cases h
    have henters : Enters (.setdata data .lock) := Or.inr (Or.inr (Or.inl ⟨data, rfl⟩))
    exact Or.inr (Or.inr (Or.inl ⟨i, _, s.tbusy, hidle, henters, rfl⟩))
  | stop i =>
    rw [step] at h
    split at h
    · obtain ⟨hidle, rfl⟩ := enter_cases h
      have henters : Enters (.stop (.suspend .test) : Call α) := Or.inr (Or.inr (Or.inr rfl))
      exact Or.inr (Or.inr (Or.inl ⟨i, _, true, hidle, henters, rfl⟩))
    · cases h
  | callbackReturn =>
    rw [step] at h
    split at h
    next data hw =>
      obtain rfl := Option.some.inj h
      exact Or.inr (Or.inr (Or.inr ⟨_, Or.inl ⟨data, hw, Or.inl rfl⟩, rfl⟩))
    next => cases h
  | callbackSuspend =>
    rw [step] at h
    split at h
    next data hw =>
      obtain rfl := Option.some.inj h
      exact Or.inr (Or.inr (Or.inr ⟨_, Or.inl ⟨data, hw, Or.inr rfl⟩, rfl⟩))
    next => cases h
  | spurious =>
    rw [step] at h
    split at h
    next hw =>
      obtain rfl := Option.some.inj h
      exact Or.inr (Or.inr (Or.inr ⟨_, Or.inr ⟨hw, rfl⟩, rfl⟩))
    next => cases h

inductive WorkerStepTo (s : ThreadSys α) : ThreadSys α → Prop
  | actvTest (hw : s.worker = .actvTest) (ha : s.it.actv = true) :
      WorkerStepTo s { s with worker := .testcancel }
  | ends (hw : s.worker = .actvTest) (ha : s.it.actv = false) :
      WorkerStepTo s { s with worker := .exited }
  | testcancel (hw : s.worker = .testcancel) (hc : s.cancelled = false) :
      WorkerStepTo s { s with worker := .disable }
  | cancels (hw : s.worker = .testcancel) (hc : s.cancelled = true) :
      WorkerStepTo s { s with worker := .exited }
  | disable (hw : s.worker = .disable) :
      WorkerStepTo s { s with cancelDisabled := true, worker := .lock }
  | lock (hw : s.worker = .lock) (hfree : s.mtxBsy = none) :
      WorkerStepTo s { s with mtxBsy := some .worker, worker := .suspTest }
  | suspended (hw : s.worker = .suspTest) (hs : s.it.susp = true) :
      WorkerStepTo s { s with worker := .condWait }
  | runs (hw : s.worker = .suspTest) (hs : s.it.susp = false) :
      WorkerStepTo s { s with worker := .sample }
  | condWait (hw : s.worker = .condWait) :
      WorkerStepTo s { s with mtxBsy := none, worker := .waiting }
  | wakeup (hw : s.worker = .wakeup) (hfree : s.mtxBsy = none) :
      WorkerStepTo s { s with mtxBsy := some .worker, worker := .sample }
  | sample (hw : s.worker = .sample) : WorkerStepTo s { s with worker := .unlock s.it.data }
  | unlock (data) (hw : s.worker = .unlock data) :
      WorkerStepTo s { s with mtxBsy := none, worker := .actvTest2 data }
  | calls (data) (hw : s.worker = .actvTest2 data) (ha : s.it.actv = true) :
      WorkerStepTo s { s with worker := .callback data none }
  | skips (data) (hw : s.worker = .actvTest2 data) (ha : s.it.actv = false) :
      WorkerStepTo s { s with worker := .enable }
  | suspend (data p r) (hw : s.worker = .callback data (some p))
      (hr : suspendStep .worker p s = some r) :
      WorkerStepTo s { r.1 with worker := .callback data r.2 }
  | enable (hw : s.worker = .enable) :
      WorkerStepTo s { s with cancelDisabled := false, worker := .actvTest }

theorem workerStepTo_of_step {s t : ThreadSys α} (h : workerStep s = some t) :
    WorkerStepTo s t := by
  rw [workerStep] at h
  split at h
  next hw =>
    obtain rfl := Option.some.inj h
    cases ha : s.it.actv with
    | true => exact .actvTest hw ha
    | false => exact .ends hw ha
  next hw =>
    by_cases hc : s.cancelled = true
    · rw [if_pos hc] at h
      obtain rfl := Option.some.inj h
      exact .cancels hw hc
    · rw [if_neg hc] at h
      obtain rfl := Option.some.inj h
      exact .testcancel hw (Bool.eq_false_iff.mpr hc)
  next hw =>
    obtain rfl := Option.some.inj h
    exact .disable hw
  next hw =>
    obtain ⟨hfree, h⟩ := Option.ite_none_right_eq_some.mp h
    obtain rfl := Option.some.inj h
    exact .lock hw hfree
  next hw =>
    obtain rfl := Option.some.inj h
    cases hs : s.it.susp with
    | true => exact .suspended hw hs
    | false => exact .runs hw hs
  next hw =>
    obtain rfl := Option.some.inj h
    exact .condWait hw
  next => cases h
  next hw =>
    obtain ⟨hfree, h⟩ := Option.ite_none_right_eq_some.mp h
    obtain rfl := Option.some.inj h
    exact .wakeup hw hfree
  next hw =>
    obtain rfl := Option.some.inj h
    exact .sample hw
  next data hw =>
    obtain rfl := Option.some.inj h
    exact .unlock data hw
  next data hw =>
    obtain rfl := Option.some.inj h
    cases ha : s.it.actv with
    | true => exact .calls data hw ha
    | false => exact .skips data hw ha
  next => cases h
  next data p hw =>
    obtain ⟨r, hr, rfl⟩ := Option.map_eq_some_iff.mp h
    exact .suspend data p r hw hr
  next hw =>
    obtain rfl := Option.some.inj h
    exact .enable hw
  next => cases h

inductive CallStepTo (s : ThreadSys α) (i : Nat) : ThreadSys α → Prop
  | suspend (p r) (hc : s.calls i = .suspend p) (hr : suspendStep (.caller i) p s = some r) :
      CallStepTo s i (r.1.setCall i (r.2.elim .idle .suspend))
  | refused (hc : s.calls i = .resume .test) (hs : s.it.susp = false) :
      CallStepTo s i (s.setCall i .idle)
  | resumeTest (hc : s.calls i = .resume .test) (hs : s.it.susp = true) :
      CallStepTo s i (s.setCall i (.resume .store))
  | resumeStore (hc : s.calls i = .resume .store) :
      CallStepTo s i ({ s with it := { s.it with susp := false } }.setCall i (.resume .signal))
  | resumeSignal (hc : s.calls i = .resume .signal) :
      CallStepTo s i (s.condSignal.setCall i .idle)
  | setdataLock (data) (hc : s.calls i = .setdata data .lock) (hfree : s.mtxBsy = none) :
      CallStepTo s i ({ s with mtxBsy := some (.caller i) }.setCall i (.setdata data .store))
  | setdataStore (data) (hc : s.calls i = .setdata data .store) :
      CallStepTo s i
        ({ s with it := { s.it with data := data } }.setCall i (.setdata data .unlock))
  | setdataUnlock (data) (hc : s.calls i = .setdata data .unlock) :
      CallStepTo s i ({ s with mtxBsy := none }.setCall i .idle)
  | stopSuspend (p r) (hc : s.calls i = .stop (.suspend p))
      (hr : suspendStep (.caller i) p s = some r) :
      CallStepTo s i (r.1.setCall i (.stop (r.2.elim .used .suspend)))
  | stopUsed (hc : s.calls i = .stop .used) :
      CallStepTo s i ({ s with it := { s.it with used := false } }.setCall i (.stop .actv))
  | stopActv (hc : s.calls i = .stop .actv) :
      CallStepTo s i ({ s with it := { s.it with actv := false } }.setCall i (.stop .signal))
  | stopSignal (hc : s.calls i = .stop .signal) :
      CallStepTo s i (s.condSignal.setCall i (.stop .cancel))
  | stopCancel (hc : s.calls i = .stop .cancel) :
      CallStepTo s i ({ s with cancelled := true }.setCall i (.stop .join))
  | stopJoin (hc : s.calls i = .stop .join) (hw : s.worker = .exited) :
      CallStepTo s i ({ s with tbusy := false }.setCall i .idle)

theorem callStepTo_of_step {s t : ThreadSys α} {i : Nat} (h : callStep s i = some t) :
    CallStepTo s i t := by
  rw [callStep] at h
  split at h
  next => cases h
  next p hc =>
    obtain ⟨r, hr, rfl⟩ := Option.map_eq_some_iff.mp h
    exact .suspend p r hc hr
  next hc =>
    cases hs : s.it.susp with
    | true =>
      rw [hs] at h
      obtain rfl := Option.some.inj h
      exact .resumeTest hc hs
    | false =>
      rw [hs] at h
      obtain rfl := Option.some.inj h
      exact .refused hc hs
  next hc =>
    obtain rfl := Option.some.inj h
    exact .resumeStore hc
  next hc =>
    obtain rfl := Option.some.inj h
    exact .resumeSignal hc
  next data hc =>
    obtain ⟨hfree, h⟩ := Option.ite_none_right_eq_some.mp h
    obtain rfl := Option.some.inj h
    exact .setdataLock data hc hfree
  next data hc =>
    obtain rfl := Option.some.inj h
    exact .setdataStore data hc
  next data hc =>
    obtain rfl := Option.some.inj h
    exact .setdataUnlock data hc
  next p hc =>
    obtain ⟨r, hr, rfl⟩ := Option.map_eq_some_iff.mp h
    exact .stopSuspend p r hc hr
  next hc =>
    obtain rfl := Option.some.inj h
    exact .stopUsed hc
  next hc =>
    obtain rfl := Option.some.inj h
    exact .stopActv hc
  next hc =>
    obtain rfl := Option.some.inj h
    exact .stopSignal hc
  next hc =>
    obtain rfl := Option.some.inj h
    exact .stopCancel hc
  next hc =>
    split at h
    next hw =>
      obtain rfl := Option.some.inj h
      exact .stopJoin hc hw
    next => cases h

/-- What a step of a call can do: only the caller's own place moves, the worker
only moves by being signalled, `susp` only falls at the store of `irthread_resume`
and `actv` at the store of `irthread_stop`. -/
theorem callStep_cases {s t : ThreadSys α} {i : Nat} (h : callStep s i = some t) :
    (∀ j, j ≠ i → t.calls j = s.calls j) ∧
    (t.worker = s.worker ∨ t.worker = s.condSignal.worker ∧
      (s.calls i = .resume .signal ∨ s.calls i = .stop .signal)) ∧
    (t.it.susp = s.it.susp ∨
      t.it.susp = true ∧ (s.calls i = .suspend .store ∨ s.calls i = .stop (.suspend .store)) ∨
      t.it.susp = false ∧ s.calls i = .resume .store ∧ t.calls i = .resume .signal) := by
  have hne : ∀ (u : ThreadSys α) c, u.calls = s.calls →
      ∀ j, j ≠ i → (u.setCall i c).calls j = s.calls j := by
    intro u c hu j hj
    rw [setCall_calls_of_ne u i c hj, hu]
  cases callStepTo_of_step h with
  | suspend p r hc hr =>
    obtain ⟨b, m, hm, hs⟩ := suspendStep_cases hr
    rw [hm]
    refine ⟨hne _ _ rfl, Or.inl rfl, ?_⟩
    exact hs.imp_right fun ⟨hp, hs⟩ => Or.inl ⟨hs, Or.inl (hp ▸ hc)⟩
  | stopSuspend p r hc hr =>
    obtain ⟨b, m, hm, hs⟩ := suspendStep_cases hr
    rw [hm]
    refine ⟨hne _ _ rfl, Or.inl rfl, ?_⟩
    exact hs.imp_right fun ⟨hp, hs⟩ => Or.inl ⟨hs, Or.inr (hp ▸ hc)⟩
  | resumeStore hc =>
    exact ⟨hne _ _ rfl, Or.inl rfl, Or.inr (Or.inr ⟨rfl, hc, setCall_calls_self ..⟩)⟩
  | resumeSignal hc =>
    refine ⟨hne _ _ (condSignal_calls s), Or.inr ⟨rfl, Or.inl hc⟩, Or.inl ?_⟩
    rw [setCall_it, condSignal_it]
  | stopSignal hc =>
    refine ⟨hne _ _ (condSignal_calls s), Or.inr ⟨rfl, Or.inr hc⟩, Or.inl ?_⟩
    rw [setCall_it, condSignal_it]
  | refused | resumeTest | setdataLock | setdataStore | setdataUnlock | stopUsed | stopActv
  | stopCancel | stopJoin => exact ⟨hne _ _ rfl, Or.inl rfl, Or.inl rfl⟩

/-- About to wait, or waiting. -/
def Waits (s : ThreadSys α) : Prop := s.worker = .condWait ∨ s.worker = .waiting

theorem not_waits_of_callback {s : ThreadSys α} {data : α} {self : Option SuspendPc}
    (hw : s.worker = .callback data self) : ¬ s.Waits := by
  simp [Waits, hw]

/-- What a step of the worker leaves alone, and how it comes to the wait. -/
theorem workerStep_cases {s t : ThreadSys α} (h : workerStep s = some t) :
    t.calls = s.calls ∧ t.it.actv = s.it.actv ∧ t.cancelled = s.cancelled ∧
    (t.it.susp = s.it.susp ∨
      t.it.susp = true ∧ ∃ data, s.worker = .callback data (some .store)) ∧
    (t.worker = .condWait → s.it.susp = true) ∧
    (t.worker = .waiting → s.worker = .condWait) := by
  cases workerStepTo_of_step h with
  | suspended _ hs => exact ⟨rfl, rfl, rfl, Or.inl rfl, fun _ => hs, by simp⟩
  | condWait hw => exact ⟨rfl, rfl, rfl, Or.inl rfl, by simp, fun _ => hw⟩
  | suspend data p r hw hr =>
    obtain ⟨b, m, hm, hs⟩ := suspendStep_cases hr
    rw [hm]
    exact ⟨rfl, rfl, rfl, hs.imp_right fun ⟨hp, hs⟩ => ⟨hs, data, hp ▸ hw⟩, by simp,
      by simp⟩
  | _ => exact ⟨rfl, rfl, rfl, Or.inl rfl, by simp, by simp⟩

/-! ### A call that is not interrupted -/

section Atomic

variable {s : ThreadSys α} {i : Nat}

theorem update_idle {calls : Nat → Call α} (h : calls i = .idle) :
    Function.update calls i .idle = calls :=
  Function.update_eq_self_iff.mpr h.symm

theorem suspend_atomic (hidle : s.calls i = .idle) (hfree : s.mtxBsy = none) :
    ∃ n, exec step anyStep s (.suspend i :: List.replicate n (.call i)) =
      some { s with it := irthreadSuspend s.it } := by
  obtain ⟨⟨actv, used, susp, data⟩, mtxBsy, tbusy, worker, cd, cc, calls⟩ := s
  obtain rfl : mtxBsy = none := hfree
  replace hidle : calls i = .idle := hidle
  cases susp with
  | true =>
    refine ⟨1, ?_⟩
    simp [exec, anyStep, step, enter, callStep, suspendStep, setCall, irthreadSuspend,
      hidle, update_idle hidle]
  | false =>
    refine ⟨4, ?_⟩
    simp [exec, anyStep, step, enter, callStep, suspendStep, setCall, irthreadSuspend,
      hidle, update_idle hidle, List.replicate]

theorem resume_atomic (hidle : s.calls i = .idle) :
    ∃ n, exec step anyStep s (.resume i :: List.replicate n (.call i)) =
      some (if (irthreadResume s.it).2.2
        then { s with it := (irthreadResume s.it).2.1 }.condSignal else s) := by
  obtain ⟨⟨actv, used, susp, data⟩, mtxBsy, tbusy, worker, cd, cc, calls⟩ := s
  replace hidle : calls i = .idle := hidle
  cases susp with
  | true =>
    refine ⟨3, ?_⟩
    cases worker <;>
    simp [exec, anyStep, step, enter, callStep, condSignal, setCall, irthreadResume, hidle,
      update_idle hidle, List.replicate]
  | false =>
    refine ⟨1, ?_⟩
    simp [exec, anyStep, step, enter, callStep, setCall, irthreadResume, hidle,
      update_idle hidle]

theorem setdata_atomic (hidle : s.calls i = .idle) (hfree : s.mtxBsy = none) (d : α) :
    exec step anyStep s (.setdata i d :: List.replicate 3 (.call i)) =
      some { s with it := irthreadSetdata d s.it } := by
  obtain ⟨it, mtxBsy, tbusy, worker, cd, cc, calls⟩ := s
  obtain rfl : mtxBsy = none := hfree
  replace hidle : calls i = .idle := hidle
  simp [exec, anyStep, step, enter, callStep, setCall, irthreadSetdata, hidle,
    update_idle hidle, List.replicate]

end Atomic

end ThreadSys

end Raspberries.IrAlarm
