import Raspberries.IrAlarm.ThreadLock

/-!
# A stop that hangs

`irthread_stop` suspends the worker, clears `actv`, signals once, requests the
cancellation and joins.  A worker that has passed its `actv` test and its
`pthread_testcancel` does not see the request any more: it disables the cancellation,
finds `susp = 1`, which the stop itself has set, and waits for a signal that was given
already (`stop_hangs`).

`stop_not_hang` proves that this is the only way: as long as no stop requests the
cancellation of a worker that is on its way to the wait, no stop is left in its join.
-/

namespace Raspberries.IrAlarm

open Transition

/-- Past the cancellation point and not woken yet. -/
def WorkerPc.headsForWait {α : Type*} : WorkerPc α → Bool
  | .disable | .lock | .suspTest | .condWait | .waiting => true
  | _ => false

namespace ThreadSys

variable {α : Type*}

/-- A stop joins a worker that waits uncancellably and that nobody will signal. -/
def Hang (s : ThreadSys α) : Prop :=
  (∃ i, s.calls i = .stop .join) ∧ s.worker = .waiting ∧ s.cancelDisabled = true ∧
    ∀ i, s.calls i ≠ .resume .signal ∧ s.calls i ≠ .stop .signal

/-- No `pthread_cancel` comes while the worker heads for the wait. -/
def CancelsInTime (s : ThreadSys α) : Act α → Prop
  | .call i => s.calls i = .stop .cancel → s.worker.headsForWait = false
  | _ => True

instance [DecidableEq α] (s : ThreadSys α) (a : Act α) : Decidable (CancelsInTime s a) :=
  match a with
  | .call i => inferInstanceAs (Decidable (s.calls i = .stop .cancel → _ = false))
  | .worker | .callbackReturn | .callbackSuspend | .spurious | .suspend _ | .resume _
  | .setdata .. | .stop _ => isTrue trivial

def Cleared (c : Call α) : Prop := c = .stop .signal ∨ c = .stop .cancel ∨ c = .stop .join

/-! ### Invariants of all runs -/

/-- A caller behind the store has cleared `actv`, and one that joins has requested the
cancellation of a worker that then does not head for the wait. -/
structure Stopping (s : ThreadSys α) : Prop where
  actv : ∀ i, Cleared (s.calls i) → s.it.actv = false
  cancelled : ∀ i, s.calls i = .stop .join → s.cancelled = true
  leaves : ∀ i, s.calls i = .stop .join → s.worker.headsForWait = false

/-- A worker that finds `actv = 0` or the request does not come to the wait. -/
theorem leaves_workerStep {s t : ThreadSys α} (h : workerStep s = some t)
    (hactv : s.it.actv = false) (hcancelled : s.cancelled = true)
    (hs : s.worker.headsForWait = false) : t.worker.headsForWait = false := by
  cases workerStepTo_of_step h with
  | actvTest _ ha | calls _ _ ha => cases hactv.symm.trans ha
  | testcancel _ hc => cases hcancelled.symm.trans hc
  -- the worker does not head for the wait already
  | disable hw | lock hw | suspended hw | runs hw | condWait hw =>
    rw [hw] at hs
    cases hs
  | _ => rfl

/-- What a step of a call does to the fields that only `irthread_stop` writes. -/
theorem callStep_stop {s t : ThreadSys α} {i : Nat} (h : callStep s i = some t) :
    t.cancelDisabled = s.cancelDisabled ∧ (s.cancelled = true → t.cancelled = true) ∧
    (s.it.actv = false → t.it.actv = false) ∧
    (Cleared (t.calls i) → t.it.actv = false ∨ Cleared (s.calls i)) ∧
    (t.calls i = .stop .join → s.calls i = .stop .cancel ∧ t.cancelled = true) := by
  have hplain : ∀ (u : ThreadSys α) c, u.cancelDisabled = s.cancelDisabled →
      u.cancelled = s.cancelled → u.it.actv = s.it.actv → ¬ Cleared c →
      (u.setCall i c).cancelDisabled = s.cancelDisabled ∧
      (s.cancelled = true → (u.setCall i c).cancelled = true) ∧
      (s.it.actv = false → (u.setCall i c).it.actv = false) ∧
      (Cleared ((u.setCall i c).calls i) → (u.setCall i c).it.actv = false ∨ Cleared (s.calls i)) ∧
      ((u.setCall i c).calls i = .stop .join →
        s.calls i = .stop .cancel ∧ (u.setCall i c).cancelled = true) := by
    intro u c hd hcc ha hc
    rw [setCall_calls_self]
    refine ⟨hd, fun hx => ?_, fun hx => ?_, fun hx => absurd hx hc, fun hx => ?_⟩
    · exact hcc.trans hx
    · exact ha.trans hx
    · exact absurd (Or.inr (Or.inr hx)) hc
  cases callStepTo_of_step h with
  | suspend p r _ hr | stopSuspend p r _ hr =>
    obtain ⟨u, q⟩ := r
    obtain ⟨b, m, hu, -⟩ := suspendStep_cases hr
    apply hplain <;> try rw [hu]
    cases q <;> simp [Cleared]
  | resumeSignal =>
    exact hplain _ _ (condSignal_cancelDisabled s) (condSignal_cancelled s)
      (by rw [condSignal_it]) (by simp [Cleared])
  | stopActv =>
    refine ⟨rfl, id, fun _ => rfl, fun _ => Or.inl rfl, fun hx => ?_⟩
    simp at hx
  | stopSignal hc =>
    have hcleared : Cleared (s.calls i) := Or.inl hc
    refine ⟨condSignal_cancelDisabled s, fun hx => ?_, fun hx => ?_, fun _ => Or.inr hcleared,
      fun hx => ?_⟩
    · exact (condSignal_cancelled s).trans hx
    · rw [setCall_it, condSignal_it, hx]
    · simp at hx
  | stopCancel hc =>
    exact ⟨rfl, fun _ => rfl, id, fun _ => Or.inr (Or.inr (Or.inl hc)), fun _ => ⟨hc, rfl⟩⟩
  | refused | resumeTest | resumeStore | setdataLock | setdataStore | setdataUnlock | stopUsed
  | stopJoin => exact hplain _ _ rfl rfl rfl (by simp [Cleared])

theorem condSignal_leaves {s : ThreadSys α} (hs : s.worker.headsForWait = false) :
    s.condSignal.worker.headsForWait = false := by
  rcases condSignal_worker s with ⟨hwake, -⟩ | ⟨hsame, -⟩
  · rw [hwake]
    rfl
  · rw [hsame, hs]

theorem stopping_enter {s : ThreadSys α} {i : Nat} {c : Call α} {b : Bool} (hs : s.Stopping)
    (hc : ¬ Cleared c) : Stopping ({ s with tbusy := b }.setCall i c) := by
  have hback : ∀ j, Cleared (({ s with tbusy := b }.setCall i c).calls j) →
      ({ s with tbusy := b }.setCall i c).calls j = s.calls j := by
    intro j hj
    by_cases hji : j = i
    · subst hji
      rw [setCall_calls_self] at hj
      exact absurd hj hc
    · exact setCall_calls_of_ne _ _ _ hji
  have hjoin : ∀ j, ({ s with tbusy := b }.setCall i c).calls j = .stop .join →
      s.calls j = .stop .join :=
    fun j hj => (hback j (Or.inr (Or.inr hj))).symm.trans hj
  refine ⟨?_, ?_, ?_⟩
  · intro j hj
    exact hs.actv j (hback j hj ▸ hj)
  · intro j hj
    exact hs.cancelled j (hjoin j hj)
  · intro j hj
    exact hs.leaves j (hjoin j hj)

theorem stopping_step {s t : ThreadSys α} {a : Act α} (hs : s.Stopping)
    (ha : CancelsInTime s a) (h : step s a = some t) : t.Stopping := by
  rcases step_cases h with ⟨-, h⟩ | ⟨i, rfl, h⟩ | ⟨i, c, b, -, henters, rfl⟩ | ⟨w, hleaves, rfl⟩
  · obtain ⟨hcalls, hactv, hcc, -⟩ := workerStep_cases h
    refine ⟨?_, ?_, ?_⟩
    · intro i hi
      rw [hactv]
      exact hs.actv i (hcalls ▸ hi)
    · intro i hi
      rw [hcc]
      exact hs.cancelled i (hcalls ▸ hi)
    · intro i hi
      rw [hcalls] at hi
      have hcleared : Cleared (s.calls i) := Or.inr (Or.inr hi)
      exact leaves_workerStep h (hs.actv i hcleared) (hs.cancelled i hi) (hs.leaves i hi)
  · obtain ⟨hother, hworker, -⟩ := callStep_cases h
    obtain ⟨-, hcc, hactv, hcleared, hjoin⟩ := callStep_stop h
    have hleaves : s.worker.headsForWait = false → t.worker.headsForWait = false := by
      intro hl
      rcases hworker with hworker | ⟨hworker, -⟩
      · rw [hworker, hl]
      · rw [hworker, condSignal_leaves hl]
    refine ⟨?_, ?_, ?_⟩
    · intro j hj
      by_cases hji : j = i
      · subst hji
        rcases hcleared hj with hfalse | hc
        · exact hfalse
        · exact hactv (hs.actv j hc)
      · rw [hother j hji] at hj
        exact hactv (hs.actv j hj)
    · intro j hj
      by_cases hji : j = i
      · subst hji
        exact (hjoin hj).2
      · rw [hother j hji] at hj
        exact hcc (hs.cancelled j hj)
    · intro j hj
      by_cases hji : j = i
      · -- the request itself: here the guard is used
        subst hji
        exact hleaves (ha (hjoin hj).1)
      · rw [hother j hji] at hj
        exact hleaves (hs.leaves j hj)
  · apply stopping_enter hs
    rcases henters with rfl | rfl | ⟨data, rfl⟩ | rfl <;> simp [Cleared]
  · refine ⟨hs.actv, hs.cancelled, fun i _ => ?_⟩
    rcases hleaves with ⟨data, -, rfl | rfl⟩ | ⟨-, rfl⟩ <;> rfl

end ThreadSys

/-- Between the two `pthread_setcancelstate`. -/
def WorkerPc.shielded {α : Type*} : WorkerPc α → Bool
  | .actvTest | .testcancel | .disable | .exited => false
  | _ => true

namespace ThreadSys

variable {α : Type*}

/-- Between the two `pthread_setcancelstate` the cancellation is disabled. -/
def Shielded (s : ThreadSys α) : Prop := s.worker.shielded = true → s.cancelDisabled = true

theorem shielded_workerStep {s t : ThreadSys α} (hs : s.Shielded)
    (h : workerStep s = some t) : t.Shielded := by
  intro ht
  cases workerStepTo_of_step h with
  | actvTest | ends | testcancel | cancels | enable => cases ht
  | disable => rfl
  | lock hw | suspended hw | runs hw | condWait hw | wakeup hw | sample hw =>
    exact hs (by rw [hw]; rfl)
  | unlock data hw | calls data hw | skips data hw => exact hs (by rw [hw]; rfl)
  | suspend data p r hw hr =>
    obtain ⟨b, m, hm, -⟩ := suspendStep_cases hr
    rw [hm]
    exact hs (by rw [hw]; rfl)

theorem shielded_step {s t : ThreadSys α} {a : Act α} (hs : s.Shielded)
    (h : step s a = some t) : t.Shielded := by
  rcases step_cases h with ⟨-, h⟩ | ⟨i, -, h⟩ | ⟨i, c, b, -, -, rfl⟩ | ⟨w, hleaves, rfl⟩
  · exact shielded_workerStep hs h
  · obtain ⟨-, hworker, -⟩ := callStep_cases h
    obtain ⟨hd, -⟩ := callStep_stop h
    intro ht
    rw [hd]
    rcases hworker with hworker | ⟨hworker, -⟩
    · exact hs (hworker ▸ ht)
    · rcases condSignal_worker s with ⟨-, hw⟩ | ⟨hsame, -⟩
      · exact hs (by rw [hw]; rfl)
      · exact hs (hsame ▸ hworker ▸ ht)
  · exact hs
  · intro _
    apply hs
    rcases hleaves with ⟨data, hw, -⟩ | ⟨hw, -⟩ <;> rw [hw] <;> rfl

/-! ### Runs -/

theorem not_hang_of_cancelsInTime {null : α} {s : ThreadSys α}
    (hs : Reach step CancelsInTime (· = initial null) s) : ¬ s.Hang := by
  have hstopping : s.Stopping := by
    apply hs.invariant_from
    · constructor <;> intro i hi <;> simp [initial, Cleared] at hi
    · exact fun _ _ _ => stopping_step
  intro h
  obtain ⟨⟨i, hi⟩, hw, -⟩ := h
  have hleaves := hstopping.leaves i hi
  rw [hw] at hleaves
  cases hleaves

/-- The steps of the worker can end in the wait while nobody else takes one. -/
def RunsIntoWait (s : ThreadSys α) : Prop :=
  ∃ t, Reach step anyStep (· = s) t ∧ t.calls = s.calls ∧ t.cancelDisabled = true ∧
    t.worker = .waiting

theorem runsIntoWait_of_step {s t : ThreadSys α} (h : step s .worker = some t)
    (hcalls : t.calls = s.calls) (ht : t.RunsIntoWait) : s.RunsIntoWait := by
  obtain ⟨u, hu, hucalls, hd, hw⟩ := ht
  have hst : Reach step anyStep (· = s) t := .next (.start rfl) trivial h
  exact ⟨u, hst.trans hu, hucalls.trans hcalls, hd, hw⟩

/-- With `susp = 1` and the lock free for it the worker comes to the wait. -/
theorem runsIntoWait {s : ThreadSys α} (hshielded : s.Shielded) (hsusp : s.it.susp = true)
    (hfree : s.worker.holds = false → s.mtxBsy = none) (hw : s.worker.headsForWait = true) :
    s.RunsIntoWait := by
  have waiting : ∀ u : ThreadSys α, u.cancelDisabled = true → u.worker = .waiting →
      u.RunsIntoWait := fun u hd hw => ⟨u, .start rfl, rfl, hd, hw⟩
  have condWait : ∀ u : ThreadSys α, u.cancelDisabled = true → u.worker = .condWait →
      u.RunsIntoWait := by
    intro u hd hw
    have hstep : step u .worker = some { u with mtxBsy := none, worker := .waiting } := by
      rw [step, workerStep, hw]
    exact runsIntoWait_of_step hstep rfl (waiting _ hd rfl)
  have suspTest : ∀ u : ThreadSys α, u.cancelDisabled = true → u.it.susp = true →
      u.worker = .suspTest → u.RunsIntoWait := by
    intro u hd hsu hw
    have hstep : step u .worker = some { u with worker := .condWait } := by
      rw [step, workerStep, hw]
      simp [hsu]
    exact runsIntoWait_of_step hstep rfl (condWait _ hd rfl)
  have lock : ∀ u : ThreadSys α, u.cancelDisabled = true → u.it.susp = true →
      u.mtxBsy = none → u.worker = .lock → u.RunsIntoWait := by
    intro u hd hsu hm hw
    have hstep : step u .worker =
        some { u with mtxBsy := some .worker, worker := .suspTest } := by
      rw [step, workerStep, hw]
      simp [hm]
    exact runsIntoWait_of_step hstep rfl (suspTest _ hd hsu rfl)
  cases hpc : s.worker with
  | disable =>
    have hstep : step s .worker = some { s with cancelDisabled := true, worker := .lock } := by
      rw [step, workerStep, hpc]
    exact runsIntoWait_of_step hstep rfl (lock _ rfl hsusp (hfree (by rw [hpc]; rfl)) rfl)
  | lock => exact lock s (hshielded (by rw [hpc]; rfl)) hsusp (hfree (by rw [hpc]; rfl)) hpc
  | suspTest => exact suspTest s (hshielded (by rw [hpc]; rfl)) hsusp hpc
  | condWait => exact condWait s (hshielded (by rw [hpc]; rfl)) hpc
  | waiting => exact waiting s (hshielded (by rw [hpc]; rfl)) hpc
  | _ =>
    rw [hpc] at hw
    cases hw

theorem mtxBsy_free {null : α} {s : ThreadSys α} {i : Nat}
    (hs : Reach step anyStep (· = initial null) s) (hi : s.calls i = .stop .cancel)
    (hidle : ∀ j, j ≠ i → s.calls j = .idle) (hworker : s.worker.holds = false) :
    s.mtxBsy = none := by
  cases hm : s.mtxBsy with
  | none => rfl
  | some p =>
    have hp := (mtxBsy_owner hs p).mp hm
    cases p with
    | worker => rw [holds, hworker] at hp; cases hp
    | caller j =>
      by_cases hji : j = i
      · rw [holds, hji, hi] at hp; cases hp
      · rw [holds, hidle j hji] at hp; cases hp

/-- A cancellation that is requested too late lets the worker run into the wait. -/
theorem hang_of_late_cancel {null : α} {s : ThreadSys α} {i : Nat}
    (hs : Reach step anyStep (· = initial null) s) (hi : s.calls i = .stop .cancel)
    (hidle : ∀ j, j ≠ i → s.calls j = .idle) (hsusp : s.it.susp = true)
    (hw : s.worker.headsForWait = true) : ∃ t, Reach step anyStep (· = s) t ∧ t.Hang := by
  have hshielded : s.Shielded := by
    apply hs.invariant_from
    · intro ht
      cases ht
    · exact fun _ _ _ hsh _ h => shielded_step hsh h
  obtain ⟨u, hu, hcalls, hd, hwait⟩ :=
    runsIntoWait hshielded hsusp (mtxBsy_free hs hi hidle) hw
  have hcall : step u (.call i) = some ({ u with cancelled := true }.setCall i (.stop .join)) := by
    rw [step, callStep, hcalls, hi]
  refine ⟨_, .next hu trivial hcall, ⟨i, setCall_calls_self ..⟩, hwait, hd, ?_⟩
  intro j
  by_cases hji : j = i
  · rw [hji, setCall_calls_self]
    simp
  · rw [setCall_calls_of_ne _ _ _ hji, hcalls, hidle j hji]
    simp

/-- **A stop hangs exactly when its request comes too late.**  In every run in which no
`pthread_cancel` comes while the worker heads for the wait no stop hangs; and from every
reachable state with such a request, no other call under way and `susp` as the stop has
set it, the stop can hang. -/
theorem stop_not_hang (null : α) :
    (∀ s, Reach step CancelsInTime (· = initial null) s → ¬ s.Hang) ∧
    ∀ (s : ThreadSys α) (i : Nat), Reach step anyStep (· = initial null) s →
      s.calls i = .stop .cancel → (∀ j, j ≠ i → s.calls j = .idle) → s.it.susp = true →
      s.worker.headsForWait = true → ∃ t, Reach step anyStep (· = s) t ∧ t.Hang :=
  ⟨fun _ => not_hang_of_cancelsInTime, fun _ _ => hang_of_late_cancel⟩

def stoppedInTime : ThreadSys Unit :=
  (exec step CancelsInTime (initial ())
    (List.flatten [[.stop 0], List.replicate 8 (.call 0), [.worker]])).get (by decide)

def stoppedLate : ThreadSys Unit :=
  (exec step anyStep (initial ())
    (List.flatten [List.replicate 3 .worker, [.stop 0], List.replicate 7 (.call 0)])).get
    (by decide)

theorem stop_not_hang_once :
    ¬ stoppedInTime.Hang ∧ ∃ t, Reach step anyStep (· = stoppedLate) t ∧ t.Hang := by
  refine ⟨(stop_not_hang ()).1 _ (reach_get _ _ _),
    (stop_not_hang ()).2 _ 0 (reach_get _ _ _) rfl (fun j hj => ?_) rfl rfl⟩
  cases j with
  | zero => exact absurd rfl hj
  | succ j => rfl

def stopHung : ThreadSys Unit :=
  (exec step anyStep (initial ())
    (List.flatten [List.replicate 3 .worker, [.stop 0], List.replicate 8 (.call 0),
      List.replicate 3 .worker])).get (by decide)

theorem stop_hangs : ¬ ∀ s, Reach step anyStep (· = initial ()) s → ¬ s.Hang := by
  intro h
  have hreach : Reach step anyStep (· = initial ()) stopHung := reach_get _ _ _
  refine h _ hreach ⟨⟨0, by decide⟩, by decide, by decide, fun i => ?_⟩
  cases i with
  | zero => decide
  | succ i =>
    change (Call.idle : Call Unit) ≠ _ ∧ Call.idle ≠ _
    decide

end ThreadSys

end Raspberries.IrAlarm
