import Raspberries.IrAlarm.IrThread

/-!
# A resume that is lost

`irthread_resume` tests `susp`, stores `0` and signals, all without `mtx_bsy`.  The
worker tests `susp` and enters the wait with the lock held, but the lock does not
keep the signal out of the gap between the two: a signal that comes there finds
nobody waiting.  The worker then waits with `susp = 0`, and no later resume wakes
it, since `irthread_resume` refuses when `susp` is already `0` (`resume_lost`).

Nothing else goes wrong: `resume_not_lost` proves that in every run in which no
signal falls into the gap the worker is never left waiting with `susp = 0`.
-/

namespace Raspberries.IrAlarm

open Transition

namespace ThreadSys

variable {α : Type*}

/-- The worker waits, `susp` is `0` and no signal is on its way. -/
def Stuck (s : ThreadSys α) : Prop :=
  s.worker = .waiting ∧ s.it.susp = false ∧ ∀ i, s.calls i ≠ .resume .signal

/-- The other threads call `irthread_suspend`, `irthread_resume` and `irthread_setdata` only. -/
def NoStop (_ : ThreadSys α) : Act α → Prop
  | .stop _ => False
  | _ => True

/-- The worker has read `susp = 1` and is about to wait, while `susp` is `0` again. -/
def InGap (s : ThreadSys α) : Prop := s.worker = .condWait ∧ s.it.susp = false

/-- No `irthread_resume` signals while the worker is in the gap. -/
def SignalsOutsideGap (s : ThreadSys α) : Act α → Prop
  | .stop _ => False
  | .call i => s.calls i = .resume .signal → ¬ s.InGap
  | _ => True

/-- No `irthread_suspend` stores to `susp` in this step. -/
def KeepsRunning (s : ThreadSys α) (a : Act α) : Prop :=
  NoStop s a ∧ (∀ i, a = .call i → s.calls i ≠ .suspend .store ∧
      s.calls i ≠ .stop (.suspend .store)) ∧
    (a = .worker → ∀ data, s.worker ≠ .callback data (some .store))

instance (s : ThreadSys α) (a : Act α) : Decidable (NoStop s a) :=
  match a with
  | .stop _ => isFalse id
  | .worker | .callbackReturn | .callbackSuspend | .spurious | .suspend _ | .resume _
  | .setdata .. | .call _ => isTrue trivial

instance [DecidableEq α] (s : ThreadSys α) : Decidable s.InGap :=
  inferInstanceAs (Decidable (_ ∧ _))

instance [DecidableEq α] (s : ThreadSys α) (a : Act α) : Decidable (SignalsOutsideGap s a) :=
  match a with
  | .stop _ => isFalse id
  | .call i => inferInstanceAs (Decidable (s.calls i = .resume .signal → ¬ s.InGap))
  | .worker | .callbackReturn | .callbackSuspend | .spurious | .suspend _ | .resume _
  | .setdata .. => isTrue trivial

/-! ### What a step does to the wait, to `susp` and to the signals -/

theorem waits_of_step {s t : ThreadSys α} {a : Act α} (h : step s a = some t) (hw : t.Waits) :
    s.Waits ∨ s.it.susp = true ∧ t.it.susp = true := by
  rcases step_cases h with ⟨-, h⟩ | ⟨i, -, h⟩ | ⟨i, c, b, -, -, rfl⟩ | ⟨w, hleaves, rfl⟩
  · obtain ⟨-, -, -, hsusp, hcond, hwait⟩ := workerStep_cases h
    rcases hw with hw | hw
    · have hs := hcond hw
      refine Or.inr ⟨hs, ?_⟩
      rcases hsusp with hsusp | ⟨hsusp, -⟩
      · rw [hsusp, hs]
      · exact hsusp
    · exact Or.inl (Or.inl (hwait hw))
  · left
    obtain ⟨-, hworker, -⟩ := callStep_cases h
    rcases hworker with hworker | ⟨hworker, -⟩
    · rwa [Waits, ← hworker]
    · rcases condSignal_worker s with ⟨hwake, -⟩ | ⟨hsame, -⟩
      · rw [Waits, hworker, hwake] at hw
        simp at hw
      · rwa [Waits, ← hworker.trans hsame]
  · exact Or.inl hw
  · rcases hleaves with ⟨data, -, rfl | rfl⟩ | ⟨-, rfl⟩ <;> simp [Waits] at hw

/-- `susp` only becomes `0` in an `irthread_resume` that is then about to signal. -/
theorem signal_of_susp_cleared {s t : ThreadSys α} {a : Act α} (h : step s a = some t)
    (hs : s.it.susp = true) (ht : t.it.susp = false) : ∃ i, t.calls i = .resume .signal := by
  have hne : t.it.susp ≠ s.it.susp := by
    intro he
    rw [he, hs] at ht
    cases ht
  rcases step_cases h with ⟨-, h⟩ | ⟨i, -, h⟩ | ⟨i, c, b, -, -, rfl⟩ | ⟨w, -, rfl⟩
  · obtain ⟨-, -, -, hsusp, -⟩ := workerStep_cases h
    rcases hsusp with hsusp | ⟨hsusp, -⟩
    · exact absurd hsusp hne
    · exact absurd (hsusp.trans hs.symm) hne
  · obtain ⟨-, -, hsusp⟩ := callStep_cases h
    rcases hsusp with hsusp | ⟨hsusp, -⟩ | ⟨-, -, hsignal⟩
    · exact absurd hsusp hne
    · exact absurd (hsusp.trans hs.symm) hne
    · exact ⟨i, hsignal⟩
  · exact absurd rfl hne
  · exact absurd rfl hne

theorem signal_kept {s t : ThreadSys α} {a : Act α} {i : Nat} (h : step s a = some t)
    (hi : s.calls i = .resume .signal) (ha : a ≠ .call i) : t.calls i = .resume .signal := by
  rcases step_cases h with ⟨-, h⟩ | ⟨j, rfl, h⟩ | ⟨j, c, b, hidle, -, rfl⟩ | ⟨w, -, rfl⟩
  · obtain ⟨hcalls, -⟩ := workerStep_cases h
    rw [hcalls, hi]
  · obtain ⟨hcalls, -⟩ := callStep_cases h
    have hij : i ≠ j := fun hij => ha (hij ▸ rfl)
    rw [hcalls i hij, hi]
  · have hij : i ≠ j := by
      intro hij
      rw [← hij, hi] at hidle
      cases hidle
    rw [setCall_calls_of_ne _ _ _ hij, hi]
  · exact hi

theorem callStep_signal {s t : ThreadSys α} {i : Nat} (hi : s.calls i = .resume .signal)
    (h : step s (.call i) = some t) :
    t.it = s.it ∧ t.worker ≠ .waiting ∧ (t.worker = .condWait → s.worker = .condWait) := by
  rw [step, callStep, hi] at h
  obtain rfl := Option.some.inj h
  rw [setCall_it, condSignal_it, setCall_worker]
  rcases condSignal_worker s with ⟨hwake, -⟩ | ⟨hsame, hne⟩
  · rw [hwake]
    refine ⟨rfl, ?_, ?_⟩
    · intro hw
      cases hw
    · intro hw
      cases hw
  · rw [hsame]
    exact ⟨rfl, hne, id⟩

/-! ### Runs -/

/-- Whoever waits with `susp = 0` has a signal coming. -/
def SignalComes (s : ThreadSys α) : Prop :=
  s.Waits → s.it.susp = false → ∃ i, s.calls i = .resume .signal

theorem signalComes_step {s t : ThreadSys α} {a : Act α} (hs : s.SignalComes)
    (ha : SignalsOutsideGap s a) (h : step s a = some t) : t.SignalComes := by
  intro hw ht
  rcases waits_of_step h hw with hws | ⟨-, htrue⟩
  · cases hsusp : s.it.susp with
    | true => exact signal_of_susp_cleared h hsusp ht
    | false =>
      obtain ⟨i, hi⟩ := hs hws hsusp
      by_cases hai : a = .call i
      · -- the signal is given: outside the gap it finds the worker waiting
        subst hai
        obtain ⟨-, hnot, hcond⟩ := callStep_signal hi h
        have hgap := ha hi
        rcases hw with hw | hw
        · exact absurd ⟨hcond hw, hsusp⟩ hgap
        · exact absurd hw hnot
      · exact ⟨i, signal_kept h hi hai⟩
  · rw [ht] at htrue
    cases htrue

/-- Without a store to `susp` a worker that is not at the wait does not come to it. -/
theorem not_waits_step {s t : ThreadSys α} {a : Act α} (hs : ¬ s.Waits ∧ s.it.susp = false)
    (ha : KeepsRunning s a) (h : step s a = some t) : ¬ t.Waits ∧ t.it.susp = false := by
  constructor
  · intro hw
    rcases waits_of_step h hw with hws | ⟨hsusp, -⟩
    · exact hs.1 hws
    · rw [hs.2] at hsusp
      cases hsusp
  obtain ⟨-, hcall, hworker⟩ := ha
  rcases step_cases h with ⟨rfl, h⟩ | ⟨i, rfl, h⟩ | ⟨i, c, b, -, -, rfl⟩ | ⟨w, -, rfl⟩
  · obtain ⟨-, -, -, hsusp, -⟩ := workerStep_cases h
    rcases hsusp with hsusp | ⟨-, data, hd⟩
    · rw [hsusp, hs.2]
    · exact absurd hd (hworker rfl data)
  · obtain ⟨-, -, hsusp⟩ := callStep_cases h
    obtain ⟨hsuspend, hstop⟩ := hcall i rfl
    rcases hsusp with hsusp | ⟨-, hstore | hstore⟩ | ⟨hsusp, -⟩
    · rw [hsusp, hs.2]
    · exact absurd hstore hsuspend
    · exact absurd hstore hstop
    · exact hsusp
  · exact hs.2
  · exact hs.2

/-- **A resume is lost exactly in the gap.**  In every run in which no signal falls
into the gap the worker is never stuck; and after a signal with `susp = 0` the worker
stays out of the wait until the next suspend if and only if the signal was not given
in the gap. -/
theorem resume_not_lost (null : α) :
    (∀ s, Reach step SignalsOutsideGap (· = initial null) s → ¬ s.Stuck) ∧
    ∀ (s t : ThreadSys α) (i : Nat), s.calls i = .resume .signal → s.it.susp = false →
      step s (.call i) = some t →
      (¬ s.InGap ↔ ∀ u, Reach step KeepsRunning (· = t) u → u.worker ≠ .waiting) := by
  refine ⟨?_, ?_⟩
  · intro s hs hstuck
    have hcomes : s.SignalComes := by
      apply hs.invariant_from
      · intro hw
        simp [Waits, initial] at hw
      · exact fun _ _ _ => signalComes_step
    obtain ⟨hw, hsusp, hnone⟩ := hstuck
    obtain ⟨i, hi⟩ := hcomes (Or.inr hw) hsusp
    exact hnone i hi
  · intro s t i hi hsusp h
    obtain ⟨hit, hnot, hcond⟩ := callStep_signal hi h
    have htsusp : t.it.susp = false := by rw [hit, hsusp]
    refine ⟨?_, ?_⟩
    · intro hgap u hu
      have hout : ¬ t.Waits ∧ t.it.susp = false := by
        refine ⟨?_, htsusp⟩
        intro hex
        obtain hw | hw := hex
        · exact hgap ⟨hcond hw, hsusp⟩
        · exact hnot hw
      have hrun : ¬ u.Waits ∧ u.it.susp = false := by
        apply hu.invariant_from
        · exact hout
        · exact fun _ _ _ => not_waits_step
      exact fun hw => hrun.1 (Or.inr hw)
    · rintro hrun ⟨hgap, -⟩
      -- the signal found nobody, and the worker's next step is the wait
      have htw : t.worker = .condWait := by
        rw [step, callStep, hi] at h
        obtain rfl := Option.some.inj h
        rw [setCall_worker, condSignal, hgap, hgap]
      have hnext : step t .worker = some { t with mtxBsy := none, worker := .waiting } := by
        rw [step, workerStep, htw]
      have hkeeps : KeepsRunning t .worker := by
        refine ⟨trivial, ?_, ?_⟩
        · intro j hj
          cases hj
        · intro _ data hd
          rw [htw] at hd
          cases hd
      exact hrun _ (.next (.start rfl) hkeeps hnext) rfl

def resumedOnce : ThreadSys Unit :=
  (exec step SignalsOutsideGap (initial ())
    [.suspend 0, .call 0, .call 0, .call 0, .call 0, .worker, .worker, .worker, .worker,
      .worker, .worker, .resume 0, .call 0, .call 0, .call 0, .worker]).get (by decide)

def signalEarly : ThreadSys Unit :=
  { initial () with calls := Function.update (fun _ => .idle) 0 (.resume .signal) }

theorem resume_not_lost_once :
    ¬ resumedOnce.Stuck ∧
    (¬ signalEarly.InGap ↔
      ∀ u, Reach step KeepsRunning (· = signalEarly.setCall 0 .idle) u → u.worker ≠ .waiting) :=
  ⟨(resume_not_lost ()).1 _ (reach_get _ _ _),
    (resume_not_lost ()).2 _ _ 0 rfl rfl rfl⟩

/-- A resume whose signal falls between the worker's test and its wait. -/
def resumedInGap : ThreadSys Unit :=
  (exec step NoStop (initial ())
    [.suspend 0, .call 0, .call 0, .call 0, .call 0, .worker, .worker, .worker, .worker,
      .worker, .resume 0, .call 0, .call 0, .call 0, .worker]).get (by decide)

/-- The resume has returned, the worker waits, `susp` is `0` and nobody signals. -/
theorem resume_lost : ¬ ∀ s, Reach step NoStop (· = initial ()) s → ¬ s.Stuck := by
  intro h
  have hreach : Reach step NoStop (· = initial ()) resumedInGap := reach_get _ _ _
  refine h _ hreach ⟨by decide, by decide, fun i => ?_⟩
  cases i with
  | zero => decide
  | succ i =>
    change (Call.idle : Call Unit) ≠ _
    decide

end ThreadSys

end Raspberries.IrAlarm
