import Raspberries.IrAlarm.IrThread

/-!
# Who holds `mtx_bsy`

`Owner` says that the lock is held exactly by the party whose place lies between a
`pthread_mutex_lock` and the matching `pthread_mutex_unlock`.  Every step is a move of
one party (`owner_of_move`), so `Owner` holds in every reachable state, and no two
parties are ever between the two.
-/

namespace Raspberries.IrAlarm

open Transition

/-- Between `pthread_mutex_lock` and `pthread_mutex_unlock`. -/
def SuspendPc.holds : SuspendPc → Bool
  | .store | .unlock => true
  | .test | .lock => false

def Call.holds {α : Type*} : Call α → Bool
  | .suspend p | .stop (.suspend p) => p.holds
  | .setdata _ .store | .setdata _ .unlock => true
  | _ => false

def WorkerPc.holds {α : Type*} : WorkerPc α → Bool
  | .suspTest | .condWait | .sample | .unlock _ => true
  | .callback _ (some p) => p.holds
  | _ => false

namespace ThreadSys

variable {α : Type*}

def holds (s : ThreadSys α) : Party → Bool
  | .worker => s.worker.holds
  | .caller i => (s.calls i).holds

/-- The lock is held by the parties that are between lock and unlock, so by one at most. -/
def Owner (s : ThreadSys α) : Prop := ∀ p, s.mtxBsy = some p ↔ s.holds p = true

/-- What a step may do to the lock on behalf of `p`: nothing, take it, give it back. -/
inductive LockMove (s t : ThreadSys α) (p : Party) : Prop
  | keep : t.mtxBsy = s.mtxBsy → t.holds p = s.holds p → LockMove s t p
  | lock : s.mtxBsy = none → t.mtxBsy = some p → t.holds p = true → LockMove s t p
  | unlock : s.holds p = true → t.mtxBsy = none → t.holds p = false → LockMove s t p

theorem owner_of_move {s t : ThreadSys α} {p : Party} (hs : s.Owner)
    (hother : ∀ q, q ≠ p → t.holds q = s.holds q) (hmove : LockMove s t p) : t.Owner := by
  intro q
  by_cases hq : q = p
  · subst hq
    cases hmove with
    | keep hm hh => rw [hm, hh]; exact hs q
    | lock _ hm hh => simp [hm, hh]
    | unlock _ hm hh => simp [hm, hh]
  · rw [hother q hq, ← hs q]
    cases hmove with
    | keep hm _ => rw [hm]
    | lock hfree hm _ => simp [hm, hfree, Ne.symm hq]
    | unlock hh hm _ => simp [hm, (hs p).mpr hh, Ne.symm hq]

theorem holds_setCall_of_ne {s u : ThreadSys α} {i : Nat} {c : Call α} {q : Party}
    (hcalls : u.calls = s.calls) (hworker : u.worker.holds = s.worker.holds)
    (hq : q ≠ .caller i) : (u.setCall i c).holds q = s.holds q := by
  cases q with
  | worker => exact hworker
  | caller j =>
    have hj : j ≠ i := fun hj => hq (hj ▸ rfl)
    rw [holds, holds, setCall_calls_of_ne u i c hj, hcalls]

theorem condSignal_holds (s : ThreadSys α) : s.condSignal.worker.holds = s.worker.holds := by
  rcases condSignal_worker s with ⟨hwake, hw⟩ | ⟨hsame, -⟩
  · rw [hwake, hw]; rfl
  · rw [hsame]

theorem suspendStep_move {me : Party} {p : SuspendPc} {s : ThreadSys α}
    {r : ThreadSys α × Option SuspendPc} (h : suspendStep me p s = some r) :
    r.1.mtxBsy = s.mtxBsy ∧ (r.2.map SuspendPc.holds).getD false = p.holds ∨
    s.mtxBsy = none ∧ r.1.mtxBsy = some me ∧ (r.2.map SuspendPc.holds).getD false = true ∨
    p.holds = true ∧ r.1.mtxBsy = none ∧ (r.2.map SuspendPc.holds).getD false = false := by
  cases p with
  | test =>
    obtain rfl := Option.some.inj h
    refine Or.inl ⟨rfl, ?_⟩
    dsimp only
    split <;> rfl
  | lock =>
    rw [suspendStep] at h
    split at h
    next hfree =>
      obtain rfl := Option.some.inj h
      exact Or.inr (Or.inl ⟨hfree, rfl, rfl⟩)
    next => cases h
  | store =>
    obtain rfl := Option.some.inj h
    exact Or.inl ⟨rfl, rfl⟩
  | unlock =>
    obtain rfl := Option.some.inj h
    exact Or.inr (Or.inr ⟨rfl, rfl, rfl⟩)

theorem workerStep_move {s t : ThreadSys α} (h : workerStep s = some t) :
    LockMove s t .worker := by
  cases workerStepTo_of_step h with
  | actvTest hw | ends hw | testcancel hw | cancels hw | disable hw | enable hw =>
    exact .keep rfl (by rw [holds, holds, hw]; rfl)
  | suspended hw | runs hw | sample hw => exact .keep rfl (by rw [holds, holds, hw]; rfl)
  | calls data hw | skips data hw => exact .keep rfl (by rw [holds, holds, hw]; rfl)
  | lock hw hfree | wakeup hw hfree => exact .lock hfree rfl rfl
  | condWait hw | unlock data hw => exact .unlock (by rw [holds, hw]; rfl) rfl rfl
  | suspend data p r hw hr =>
    obtain ⟨u, q⟩ := r
    have hholds : WorkerPc.holds (.callback data q) = (q.map SuspendPc.holds).getD false := by
      cases q <;> rfl
    have hp : s.holds .worker = p.holds := by rw [holds, hw]; rfl
    rcases suspendStep_move hr with ⟨hm, hq⟩ | ⟨hfree, hm, hq⟩ | ⟨hh, hm, hq⟩
    · exact .keep hm (by rw [hp, ← hq, ← hholds]; rfl)
    · exact .lock hfree hm (by rw [← hq, ← hholds]; rfl)
    · exact .unlock (by rw [hp, hh]) hm (by rw [← hq, ← hholds]; rfl)

/-- The lock and the places after a step of `irthread_suspend` on behalf of caller `i`. -/
theorem suspend_move {s : ThreadSys α} {i : Nat} {p : SuspendPc} {c : Call α}
    {r : ThreadSys α × Option SuspendPc} (h : suspendStep (.caller i) p s = some r)
    (hi : (s.calls i).holds = p.holds)
    (hc : c.holds = (r.2.map SuspendPc.holds).getD false) :
    LockMove s (r.1.setCall i c) (.caller i) := by
  have hself : (r.1.setCall i c).holds (.caller i) = c.holds := by
    rw [holds, setCall_calls_self]
  rcases suspendStep_move h with ⟨hm, hq⟩ | ⟨hfree, hm, hq⟩ | ⟨hh, hm, hq⟩
  · exact .keep hm (by rw [hself, hc, hq, holds, hi])
  · exact .lock hfree hm (by rw [hself, hc, hq])
  · exact .unlock (by rw [holds, hi, hh]) hm (by rw [hself, hc, hq])

theorem callStep_move {s t : ThreadSys α} {i : Nat} (h : callStep s i = some t) :
    LockMove s t (.caller i) ∧ ∀ q, q ≠ .caller i → t.holds q = s.holds q := by
  cases callStepTo_of_step h with
  | suspend p r hc hr | stopSuspend p r hc hr =>
    obtain ⟨u, q⟩ := r
    obtain ⟨b, m, hu, -⟩ := suspendStep_cases hr
    refine ⟨suspend_move hr (by rw [hc]; rfl) (by cases q <;> rfl), fun q hq => ?_⟩
    apply holds_setCall_of_ne _ _ hq <;> rw [hu]
  | refused hc | resumeTest hc | resumeStore hc | stopUsed hc | stopActv hc | stopCancel hc
  | stopJoin hc | setdataStore data hc =>
    exact ⟨.keep rfl (by simp [holds, hc, Call.holds]),
      fun q hq => holds_setCall_of_ne rfl rfl hq⟩
  | resumeSignal hc | stopSignal hc =>
    refine ⟨.keep (condSignal_mtxBsy s) ?_, fun q hq => ?_⟩
    · simp [holds, hc, Call.holds]
    · exact holds_setCall_of_ne (condSignal_calls s) (condSignal_holds s) hq
  | setdataLock data hc hfree =>
    exact ⟨.lock hfree rfl (by simp [holds, Call.holds]),
      fun q hq => holds_setCall_of_ne rfl rfl hq⟩
  | setdataUnlock data hc =>
    exact ⟨.unlock (by simp [holds, hc, Call.holds]) rfl (by simp [holds, Call.holds]),
      fun q hq => holds_setCall_of_ne rfl rfl hq⟩

theorem owner_step {s t : ThreadSys α} {a : Act α} (hs : s.Owner) (h : step s a = some t) :
    t.Owner := by
  rcases step_cases h with ⟨-, h⟩ | ⟨i, -, h⟩ | ⟨i, c, b, hidle, henters, rfl⟩ | ⟨w, hleaves, rfl⟩
  · refine owner_of_move hs (fun q hq => ?_) (workerStep_move h)
    cases q with
    | worker => exact absurd rfl hq
    | caller i => rw [holds, (workerStep_cases h).1, holds]
  · obtain ⟨hmove, hother⟩ := callStep_move h
    exact owner_of_move hs hother hmove
  · have hc : c.holds = false := by
      rcases henters with rfl | rfl | ⟨data, rfl⟩ | rfl <;> rfl
    refine @owner_of_move α s _ (.caller i) hs (fun q hq => ?_) (.keep rfl ?_)
    · exact holds_setCall_of_ne rfl rfl hq
    · rw [holds, setCall_calls_self, hc, holds, hidle]
      rfl
  · refine @owner_of_move α s _ .worker hs (fun q hq => ?_) (.keep rfl ?_)
    · cases q with
      | worker => exact absurd rfl hq
      | caller j => rfl
    · rcases hleaves with ⟨data, hw, rfl | rfl⟩ | ⟨hw, rfl⟩ <;> rw [holds, holds, hw] <;> rfl

/-- **`mtx_bsy` is a mutex.**  In every reachable state it is held by exactly the party
whose place lies between lock and unlock. -/
theorem mtxBsy_owner {null : α} {s : ThreadSys α}
    (hs : Reach step anyStep (· = initial null) s) : s.Owner := by
  apply hs.invariant_from
  · intro p
    cases p <;> simp [initial, holds, WorkerPc.holds, Call.holds]
  · exact fun _ _ _ hown _ h => owner_step hown h

end ThreadSys

end Raspberries.IrAlarm
