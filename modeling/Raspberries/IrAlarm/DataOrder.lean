import Raspberries.IrAlarm.IrThread

/-!
# In which order a callback sees its data

The worker takes its copy of `data` under `mtx_bsy` and calls the callback after it has
given the lock back, so that a value may be replaced between the two.

`callbacks_follow_setdata` says that this is harmless: the callbacks are given the values
that the calls of `irthread_setdata` store, in the order in which they are stored, some of
them several times and some of them never.  Only the first callback behind a moment may
still be given a value from before.
-/

namespace Raspberries.IrAlarm

open Transition

variable {α : Type*}

/-- The values `reads` come from a place that has the values `history` one after another. -/
inductive ReadsAlong : List α → List α → Prop
  | nil (history : List α) : ReadsAlong history []
  | read {v : α} {history reads : List α} :
      ReadsAlong (v :: history) reads → ReadsAlong (v :: history) (v :: reads)
  | next {v : α} {history reads : List α} :
      ReadsAlong history reads → ReadsAlong (v :: history) reads

namespace ThreadSys

def calledWith (s : ThreadSys α) : Act α → Option α
  | .worker =>
    match s.worker with
    | .actvTest2 data => if s.it.actv then some data else none
    | _ => none
  | _ => none

def storedBy (s : ThreadSys α) : Act α → Option α
  | .call i =>
    match s.calls i with
    | .setdata data .store => some data
    | _ => none
  | _ => none

/-- What the actions of a list show one after another. -/
def observe (f : ThreadSys α → Act α → Option α) : ThreadSys α → List (Act α) → List α
  | _, [] => []
  | s, a :: as =>
    match step s a with
    | none => []
    | some t => (f s a).toList ++ observe f t as

def callbacks (s : ThreadSys α) (as : List (Act α)) : List α := observe calledWith s as

def stores (s : ThreadSys α) (as : List (Act α)) : List α := observe storedBy s as

/-- The copy that the worker has taken and not used yet. -/
def inHand (s : ThreadSys α) : Option α :=
  match s.worker with
  | .unlock data | .actvTest2 data => some data
  | _ => none

/-! ### One step -/

/-- What a step can do to the data and to the copy of the worker: it takes the copy, uses it
up, stores a value, or does none of the three. -/
inductive DataStep (s t : ThreadSys α) (a : Act α) : Prop
  | sample (hs : s.inHand = none) (ht : t.inHand = some s.it.data)
      (hdata : t.it.data = s.it.data) (hcall : s.calledWith a = none) (hstore : s.storedBy a = none)
  | use (data : α) (hs : s.inHand = some data) (ht : t.inHand = none)
      (hdata : t.it.data = s.it.data)
      (hcall : s.calledWith a = none ∨ s.calledWith a = some data) (hstore : s.storedBy a = none)
  | store (data : α) (hhand : t.inHand = s.inHand) (hdata : t.it.data = data)
      (hcall : s.calledWith a = none) (hstore : s.storedBy a = some data)
  | keep (hhand : t.inHand = s.inHand) (hdata : t.it.data = s.it.data)
      (hcall : s.calledWith a = none) (hstore : s.storedBy a = none)

section Step

variable {s t : ThreadSys α}

theorem condSignal_inHand (s : ThreadSys α) : s.condSignal.inHand = s.inHand := by
  rcases condSignal_worker s with ⟨hwake, hw⟩ | ⟨hsame, -⟩
  · rw [inHand, inHand, hwake, hw]
  · rw [inHand, inHand, hsame]

theorem suspendStep_data {me : Party} {p : SuspendPc} {r : ThreadSys α × Option SuspendPc}
    (h : suspendStep me p s = some r) : r.1.inHand = s.inHand ∧ r.1.it.data = s.it.data := by
  obtain ⟨b, m, hr, -⟩ := suspendStep_cases h
  rw [hr]
  exact ⟨rfl, rfl⟩

theorem workerStep_data (h : workerStep s = some t) : DataStep s t .worker := by
  cases workerStepTo_of_step h with
  | sample hw =>
    have hhand : s.inHand = none := by rw [inHand, hw]
    have hcall : s.calledWith .worker = none := by rw [calledWith, hw]
    exact .sample hhand rfl rfl hcall rfl
  | calls data hw ha =>
    have hhand : s.inHand = some data := by rw [inHand, hw]
    have hcall : s.calledWith .worker = some data := by rw [calledWith, hw, ha]; rfl
    exact .use data hhand rfl rfl (.inr hcall) rfl
  | skips data hw ha =>
    have hhand : s.inHand = some data := by rw [inHand, hw]
    have hcall : s.calledWith .worker = none := by rw [calledWith, hw, ha]; rfl
    exact .use data hhand rfl rfl (.inl hcall) rfl
  | suspend data p r hw hr =>
    obtain ⟨-, hdata⟩ := suspendStep_data hr
    have hhand : s.inHand = none := by rw [inHand, hw]
    have hcall : s.calledWith .worker = none := by rw [calledWith, hw]
    exact .keep hhand.symm hdata hcall rfl
  | unlock data hw =>
    have hhand : s.inHand = some data := by rw [inHand, hw]
    have hcall : s.calledWith .worker = none := by rw [calledWith, hw]
    exact .keep hhand.symm rfl hcall rfl
  | actvTest hw | ends hw | testcancel hw | cancels hw | disable hw | lock hw | suspended hw
  | runs hw | condWait hw | wakeup hw | enable hw =>
    have hhand : s.inHand = none := by rw [inHand, hw]
    have hcall : s.calledWith .worker = none := by rw [calledWith, hw]
    exact .keep hhand.symm rfl hcall rfl

theorem callStep_data {i : Nat} (h : callStep s i = some t) : DataStep s t (.call i) := by
  cases callStepTo_of_step h with
  | setdataStore data hc =>
    have hstore : s.storedBy (.call i) = some data := by rw [storedBy, hc]
    exact .store data rfl rfl rfl hstore
  | suspend p r hc hr | stopSuspend p r hc hr =>
    obtain ⟨hhand, hdata⟩ := suspendStep_data hr
    have hstore : s.storedBy (.call i) = none := by rw [storedBy, hc]
    exact .keep hhand hdata rfl hstore
  | resumeSignal hc | stopSignal hc =>
    have hstore : s.storedBy (.call i) = none := by rw [storedBy, hc]
    exact .keep (condSignal_inHand s) (by rw [setCall_it, condSignal_it]) rfl hstore
  | refused hc | resumeTest hc | resumeStore hc | setdataLock data hc | setdataUnlock data hc
  | stopUsed hc | stopActv hc | stopCancel hc | stopJoin hc =>
    have hstore : s.storedBy (.call i) = none := by rw [storedBy, hc]
    exact .keep rfl rfl rfl hstore

theorem step_data {a : Act α} (h : step s a = some t) : DataStep s t a := by
  cases a with
  | worker => exact workerStep_data h
  | call i => exact callStep_data h
  | suspend i | resume i | setdata i data =>
    obtain ⟨-, rfl⟩ := enter_cases h
    exact .keep rfl rfl rfl rfl
  | stop i =>
    obtain ⟨-, h⟩ := Option.ite_none_right_eq_some.mp h
    obtain ⟨-, rfl⟩ := enter_cases h
    exact .keep rfl rfl rfl rfl
  | callbackReturn | callbackSuspend | spurious =>
    rw [step] at h
    split at h
    next hw =>
      obtain rfl := Option.some.inj h
      have hhand : s.inHand = none := by rw [inHand, hw]
      exact .keep hhand.symm rfl rfl rfl
    next => cases h

end Step

/-! ### Runs -/

/-- **The callbacks follow `irthread_setdata`.**  In every run of the worker and any number of
callers, from any state, the callbacks are given values that `data` has one after another:
what it has at the start and then what the calls of `irthread_setdata` store.  Only the
first of them may be given an older one, the copy that the worker has already taken. -/
theorem callbacks_follow_setdata (as : List (Act α)) {s t : ThreadSys α}
    (h : exec step anyStep s as = some t) :
    ∃ late reads, s.callbacks as = late ++ reads ∧
      (late = [] ∨ ∃ data, s.inHand = some data ∧ late = [data]) ∧
      ReadsAlong (s.it.data :: s.stores as) reads := by
  induction as generalizing s with
  | nil => exact ⟨[], [], rfl, .inl rfl, .nil _⟩
  | cons a as ih =>
    rw [exec_cons] at h
    obtain ⟨u, hu, h⟩ := Option.bind_eq_some_iff.mp h
    obtain ⟨late, reads, hcalls, hlate, hreads⟩ := ih h
    have hcallbacks : s.callbacks (a :: as) = (s.calledWith a).toList ++ u.callbacks as := by
      rw [callbacks, observe, hu]
      rfl
    have hstores : s.stores (a :: as) = (s.storedBy a).toList ++ u.stores as := by
      rw [stores, observe, hu]
      rfl
    rw [hcallbacks, hcalls, hstores]
    cases step_data hu with
    | sample hs ht hdata hcall hstore =>
      rw [hdata] at hreads
      refine ⟨[], late ++ reads, by rw [hcall]; rfl, .inl rfl, ?_⟩
      rw [hstore]
      -- the copy is the value of this moment
      rcases hlate with rfl | ⟨data, hhand, rfl⟩
      · exact hreads
      · obtain rfl := Option.some.inj (ht.symm.trans hhand)
        exact hreads.read
    | use data hs ht hdata hcall hstore =>
      obtain rfl : late = [] := by
        rcases hlate with hnil | ⟨data', hhand, -⟩
        · exact hnil
        · cases ht.symm.trans hhand
      rw [hdata] at hreads
      rw [hstore]
      rcases hcall with hcall | hcall
      · exact ⟨[], reads, by rw [hcall]; rfl, .inl rfl, hreads⟩
      · exact ⟨[data], reads, by rw [hcall]; rfl, .inr ⟨data, hs, rfl⟩, hreads⟩
    | store data hhand hdata hcall hstore =>
      rw [hdata] at hreads
      rw [hhand] at hlate
      rw [hcall, hstore]
      exact ⟨late, reads, rfl, hlate, hreads.next⟩
    | keep hhand hdata hcall hstore =>
      rw [hdata] at hreads
      rw [hhand] at hlate
      rw [hcall, hstore]
      exact ⟨late, reads, rfl, hlate, hreads⟩

def copied : ThreadSys Nat :=
  (exec step anyStep (initial 1) (List.replicate 6 .worker)).get (by decide)

/-- Another value is stored before the callback begins, and then the callback is called again. -/
def overtaken : List (Act Nat) :=
  [.setdata 0 2, .worker, .call 0, .call 0, .call 0, .worker, .callbackReturn] ++
    List.replicate 9 .worker

theorem callbacks_follow_overtaken :
    copied.callbacks overtaken = [1, 2] ∧
      ∃ late reads, copied.callbacks overtaken = late ++ reads ∧
        (late = [] ∨ ∃ data, copied.inHand = some data ∧ late = [data]) ∧
        ReadsAlong (copied.it.data :: copied.stores overtaken) reads := by
  have hrun : (exec step anyStep copied overtaken).isSome := by decide
  exact ⟨by decide, callbacks_follow_setdata overtaken (Option.some_get hrun).symm⟩

end ThreadSys

end Raspberries.IrAlarm
