import Raspberries.IrAlarm.ThreadPool

/-!
# Calls of the pool that fail

`irthread_start` marks its place used and then makes the three calls of `pthread`.  If one
of them fails it returns `IRTHRD_ERR`, and the place stays used under an id that nobody was
told (`failed_start_keeps_slot`).  `irthread_stop` tests the range of the id and nothing
else: an id in the range that was never started is a null pointer, and one that was
stopped is stopped again, with stores to its record.

`pool_failures_iff` says when a failing call leaves the pool alone, and that in every run
of such calls the places that are free are those of the ids that are not live.
-/

namespace Raspberries.IrAlarm

open LowestFree Transition

variable {Cb D : Type*}

/-! ### The stores of `irthread_stop` -/

inductive SlotStore
  | susp (v : Bool)
  | used (v : Bool)
  | actv (v : Bool)
  | mtxBsy (v : Bool)
  | cndBsy (v : Bool)
  deriving DecidableEq, Repr

def SlotStore.apply (it : Slot Cb D) : SlotStore → Slot Cb D
  | .susp v => { it with susp := v }
  | .used v => { it with used := v }
  | .actv v => { it with actv := v }
  | .mtxBsy v => { it with mtxBsy := v }
  | .cndBsy v => { it with cndBsy := v }

/-- What `irthread_stop` stores to a record, `irthread_suspend` included. -/
def stopStores (calls : StopCalls) (it : Slot Cb D) : List SlotStore :=
  (if it.susp then [] else [.susp true]) ++
    [.used false, .actv false, .mtxBsy (it.mtxBsy && calls.mutexDestroy ≠ 0),
      .cndBsy (it.cndBsy && calls.condDestroy ≠ 0)]

/-- `irthread_stop` as its result and its stores, each with the place of the record. -/
def stopStored (maxThreads : Nat) (calls : StopCalls) (id : Int) (thrds : Pool Cb D) :
    Option (Int × List (Nat × SlotStore)) :=
  if idcheck maxThreads id = 0 then
    (thrds id.toNat).map fun it =>
      ((calls.ret : Int), (stopStores calls it).map (Prod.mk id.toNat))
  else some (irthrdErr, [])

def storeSlot (thrds : Pool Cb D) (st : Nat × SlotStore) : Pool Cb D :=
  Function.update thrds st.1 ((thrds st.1).map fun it => st.2.apply it)

theorem foldl_storeSlot {thrds : Pool Cb D} {i : Nat} {it : Slot Cb D} (hit : thrds i = some it)
    (sts : List SlotStore) :
    (sts.map (Prod.mk i)).foldl storeSlot thrds =
      Function.update thrds i (some (sts.foldl SlotStore.apply it)) := by
  induction sts generalizing thrds it with
  | nil => exact (Function.update_eq_self_iff.mpr hit.symm).symm
  | cons st sts ih =>
    have hstep : storeSlot thrds (i, st) =
        Function.update thrds i (some (SlotStore.apply it st)) := by
      rw [storeSlot, hit]
      rfl
    rw [List.map_cons, List.foldl_cons, List.foldl_cons, hstep,
      ih (Function.update_self _ _ _), Function.update_idem]

theorem foldl_stopStores (calls : StopCalls) (it : Slot Cb D) :
    (stopStores calls it).foldl SlotStore.apply it = it.stopped calls := by
  obtain ⟨actv, used, susp, tid, id, mtxBsy, cndBsy, tcb, data⟩ := it
  cases susp <;> rfl

theorem irthreadStop_eq_stores (maxThreads : Nat) (calls : StopCalls) (id : Int)
    (thrds : Pool Cb D) :
    irthreadStop maxThreads calls id thrds =
      (stopStored maxThreads calls id thrds).map fun r => (r.1, r.2.foldl storeSlot thrds) := by
  rw [irthreadStop, stopStored]
  split
  next =>
    cases hit : thrds id.toNat with
    | none => rfl
    | some it => simp [foldl_storeSlot hit, foldl_stopStores]
  next => rfl

/-! ### One call -/

def Full (maxThreads : Nat) (thrds : Pool Cb D) : Prop := ∀ i < maxThreads, inUse thrds i = true

/-- A start that returns `IRTHRD_ERR` leaves free what was free, and no more. -/
def StartKeeps (maxThreads : Nat) (thrds : Pool Cb D) (calls : StartCalls) (threadfunc : Cb) :
    Prop :=
  (irthreadStart maxThreads calls threadfunc thrds).1 = irthrdErr →
    ∀ i < maxThreads, inUse (irthreadStart maxThreads calls threadfunc thrds).2 i = inUse thrds i

/-- A stop returns an error, and stores nothing to any record. -/
def StopRefused (maxThreads : Nat) (thrds : Pool Cb D) (id : Int) : Prop :=
  ∀ calls, ∃ ret, stopStored maxThreads calls id thrds = some (ret, []) ∧ ret ≠ 0

def PoolSys.Live (s : PoolSys Cb D) (id : Int) : Prop := 0 ≤ id ∧ id.toNat ∈ s.live

section Call

variable {maxThreads : Nat} {thrds : Pool Cb D}

theorem findSlot_spec :
    (findSlot thrds maxThreads 0 < maxThreads ∧
        inUse thrds (findSlot thrds maxThreads 0) = false) ∨
      (¬ findSlot thrds maxThreads 0 < maxThreads ∧ Full maxThreads thrds) := by
  rw [findSlot_eq, Nat.zero_add, ← List.range_eq_range']
  cases hfind : (List.range maxThreads).find? fun j => !inUse thrds j with
  | none =>
    refine .inr ⟨Nat.lt_irrefl _, ?_⟩
    intro i hi
    simpa using List.find?_eq_none.mp hfind i (List.mem_range.mpr hi)
  | some i =>
    refine .inl ⟨List.mem_range.mp (List.mem_of_find?_eq_some hfind), ?_⟩
    simpa using List.find?_some hfind

theorem succeed_iff (calls : StartCalls) :
    calls.Succeed ↔ calls.mutexInit ||| calls.condInit ||| calls.create = 0 := by
  rw [StartCalls.Succeed, Nat.or_eq_zero_iff, Nat.or_eq_zero_iff, and_assoc]

theorem startKeeps_iff (calls : StartCalls) (threadfunc : Cb) :
    StartKeeps maxThreads thrds calls threadfunc ↔ Full maxThreads thrds ∨ calls.Succeed := by
  rw [StartKeeps, irthreadStart]
  obtain ⟨hlt, hfree⟩ | ⟨hge, hfull⟩ := @findSlot_spec Cb D maxThreads thrds
  · simp only [if_pos hlt]
    by_cases hcalls : calls.Succeed
    · refine iff_of_true ?_ (.inr hcalls)
      intro herr
      rw [if_neg (not_not.mpr ((succeed_iff calls).mp hcalls)), irthrdErr] at herr
      omega
    · refine iff_of_false ?_ ?_
      · intro hkeeps
        have hret : calls.mutexInit ||| calls.condInit ||| calls.create ≠ 0 :=
          fun hzero => hcalls ((succeed_iff calls).mpr hzero)
        have hsame := hkeeps (if_pos hret) _ hlt
        rw [inUse_update, if_pos rfl, hfree] at hsame
        cases hsame
      · intro h
        obtain hfull | hsucceed := h
        · rw [hfull _ hlt] at hfree
          cases hfree
        · exact hcalls hsucceed
  · simp only [if_neg hge]
    exact iff_of_true (fun _ _ _ => trivial) (.inl hfull)

theorem stopRefused_iff {id : Int} :
    StopRefused maxThreads thrds id ↔ id < 0 ∨ id ≥ maxThreads := by
  refine ⟨?_, ?_⟩
  · intro hrefused
    by_contra hrange
    obtain ⟨ret, hstored, -⟩ := hrefused ⟨0, 0, 0, 0, 0⟩
    have hcheck : idcheck maxThreads id = 0 := if_neg hrange
    rw [stopStored, if_pos hcheck] at hstored
    obtain ⟨it, -, hstores⟩ := Option.map_eq_some_iff.mp hstored
    have hnil := List.map_eq_nil_iff.mp (Prod.mk.inj hstores).2
    rw [stopStores] at hnil
    exact absurd (List.append_eq_nil_iff.mp hnil).2 (List.cons_ne_nil _ _)
  · intro hrange calls
    refine ⟨irthrdErr, ?_, by decide⟩
    rw [stopStored, if_neg]
    rw [idcheck, if_pos hrange]
    exact Nat.one_ne_zero

end Call

/-! ### Runs -/

/-- The calls that leave the pool alone if they fail: a start where no place is free or no
call of `pthread` fails, and a stop of what is live or is no id. -/
def PoolSys.Handled (maxThreads : Nat) (s : PoolSys Cb D) : PoolAct Cb → Prop
  | .start calls _ => Full maxThreads s.thrds ∨ calls.Succeed
  | .stop _ id => s.Live id ∨ id < 0 ∨ id ≥ maxThreads

/-- The call is a start that returns `IRTHRD_ERR`, or a stop of what is not live. -/
def PoolSys.Fails (maxThreads : Nat) (s : PoolSys Cb D) : PoolAct Cb → Prop
  | .start calls threadfunc =>
    (irthreadStart maxThreads calls threadfunc s.thrds).1 = irthrdErr
  | .stop _ id => ¬ s.Live id

section Runs

variable {maxThreads : Nat} {s t : PoolSys Cb D}

theorem irthreadStart_full (hfull : Full maxThreads s.thrds) (calls : StartCalls)
    (threadfunc : Cb) :
    irthreadStart maxThreads calls threadfunc s.thrds = (irthrdErr, s.thrds) := by
  obtain ⟨hlt, hfree⟩ | ⟨hge, -⟩ := @findSlot_spec Cb D maxThreads s.thrds
  · rw [hfull _ hlt] at hfree
    cases hfree
  · exact if_neg hge

/-- A call that fails, of the kind that is handled, leaves all as it was. -/
theorem step_of_fails {a : PoolAct Cb} (hok : s.Handled maxThreads a)
    (hfails : s.Fails maxThreads a) (hst : s.step maxThreads a = some t) : t = s := by
  cases a with
  | start calls threadfunc =>
    have hfull : Full maxThreads s.thrds := by
      cases hok with
      | inl hfull => exact hfull
      | inr hcalls =>
        obtain ⟨hlt, -⟩ | ⟨-, hfull⟩ := @findSlot_spec Cb D maxThreads s.thrds
        · rw [PoolSys.Fails, irthreadStart] at hfails
          simp only [if_pos hlt, (succeed_iff calls).mp hcalls, ne_eq, not_true_eq_false,
            if_false, irthrdErr] at hfails
          omega
        · exact hfull
    rw [PoolSys.step, irthreadStart_full hfull] at hst
    exact (Option.some.inj hst).symm
  | stop calls id =>
    have hcheck : idcheck maxThreads id ≠ 0 := by
      cases hok with
      | inl hlive => exact absurd hlive hfails
      | inr hrange =>
        rw [idcheck, if_pos hrange]
        exact Nat.one_ne_zero
    rw [PoolSys.step, irthreadStop, if_neg hcheck] at hst
    simp only [Option.map_some, if_neg hcheck] at hst
    exact (Option.some.inj hst).symm

theorem represents_handled {a : PoolAct Cb} (h : Represents maxThreads s)
    (hok : s.Handled maxThreads a) (hst : s.step maxThreads a = some t) :
    Represents maxThreads t := by
  by_cases hfails : s.Fails maxThreads a
  · rw [step_of_fails hok hfails hst]
    exact h
  · refine represents_step h ?_ hst
    cases a with
    | start calls threadfunc =>
      cases hok with
      | inl hfull =>
        refine absurd ?_ hfails
        rw [PoolSys.Fails, irthreadStart_full hfull]
      | inr hcalls => exact hcalls
    | stop calls id => exact not_not.mp hfails

theorem represents_of_handled
    (h : Reach (PoolSys.step maxThreads) (PoolSys.Handled maxThreads) (· = .initial) s) :
    Represents maxThreads s :=
  h.invariant_from (represents_initial maxThreads) fun _ _ _ hrep hok hst =>
    represents_handled hrep hok hst

/-- **When a failing call leaves the pool as it was.**  In every state: a start exactly if
no place is free or all calls of `pthread` succeed, and a stop of what is not live exactly
if the id is out of the range.  In every run of calls of this kind, whatever fails changes
nothing, and the places that are free are those of the ids that are not live. -/
theorem pool_failures_iff (maxThreads : Nat) (s : PoolSys Cb D) :
    (∀ calls (threadfunc : Cb), StartKeeps maxThreads s.thrds calls threadfunc ↔
      Full maxThreads s.thrds ∨ calls.Succeed) ∧
    (∀ id, ¬ s.Live id →
      (StopRefused maxThreads s.thrds id ↔ id < 0 ∨ id ≥ maxThreads)) ∧
    (Reach (PoolSys.step maxThreads) (PoolSys.Handled maxThreads) (· = .initial) s →
      (∀ i < maxThreads, inUse s.thrds i = false ↔ i ∉ s.live) ∧
        ∀ a t, s.Handled maxThreads a → s.Fails maxThreads a →
          s.step maxThreads a = some t → t = s) := by
  refine ⟨fun calls threadfunc => startKeeps_iff calls threadfunc,
    fun id _ => stopRefused_iff, ?_⟩
  intro hreach
  refine ⟨?_, fun a t hok hfails hst => step_of_fails hok hfails hst⟩
  intro i _
  rw [(represents_of_handled hreach).inUse, decide_eq_false_iff_not]

end Runs

/-- Three threads are started and one of them stopped: its place is free again. -/
theorem pool_failures_second :
    (inUse secondStopped.thrds 1 = false ↔ 1 ∉ secondStopped.live) ∧
      (inUse secondStopped.thrds 2 = false ↔ 2 ∉ secondStopped.live) := by
  have hreach : Reach (PoolSys.step 4) (PoolSys.Handled 4) (· = .initial) secondStopped := by
    refine Reach.mono ?_ (reach_get _ _ _)
    intro s a hregular
    cases a with
    | start calls threadfunc => exact .inr hregular
    | stop calls id => exact .inl hregular
  have hfree := ((pool_failures_iff 4 secondStopped).2.2 hreach).1
  exact ⟨hfree 1 (by decide), hfree 2 (by decide)⟩

/-- `pthread_create` fails with `EAGAIN` in the first start of all: the place 0 is used. -/
theorem failed_start_keeps_slot :
    ¬ ∀ s : PoolSys Nat Nat, Reach (PoolSys.step 4) anyStep (· = .initial) s →
      (∀ calls (threadfunc : Nat), StartKeeps 4 s.thrds calls threadfunc) ∧
        ∀ id, ¬ s.Live id → StopRefused 4 s.thrds id := by
  intro h
  have hkeeps := (h .initial (.start rfl)).1 ⟨0, 0, 11, 100⟩ 10
  exact absurd (hkeeps rfl 0 (by decide)) (by decide)

end Raspberries.IrAlarm
