import Mathlib.Logic.Function.Basic
import Raspberries.Lib.LowestFree
import Raspberries.Lib.Transition

/-!
# The pool of `irthread.c`

`thrds` holds `MAX_THREADS` pointers: a null pointer until the first start in its place,
later a record that is in use or free to be used again.  `irthread_start` takes the first
place of either free kind, and `irthread_stop` leaves the record for the next start.

The results of the allocation-free calls of `pthread` are given with each call, as error
numbers.  `PoolSys` runs any sequence of starts and stops and remembers which ids are live;
`lowest_free_slot` proves that the pool hands out the lowest id that is not.
-/

namespace Raspberries.IrAlarm

open LowestFree Transition

/-- `struct irthread`; the mutex and the condition variable say whether they are
initialised, and `none` is a null pointer. -/
structure Slot (Cb D : Type*) where
  actv : Bool
  used : Bool
  susp : Bool
  tid : Nat
  id : Int
  mtxBsy : Bool
  cndBsy : Bool
  tcb : Option Cb
  data : Option D
  deriving DecidableEq, Repr

abbrev Pool (Cb D : Type*) := Nat → Option (Slot Cb D)

variable {Cb D : Type*}

/-- All zeros, by `calloc` or by `memset`. -/
def Slot.zero : Slot Cb D where
  actv := false
  used := false
  susp := false
  tid := 0
  id := 0
  mtxBsy := false
  cndBsy := false
  tcb := none
  data := none

def irthrdErr : Int := -1

/-! ### Start -/

/-- The results of `pthread_mutex_init`, `pthread_cond_init` and `pthread_create`, and the
thread id that the last of them stores. -/
structure StartCalls where
  mutexInit : Nat
  condInit : Nat
  create : Nat
  tid : Nat
  deriving DecidableEq, Repr

def inUse (thrds : Pool Cb D) (i : Nat) : Bool := (thrds i).any Slot.used

/-- Where the loop of `irthread_start` stops, with `k` turns to go. -/
def findSlot (thrds : Pool Cb D) : Nat → Nat → Nat
  | 0, i => i
  | k + 1, i => if inUse thrds i then findSlot thrds k (i + 1) else i

def Slot.started (calls : StartCalls) (threadfunc : Cb) (id : Int) : Slot Cb D :=
  { (Slot.zero : Slot Cb D) with
    used := true
    actv := true
    susp := false
    id := id
    tcb := some threadfunc
    data := none
    mtxBsy := calls.mutexInit = 0
    cndBsy := calls.condInit = 0
    tid := calls.tid }

/-- `irthread_start`: its result, and the pool behind it. -/
def irthreadStart (maxThreads : Nat) (calls : StartCalls) (threadfunc : Cb) (thrds : Pool Cb D) :
    Int × Pool Cb D :=
  let i := findSlot thrds maxThreads 0
  if i < maxThreads then
    let ret := calls.mutexInit ||| calls.condInit ||| calls.create
    (if ret ≠ 0 then irthrdErr else i,
      Function.update thrds i (some (.started calls threadfunc i)))
  else (irthrdErr, thrds)

/-! ### Stop -/

/-- The results of the calls of `irthread_stop`. -/
structure StopCalls where
  signal : Nat
  cancel : Nat
  join : Nat
  mutexDestroy : Nat
  condDestroy : Nat
  deriving DecidableEq, Repr

def StopCalls.ret (calls : StopCalls) : Nat :=
  calls.signal ||| calls.cancel ||| calls.join ||| calls.mutexDestroy ||| calls.condDestroy

def idcheck (maxThreads : Nat) (id : Int) : Nat := if id < 0 ∨ id ≥ maxThreads then 1 else 0

/-- The record behind `irthread_suspend` and the rest of `irthread_stop`. -/
def Slot.stopped (calls : StopCalls) (it : Slot Cb D) : Slot Cb D :=
  { it with
    susp := true
    used := false
    actv := false
    mtxBsy := it.mtxBsy && calls.mutexDestroy ≠ 0
    cndBsy := it.cndBsy && calls.condDestroy ≠ 0 }

/-- `irthread_stop`; `none` when it dereferences a null pointer. -/
def irthreadStop (maxThreads : Nat) (calls : StopCalls) (id : Int) (thrds : Pool Cb D) :
    Option (Int × Pool Cb D) :=
  if idcheck maxThreads id = 0 then
    (thrds id.toNat).map fun it =>
      ((calls.ret : Int), Function.update thrds id.toNat (some (it.stopped calls)))
  else some (irthrdErr, thrds)

/-! ### Sequences of calls -/

/-- The pool, and the live ids: those a start has returned since they were last stopped. -/
structure PoolSys (Cb D : Type*) where
  thrds : Pool Cb D
  live : List Nat

def PoolSys.initial : PoolSys Cb D := ⟨fun _ => none, []⟩

inductive PoolAct (Cb : Type*)
  | start (calls : StartCalls) (threadfunc : Cb)
  | stop (calls : StopCalls) (id : Int)
  deriving DecidableEq, Repr

def PoolSys.step (maxThreads : Nat) (s : PoolSys Cb D) : PoolAct Cb → Option (PoolSys Cb D)
  | .start calls threadfunc =>
    let (ret, thrds) := irthreadStart maxThreads calls threadfunc s.thrds
    some ⟨thrds, if ret = irthrdErr then s.live else s.live ++ [ret.toNat]⟩
  | .stop calls id =>
    (irthreadStop maxThreads calls id s.thrds).map fun r =>
      ⟨r.2, if idcheck maxThreads id = 0 then s.live.erase id.toNat else s.live⟩

def StartCalls.Succeed (calls : StartCalls) : Prop :=
  calls.mutexInit = 0 ∧ calls.condInit = 0 ∧ calls.create = 0

/-- The calls of a start succeed, and only what is live is stopped. -/
def PoolSys.Regular (s : PoolSys Cb D) : PoolAct Cb → Prop
  | .start calls _ => calls.Succeed
  | .stop _ id => 0 ≤ id ∧ id.toNat ∈ s.live

/-- The record of a thread that has just been started with this callback: nothing of a thread
that had the place before is left. -/
structure Slot.IsFresh (threadfunc : Cb) (id : Nat) (it : Slot Cb D) : Prop where
  id : it.id = id
  tcb : it.tcb = some threadfunc
  data : it.data = none
  susp : it.susp = false
  actv : it.actv = true
  used : it.used = true

/-- What a start and a stop do in this state. -/
structure AllocatorLaw (maxThreads : Nat) (s : PoolSys Cb D) : Prop where
  distinct : s.live.Nodup
  start_err : ∀ calls (threadfunc : Cb), calls.Succeed →
    ((irthreadStart maxThreads calls threadfunc s.thrds).1 = irthrdErr ↔
      s.live.length = maxThreads)
  start_full : ∀ calls (threadfunc : Cb), calls.Succeed → s.live.length = maxThreads →
    (irthreadStart maxThreads calls threadfunc s.thrds).2 = s.thrds
  start_lowest : ∀ calls (threadfunc : Cb), calls.Succeed → s.live.length ≠ maxThreads →
    ∃ id : Nat, IsLeast {j | j < maxThreads ∧ j ∉ s.live} id ∧
      (irthreadStart maxThreads calls threadfunc s.thrds).1 = id ∧
      (∃ it, (irthreadStart maxThreads calls threadfunc s.thrds).2 id = some it ∧
        it.IsFresh threadfunc id) ∧
      ∀ j, j ≠ id →
        (irthreadStart maxThreads calls threadfunc s.thrds).2 j = s.thrds j
  stop_other : ∀ (calls : StopCalls) (id : Nat), id ∈ s.live →
    ∃ r, irthreadStop maxThreads calls id s.thrds = some r ∧ ∀ j, j ≠ id → r.2 j = s.thrds j

/-! ### The pool and the live ids -/

/-- The places in use are those of the live ids. -/
structure Represents (maxThreads : Nat) (s : PoolSys Cb D) : Prop where
  allocated : Allocated maxThreads s.live
  inUse : ∀ i, inUse s.thrds i = decide (i ∈ s.live)

/-- The loop stops at the first place that is not in use. -/
theorem findSlot_eq (thrds : Pool Cb D) (k i : Nat) :
    findSlot thrds k i = ((List.range' i k).find? fun j => !inUse thrds j).getD (i + k) := by
  induction k generalizing i with
  | zero => rfl
  | succ k ih =>
    rw [findSlot, List.range'_succ, List.find?_cons]
    cases inUse thrds i with
    | true =>
      have hend : i + 1 + k = i + (k + 1) := by omega
      simp [ih, hend]
    | false => rfl

section Start

variable {maxThreads : Nat} {s : PoolSys Cb D} {calls : StartCalls} {threadfunc : Cb}

theorem Represents.findSlot_eq (h : Represents maxThreads s) :
    findSlot s.thrds maxThreads 0 = (lowestFree maxThreads s.live).getD maxThreads := by
  have hfree : (fun j => !IrAlarm.inUse s.thrds j) = fun j => decide (j ∉ s.live) := by
    funext j
    rw [h.inUse, decide_not]
  rw [IrAlarm.findSlot_eq, hfree, Nat.zero_add, ← List.range_eq_range']
  rfl

theorem Slot.isFresh_started (calls : StartCalls) (threadfunc : Cb) (id : Nat) :
    (Slot.started calls threadfunc id : Slot Cb D).IsFresh threadfunc id :=
  ⟨rfl, rfl, rfl, rfl, rfl, rfl⟩

theorem irthreadStart_none (h : Represents maxThreads s)
    (hnone : lowestFree maxThreads s.live = none) :
    irthreadStart maxThreads calls threadfunc s.thrds = (irthrdErr, s.thrds) := by
  have hslot := h.findSlot_eq
  rw [hnone] at hslot
  exact if_neg (by rw [hslot]; exact Nat.lt_irrefl _)

theorem irthreadStart_some (h : Represents maxThreads s) {i : Nat}
    (hsome : lowestFree maxThreads s.live = some i) (hcalls : calls.Succeed) :
    irthreadStart maxThreads calls threadfunc s.thrds =
      ((i : Int), Function.update s.thrds i (some (.started calls threadfunc i))) := by
  have hslot := h.findSlot_eq
  have hlt := (lowestFree_eq_some_iff.mp hsome).1.1
  rw [hsome, Option.getD_some] at hslot
  simp [irthreadStart, hslot, hlt, hcalls.1, hcalls.2.1, hcalls.2.2]

end Start

section Stop

variable {maxThreads : Nat} {s : PoolSys Cb D} {id : Nat}

theorem Represents.slot (h : Represents maxThreads s) (hlive : id ∈ s.live) :
    ∃ it, s.thrds id = some it := by
  have huse := h.inUse id
  rw [decide_eq_true hlive, IrAlarm.inUse] at huse
  cases hslot : s.thrds id with
  | none =>
    rw [hslot] at huse
    cases huse
  | some it => exact ⟨it, rfl⟩

theorem Represents.idcheck_live (h : Represents maxThreads s) {id : Int} (hpos : 0 ≤ id)
    (hlive : id.toNat ∈ s.live) : idcheck maxThreads id = 0 := by
  have hlt := h.allocated.lt id.toNat hlive
  apply if_neg
  omega

theorem irthreadStop_live (h : Represents maxThreads s) (hlive : id ∈ s.live)
    (calls : StopCalls) :
    ∃ it : Slot Cb D, irthreadStop maxThreads calls id s.thrds =
      some ((calls.ret : Int), Function.update s.thrds id (some (it.stopped calls))) := by
  obtain ⟨it, hslot⟩ := h.slot hlive
  have hcheck : idcheck maxThreads (id : Int) = 0 := h.idcheck_live (by omega) hlive
  refine ⟨it, ?_⟩
  rw [irthreadStop, if_pos hcheck, Int.toNat_natCast, hslot]
  rfl

end Stop

theorem represents_initial (maxThreads : Nat) :
    Represents maxThreads (PoolSys.initial : PoolSys Cb D) where
  allocated := ⟨List.nodup_nil, fun _ hi => absurd hi List.not_mem_nil⟩
  inUse := fun _ => rfl

theorem inUse_update (thrds : Pool Cb D) (i : Nat) (it : Slot Cb D) (j : Nat) :
    inUse (Function.update thrds i (some it)) j = if j = i then it.used else inUse thrds j := by
  by_cases h : j = i
  · simp [inUse, h]
  · simp [inUse, h]

/-- **One call.**  Starts that succeed and stops of what is live keep the places in use
those of the live ids. -/
theorem represents_step {maxThreads : Nat} {s t : PoolSys Cb D} {a : PoolAct Cb}
    (h : Represents maxThreads s) (hok : s.Regular a) (hst : s.step maxThreads a = some t) :
    Represents maxThreads t := by
  cases a with
  | start calls threadfunc =>
    cases hlow : lowestFree maxThreads s.live with
    | none =>
      rw [PoolSys.step, irthreadStart_none h hlow] at hst
      obtain rfl := Option.some.inj hst
      exact h
    | some i =>
      rw [PoolSys.step, irthreadStart_some h hlow hok] at hst
      obtain rfl := Option.some.inj hst
      obtain ⟨hlt, hfree⟩ := (lowestFree_eq_some_iff.mp hlow).1
      have hret : ¬ (i : Int) = irthrdErr := by
        rw [irthrdErr]
        omega
      simp only [if_neg hret, Int.toNat_natCast]
      refine ⟨h.allocated.concat hlt hfree, ?_⟩
      intro j
      rw [inUse_update, h.inUse]
      by_cases hj : j = i
      · simp [hj, Slot.started]
      · simp [hj]
  | stop calls id =>
    obtain ⟨hpos, hlive⟩ := hok
    obtain ⟨it, hstop⟩ := irthreadStop_live h hlive calls
    rw [Int.toNat_of_nonneg hpos] at hstop
    have hcheck := h.idcheck_live hpos hlive
    rw [PoolSys.step, hstop] at hst
    obtain rfl := Option.some.inj hst
    simp only [if_pos hcheck]
    refine ⟨h.allocated.erase _, ?_⟩
    intro j
    rw [inUse_update, h.inUse]
    by_cases hj : j = id.toNat
    · simp [hj, Slot.stopped, h.allocated.nodup.not_mem_erase]
    · simp [hj]

/-- Every sequence keeps the places in use those of the live ids. -/
theorem represents_reach {maxThreads : Nat} {s : PoolSys Cb D}
    (h : Reach (PoolSys.step maxThreads) PoolSys.Regular (· = .initial) s) :
    Represents maxThreads s :=
  h.invariant_from (represents_initial maxThreads) fun _ _ _ hrep hok hst =>
    represents_step hrep hok hst

/-- **The pool is a lowest-free-slot allocator.**  In every state that starts which succeed
and stops of live ids can lead to, a start takes the lowest id that is not live, leaves a
fresh record there and no other changed, and fails exactly if all ids are live. -/
theorem lowest_free_slot {maxThreads : Nat} {s : PoolSys Cb D}
    (h : Reach (PoolSys.step maxThreads) PoolSys.Regular (· = .initial) s) :
    AllocatorLaw maxThreads s := by
  have hrep := represents_reach h
  refine ⟨?_, ?_, ?_, ?_, ?_⟩
  · exact hrep.allocated.nodup
  · intro calls threadfunc hcalls
    rw [← hrep.allocated.lowestFree_eq_none_iff]
    cases hlow : lowestFree maxThreads s.live with
    | none =>
      rw [irthreadStart_none hrep hlow]
      exact iff_of_true rfl rfl
    | some i =>
      rw [irthreadStart_some hrep hlow hcalls, irthrdErr]
      simp
  · intro calls threadfunc _ hfull
    rw [irthreadStart_none hrep (hrep.allocated.lowestFree_eq_none_iff.mpr hfull)]
  · intro calls threadfunc hcalls hfree
    cases hlow : lowestFree maxThreads s.live with
    | none => exact absurd (hrep.allocated.lowestFree_eq_none_iff.mp hlow) hfree
    | some i =>
      rw [irthreadStart_some hrep hlow hcalls]
      exact ⟨i, lowestFree_eq_some_iff.mp hlow, rfl,
        ⟨_, Function.update_self _ _ _, Slot.isFresh_started calls threadfunc i⟩,
        fun j hj => Function.update_of_ne hj _ _⟩
  · intro calls id hlive
    obtain ⟨it, hstop⟩ := irthreadStop_live hrep hlive calls
    exact ⟨_, hstop, fun j hj => Function.update_of_ne hj _ _⟩

instance (calls : StartCalls) : Decidable calls.Succeed :=
  inferInstanceAs (Decidable (_ ∧ _ ∧ _))

instance (s : PoolSys Cb D) : ∀ a, Decidable (s.Regular a)
  | .start calls _ => inferInstanceAs (Decidable calls.Succeed)
  | .stop _ id => inferInstanceAs (Decidable (0 ≤ id ∧ id.toNat ∈ s.live))

def secondStopped : PoolSys Nat Nat :=
  (exec (PoolSys.step 4) PoolSys.Regular .initial
    [.start ⟨0, 0, 0, 100⟩ 10, .start ⟨0, 0, 0, 101⟩ 11, .start ⟨0, 0, 0, 102⟩ 12,
      .stop ⟨0, 0, 0, 0, 0⟩ 1]).get (by decide)

theorem lowest_free_slot_second : secondStopped.live = [0, 2] ∧ AllocatorLaw 4 secondStopped :=
  ⟨by decide, lowest_free_slot (reach_get _ _ _)⟩

end Raspberries.IrAlarm
