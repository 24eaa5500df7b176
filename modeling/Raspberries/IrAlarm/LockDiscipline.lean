import Raspberries.IrAlarm.LockCode
import Raspberries.IrAlarm.ThreadLock

/-!
# Every thread keeps to the order

`Orderly` says so for all that the threads have left to do, in the functions of
`irthread.c` too, and that the locks are owned by those who have locked and not unlocked
them.  It is kept by every step; a step of one thread is compared with its own code, and
the others are left alone (`Orderly.move`, `Orderly.stepThread`).
-/

namespace Raspberries.IrAlarm

open LockOrder SysVSem Transition

/-! ### The invariant -/

namespace LockSys

open ThreadSys

def view (s : LockSys) (p : Tid) : View Lock := ⟨s.held p, s.blocked p⟩

structure SemOk (s : LockSys) : Prop where
  mutex : SysVSem.Mutex s.kernel fun p => .sem ∈ s.held p
  names : Names (some s.semId) s.kernel

def InCallback (s : LockSys) (w : Worker) : Prop :=
  ∃ data self, (s.thread w).worker = .callback data self

/-- Every thread keeps to the order with what it has left, in a call of a function of
`irthread.c` too, and the locks are owned as `held` says.  While the main thread is in such
a call it is in no other and no signal may come. -/
structure Orderly (s : LockSys) : Prop where
  code : ∀ p, CodeOk p (s.view p) (s.code p)
  owner : ∀ m p, s.owner m = some p ↔ .mtx m ∈ s.held p
  sem : s.SemOk
  bsy : ∀ w, (s.thread w).Owner
  callers : ∀ w j, j ≠ 0 → (s.thread w).calls j = .idle
  call : ∀ w, (s.thread w).calls 0 ≠ .idle → s.blocked .main = true ∧
    (∀ l ∈ s.held .main, l.rank < (Lock.mtxBsy w).rank) ∧
    ∀ w', w' ≠ w → (s.thread w').calls 0 = .idle
  self : ∀ w data p, (s.thread w).worker = .callback data (some p) →
    ∀ l ∈ s.held (.worker w), l.rank < (Lock.mtxBsy w).rank
  outside : ∀ w, ¬ s.InCallback w → s.code (.worker w) = []

/-- Thread `p` may execute its code: it is in no function of `irthread.c`. -/
structure Executes (s : LockSys) (p : Tid) : Prop where
  main : p = .main → ∀ w, (s.thread w).calls 0 = .idle
  worker : ∀ w, p = .worker w → ∃ data, (s.thread w).worker = .callback data none

section Step

variable {s : LockSys}

theorem Orderly.view_of_nil (hs : s.Orderly) {p : Tid} (h : s.code p = []) :
    s.view p = ⟨[], true⟩ := by
  have hcode := (hs.code p).checked
  rw [h] at hcode
  exact checked_nil.mp hcode

theorem Orderly.move {t : LockSys} (hs : s.Orderly) (p : Tid)
    (hother : ∀ q, q ≠ p → t.view q = s.view q ∧ t.code q = s.code q)
    (hthread : t.thread = s.thread) (hcode : CodeOk p (t.view p) (t.code p))
    (howner : ∀ m q, t.owner m = some q ↔ .mtx m ∈ t.held q) (hsem : t.SemOk)
    (hp : s.Executes p) : t.Orderly := by
  have hheld : ∀ q, q ≠ p → t.held q = s.held q := fun q hq => congrArg View.held (hother q hq).1
  refine ⟨?_, howner, hsem, ?_, ?_, ?_, ?_, ?_⟩
  · intro q
    by_cases hq : q = p
    · subst hq
      exact hcode
    · rw [(hother q hq).1, (hother q hq).2]
      exact hs.code q
  · rw [hthread]
    exact hs.bsy
  · rw [hthread]
    exact hs.callers
  · intro w hw
    rw [hthread] at hw ⊢
    have hne : Tid.main ≠ p := fun hmain => hw (hp.main hmain.symm w)
    have hblocked : t.blocked .main = s.blocked .main :=
      congrArg View.masked (hother .main hne).1
    rw [hblocked, hheld .main hne]
    exact hs.call w hw
  · intro w data self hself
    rw [hthread] at hself
    have hne : Tid.worker w ≠ p := by
      intro hworker
      obtain ⟨data', hnone⟩ := hp.worker w hworker.symm
      cases hself.symm.trans hnone
    rw [hheld _ hne]
    exact hs.self w data self hself
  · intro w hout
    rw [InCallback, hthread] at hout
    have hne : Tid.worker w ≠ p := by
      intro hworker
      obtain ⟨data', hnone⟩ := hp.worker w hworker.symm
      exact hout ⟨data', none, hnone⟩
    rw [(hother _ hne).2]
    exact hs.outside w hout

theorem Orderly.setCode (hs : s.Orderly) {p : Tid} {code : List Instr} {vars : LockVars}
    (hcode : CodeOk p (s.view p) code) (hp : s.Executes p) :
    Orderly { s.setCode p code with vars := vars } := by
  refine hs.move p ?_ rfl ?_ hs.owner ⟨hs.sem.mutex, hs.sem.names⟩ hp
  · intro q hq
    exact ⟨rfl, Function.update_of_ne hq _ _⟩
  · show CodeOk p (s.view p) (Function.update s.code p code p)
    rw [Function.update_self]
    exact hcode

theorem Orderly.setBlocked (hs : s.Orderly) {p : Tid} {code : List Instr} {b pending : Bool}
    (hcode : CodeOk p ⟨s.held p, b⟩ code) (hp : s.Executes p) :
    Orderly { (s.setCode p code).setBlocked p b with pending := pending } := by
  refine hs.move p ?_ rfl ?_ hs.owner ⟨hs.sem.mutex, hs.sem.names⟩ hp
  · intro q hq
    refine ⟨?_, Function.update_of_ne hq _ _⟩
    show View.mk (s.held q) (Function.update s.blocked p b q) = s.view q
    rw [Function.update_of_ne hq, view]
  · show CodeOk p ⟨s.held p, Function.update s.blocked p b p⟩ (Function.update s.code p code p)
    rw [Function.update_self, Function.update_self]
    exact hcode

theorem Orderly.setHeld (hs : s.Orderly) {p : Tid} {code : List Instr} {held : List Lock}
    {kernel : Kernel} {owner : Mtx → Option Tid} (hcode : CodeOk p ⟨held, s.blocked p⟩ code)
    (howner : ∀ m q, owner m = some q ↔ .mtx m ∈ Function.update s.held p held q)
    (hmutex : SysVSem.Mutex kernel fun q => .sem ∈ Function.update s.held p held q)
    (hnames : Names (some s.semId) kernel) (hp : s.Executes p) :
    Orderly { (s.setCode p code).setHeld p held with kernel := kernel, owner := owner } := by
  refine hs.move p ?_ rfl ?_ howner ⟨hmutex, hnames⟩ hp
  · intro q hq
    refine ⟨?_, Function.update_of_ne hq _ _⟩
    show View.mk (Function.update s.held p held q) (s.blocked q) = s.view q
    rw [Function.update_of_ne hq, view]
  · show CodeOk p ⟨Function.update s.held p held p, s.blocked p⟩ (Function.update s.code p code p)
    rw [Function.update_self, Function.update_self]
    exact hcode

/-! ### Lock operations -/

/-- Another lock than `l` is held as before when `l` is taken or given back. -/
theorem mem_update_cons {p q : Tid} {l l' : Lock} (h : l' ≠ l) :
    l' ∈ Function.update s.held p (l :: s.held p) q ↔ l' ∈ s.held q := by
  by_cases hq : q = p
  · subst hq
    rw [Function.update_self, List.mem_cons]
    exact or_iff_right h
  · rw [Function.update_of_ne hq]

theorem mem_update_erase {p q : Tid} {l l' : Lock} (h : l' ≠ l) :
    l' ∈ Function.update s.held p ((s.held p).erase l) q ↔ l' ∈ s.held q := by
  by_cases hq : q = p
  · subst hq
    rw [Function.update_self, List.mem_erase_of_ne h]
  · rw [Function.update_of_ne hq]

theorem Orderly.mutex_of_mem (hs : s.Orderly) {held : Tid → List Lock}
    (h : ∀ q, .sem ∈ held q → .sem ∈ s.held q) :
    SysVSem.Mutex s.kernel fun q => .sem ∈ held q :=
  hs.sem.mutex.leave h

theorem owner_lock (hs : s.Orderly) {p : Tid} {m : Mtx} (hfree : s.owner m = none) (m' : Mtx)
    (q : Tid) : Function.update s.owner m (some p) m' = some q ↔
      .mtx m' ∈ Function.update s.held p (.mtx m :: s.held p) q := by
  by_cases hm : m' = m
  · subst hm
    rw [Function.update_self]
    by_cases hq : q = p
    · subst hq
      rw [Function.update_self]
      exact iff_of_true rfl List.mem_cons_self
    · rw [Function.update_of_ne hq, ← hs.owner, hfree]
      exact iff_of_false (fun h => hq (Option.some.inj h).symm) (by simp)
  · rw [Function.update_of_ne hm, mem_update_cons fun h => hm (Lock.mtx.inj h)]
    exact hs.owner m' q

theorem owner_unlock (hs : s.Orderly) {p : Tid} {m : Mtx} (hheld : .mtx m ∈ s.held p) (m' : Mtx)
    (q : Tid) : Function.update s.owner m none m' = some q ↔
      .mtx m' ∈ Function.update s.held p ((s.held p).erase (.mtx m)) q := by
  by_cases hm : m' = m
  · subst hm
    rw [Function.update_self]
    refine iff_of_false (by simp) ?_
    by_cases hq : q = p
    · subst hq
      rw [Function.update_self]
      exact (hs.code q).nodup.not_mem_erase
    · rw [Function.update_of_ne hq, ← hs.owner, (hs.owner m' p).mpr hheld]
      exact fun h => hq (Option.some.inj h).symm
  · rw [Function.update_of_ne hm, mem_update_erase fun h => hm (Lock.mtx.inj h)]
    exact hs.owner m' q

/-! ### Steps in a function of `irthread.c` -/

theorem Orderly.stepThread {w : Worker} {u : ThreadSys AlrmState} {code : Tid → List Instr}
    (hs : s.Orderly) (hcode : ∀ q, CodeOk q (s.view q) (code q)) (howner : u.Owner)
    (hcallers : ∀ j, j ≠ 0 → u.calls j = .idle)
    (hcall : u.calls 0 ≠ .idle → s.blocked .main = true ∧
      (∀ l ∈ s.held .main, l.rank < (Lock.mtxBsy w).rank) ∧
      ∀ w', w' ≠ w → (s.thread w').calls 0 = .idle)
    (hself : ∀ data p, u.worker = .callback data (some p) →
      ∀ l ∈ s.held (.worker w), l.rank < (Lock.mtxBsy w).rank)
    (hout : (¬ ∃ data self, u.worker = .callback data self) → code (.worker w) = [])
    (hsame : ∀ w', w' ≠ w → code (.worker w') = s.code (.worker w')) :
    Orderly { s with code := code, thread := Function.update s.thread w u } := by
  have hthreads : ∀ P : Worker → ThreadSys AlrmState → Prop,
      P w u → (∀ w', w' ≠ w → P w' (s.thread w')) → ∀ w', P w' (Function.update s.thread w u w') :=
    fun P hu hothers => (Function.forall_update_iff s.thread P).mpr ⟨hu, hothers⟩
  refine ⟨hcode, hs.owner, ⟨hs.sem.mutex, hs.sem.names⟩, ?_, ?_, ?_, ?_, ?_⟩
  · exact hthreads (fun _ u => u.Owner) howner fun w' _ => hs.bsy w'
  · exact hthreads (fun _ u => ∀ j, j ≠ 0 → u.calls j = .idle) hcallers fun w' _ => hs.callers w'
  · refine hthreads (fun w' u' => u'.calls 0 ≠ .idle → s.blocked .main = true ∧
      (∀ l ∈ s.held .main, l.rank < (Lock.mtxBsy w').rank) ∧
      ∀ w'', w'' ≠ w' → (Function.update s.thread w u w'').calls 0 = .idle) ?_ ?_
    · intro hbusy
      obtain ⟨hblocked, hrank, hothers⟩ := hcall hbusy
      refine ⟨hblocked, hrank, ?_⟩
      exact hthreads (fun w'' u => w'' ≠ w → u.calls 0 = .idle) (fun h => absurd rfl h)
        fun w'' _ => hothers w''
    · intro w' hw' hbusy
      obtain ⟨hblocked, hrank, hothers⟩ := hs.call w' hbusy
      refine ⟨hblocked, hrank, ?_⟩
      refine hthreads (fun w'' u => w'' ≠ w' → u.calls 0 = .idle) ?_ fun w'' _ => hothers w''
      intro _
      by_contra hu
      exact hbusy ((hcall hu).2.2 w' hw')
  · exact hthreads (fun w' u => ∀ data p, u.worker = .callback data (some p) →
      ∀ l ∈ s.held (.worker w'), l.rank < (Lock.mtxBsy w').rank) hself fun w' _ => hs.self w'
  · refine hthreads (fun w' u => (¬ ∃ data self, u.worker = .callback data self) →
      code (.worker w') = []) hout ?_
    intro w' hw' hnot
    rw [hsame w' hw']
    exact hs.outside w' hnot

theorem Orderly.codeOk_update (hs : s.Orderly) {p : Tid} {code : List Instr}
    (hcode : CodeOk p (s.view p) code) :
    ∀ q, CodeOk q (s.view q) (Function.update s.code p code q) :=
  (Function.forall_update_iff s.code fun q c => CodeOk q (s.view q) c).mpr
    ⟨hcode, fun q _ => hs.code q⟩

theorem orderly_call {t : LockSys} {w : Worker} (hs : s.Orderly)
    (hbusy : (s.thread w).calls 0 ≠ .idle) (h : s.stepThread w (.call 0) = some t) :
    t.Orderly := by
  obtain ⟨u, hu, rfl⟩ := Option.map_eq_some_iff.mp h
  have howner := owner_step (hs.bsy w) hu
  obtain ⟨hcalls, hsignal, -⟩ := callStep_cases hu
  have hworker : u.worker = (s.thread w).worker ∨
      u.worker = .wakeup ∧ (s.thread w).worker = .waiting := by
    rcases hsignal with hsame | ⟨hsignal, -⟩
    · exact Or.inl hsame
    · rcases condSignal_worker (s.thread w) with ⟨hwake, hw⟩ | ⟨hsame, -⟩
      · exact Or.inr ⟨hsignal.trans hwake, hw⟩
      · exact Or.inl (hsignal.trans hsame)
  refine @Orderly.stepThread s w u s.code hs hs.code howner ?_ (fun _ => hs.call w hbusy) ?_ ?_
    (fun _ _ => rfl)
  · intro j hj
    rw [hcalls j hj]
    exact hs.callers w j hj
  · intro data p hp
    rcases hworker with hsame | ⟨hwake, -⟩
    · exact hs.self w data p (hsame ▸ hp)
    · cases hwake.symm.trans hp
  · intro hout
    refine hs.outside w ?_
    intro hex
    obtain ⟨data, self, hin⟩ := hex
    rcases hworker with hsame | ⟨-, hw⟩
    · exact hout ⟨data, self, hsame.trans hin⟩
    · cases hw.symm.trans hin

theorem orderly_enter {t : LockSys} {w : Worker} {i : Instr} {rest : List Instr}
    {a : ThreadSys.Act AlrmState} {c : Call AlrmState} (hs : s.Orderly)
    (hcode : s.code .main = i :: rest) (hop : i.op = .visit [.mtxBsy w])
    (hidle : ∀ w, (s.thread w).calls 0 = .idle) (ha : (s.thread w).step a = (s.thread w).enter 0 c)
    (h : (s.setCode .main rest).stepThread w a = some t) : t.Orderly := by
  obtain ⟨u, hu, rfl⟩ := Option.map_eq_some_iff.mp h
  have howner : u.Owner := owner_step (hs.bsy w) hu
  have hrest := (hcode ▸ hs.code .main).next
  have hok := (hcode ▸ hs.code .main).ok
  rw [hop] at hrest hok
  obtain ⟨hmasked, hrank⟩ := hok (.mtxBsy w) List.mem_cons_self
  obtain ⟨-, rfl⟩ := enter_cases (ha.symm.trans hu)
  refine @Orderly.stepThread s w _ _ hs (hs.codeOk_update hrest) howner ?_
    (fun _ => ⟨hmasked, hrank, fun w' _ => hidle w'⟩) (hs.self w) ?_ ?_
  · intro j hj
    rw [setCall_calls_of_ne _ _ _ hj]
    exact hs.callers w j hj
  · intro hout
    rw [setCode_code_of_ne s rest (by simp)]
    exact hs.outside w hout
  · intro w' _
    exact setCode_code_of_ne s rest (by simp)

/-- A worker comes into its callback, and out of it, by other steps than those inside. -/
theorem workerStep_callback {u v : ThreadSys AlrmState} (h : ThreadSys.workerStep u = some v) :
    (∀ data p, v.worker = .callback data (some p) → ∃ p', u.worker = .callback data (some p')) ∧
      ∀ data p, u.worker = .callback data (some p) → ∃ self, v.worker = .callback data self := by
  cases workerStepTo_of_step h with
  | suspend data p r hw =>
    refine ⟨?_, ?_⟩
    · intro data' p' hp'
      obtain ⟨rfl, -⟩ := WorkerPc.callback.inj hp'
      exact ⟨p, hw⟩
    · intro data' p' hp'
      obtain ⟨rfl, -⟩ := WorkerPc.callback.inj (hw.symm.trans hp')
      exact ⟨r.2, rfl⟩
  | actvTest hw | ends hw | testcancel hw | cancels hw | disable hw | enable hw =>
    exact ⟨(by simp), fun data p hp => by cases hw.symm.trans hp⟩
  | lock hw | suspended hw | runs hw | condWait hw | wakeup hw | sample hw =>
    exact ⟨(by simp), fun data p hp => by cases hw.symm.trans hp⟩
  | unlock data hw | calls data hw | skips data hw =>
    exact ⟨(by simp), fun data p hp => by cases hw.symm.trans hp⟩

/-- A step of a worker in its loop, or in the `irthread_suspend` of its callback. -/
theorem orderly_worker {t : LockSys} {w : Worker} (hs : s.Orderly)
    (hnone : ∀ data, (s.thread w).worker ≠ .callback data none)
    (h : s.stepThread w .worker = some t) : t.Orderly := by
  obtain ⟨u, hu, rfl⟩ := Option.map_eq_some_iff.mp h
  have howner := owner_step (hs.bsy w) hu
  have hcalls := (workerStep_cases hu).1
  obtain ⟨hback, hforth⟩ := workerStep_callback hu
  refine @Orderly.stepThread s w u s.code hs hs.code howner ?_ ?_ ?_ ?_ (fun _ _ => rfl)
  · rw [hcalls]
    exact hs.callers w
  · rw [hcalls]
    exact hs.call w
  · intro data p hp
    obtain ⟨p', hp'⟩ := hback data p hp
    exact hs.self w data p' hp'
  · intro hout
    refine hs.outside w ?_
    intro hex
    obtain ⟨data, self, hin⟩ := hex
    cases self with
    | none => exact hnone data hin
    | some p =>
      obtain ⟨self', hin'⟩ := hforth data p hin
      exact hout ⟨data, self', hin'⟩

theorem orderly_spurious {t : LockSys} {w : Worker} (hs : s.Orderly)
    (h : s.stepThread w .spurious = some t) : t.Orderly := by
  obtain ⟨u, hu, rfl⟩ := Option.map_eq_some_iff.mp h
  have howner := owner_step (hs.bsy w) hu
  rw [ThreadSys.step] at hu
  split at hu
  next hw =>
    obtain rfl := Option.some.inj hu
    refine @Orderly.stepThread s w _ s.code hs hs.code howner (hs.callers w) (hs.call w)
      (by simp) ?_ (fun _ _ => rfl)
    intro _
    refine hs.outside w ?_
    intro hex
    obtain ⟨data, self, hin⟩ := hex
    cases hw.symm.trans hin
  next => cases hu

theorem orderly_callbackSuspend {t : LockSys} {w : Worker} {rest : List Instr} (hs : s.Orderly)
    (hcode : s.code (.worker w) = .suspend w :: rest)
    (h : (s.setCode (.worker w) rest).stepThread w .callbackSuspend = some t) : t.Orderly := by
  obtain ⟨u, hu, rfl⟩ := Option.map_eq_some_iff.mp h
  have howner : u.Owner := owner_step (hs.bsy w) hu
  have hrest := (hcode ▸ hs.code (.worker w)).next
  have hok := (hcode ▸ hs.code (.worker w)).ok
  have hrank := (hok (.mtxBsy w) List.mem_cons_self).2
  rw [ThreadSys.step] at hu
  split at hu
  next data hw =>
    obtain rfl := Option.some.inj hu
    refine @Orderly.stepThread s w _ _ hs (hs.codeOk_update hrest) howner (hs.callers w)
      (hs.call w) (fun _ _ _ => hrank) (fun hout => absurd ⟨data, _, rfl⟩ hout) ?_
    exact fun w' hw' => setCode_code_of_ne s rest fun h => hw' (Tid.worker.inj h)
  next => cases hu

theorem orderly_callbackReturn {t : LockSys} {w : Worker} {rest : List Instr} (hs : s.Orderly)
    (hcode : s.code (.worker w) = .callbackReturn :: rest)
    (h : (s.setCode (.worker w) rest).stepThread w .callbackReturn = some t) : t.Orderly := by
  obtain ⟨u, hu, rfl⟩ := Option.map_eq_some_iff.mp h
  have howner : u.Owner := owner_step (hs.bsy w) hu
  have hrest := (hcode ▸ hs.code (.worker w)).next
  have hlast := (hcode ▸ hs.code (.worker w)).last
  have hnil : rest = [] := by
    cases rest with
    | nil => rfl
    | cons j rest => exact absurd List.mem_cons_self hlast
  rw [ThreadSys.step] at hu
  split at hu
  next data hw =>
    obtain rfl := Option.some.inj hu
    refine @Orderly.stepThread s w _ _ hs (hs.codeOk_update hrest) howner (hs.callers w)
      (hs.call w) (by simp) ?_ ?_
    · intro _
      rw [setCode_code_self]
      exact hnil
    · exact fun w' hw' => setCode_code_of_ne s rest fun h => hw' (Tid.worker.inj h)
  next => cases hu

/-! ### Steps of the code -/

section Code

variable {M : Nat} {doXmpp : Bool} {now : Int} {p : Tid} {t : LockSys}

theorem orderly_acquire {rest : List Instr} (hs : s.Orderly) (hcode : s.code p = .acquire :: rest)
    (hp : s.Executes p) (h : exec M doXmpp s p now rest .acquire = some t) : t.Orderly := by
  obtain ⟨⟨ok, k⟩, hr, rfl⟩ := Option.map_eq_some_iff.mp h
  have hrest := (hcode ▸ hs.code p).next
  refine @Orderly.setHeld s hs p rest _ k s.owner hrest ?_ ?_ ?_ hp
  · intro m q
    rw [mem_update_cons (by simp)]
    exact hs.owner m q
  · refine hs.sem.mutex.acquire p hs.sem.names hr ?_
    intro q hq
    by_cases hqp : q = p
    · exact Or.inl hqp
    · rw [Function.update_of_ne hqp] at hq
      exact Or.inr hq
  · exact hs.sem.names.acquire hr

theorem orderly_release {rest : List Instr} (hs : s.Orderly) (hcode : s.code p = .release :: rest)
    (hp : s.Executes p) (h : exec M doXmpp s p now rest .release = some t) : t.Orderly := by
  obtain rfl := Option.some.inj h
  have hheld : .sem ∈ s.held p := (hcode ▸ hs.code p).ok
  have hrest := (hcode ▸ hs.code p).next
  refine @Orderly.setHeld s hs p rest _ _ s.owner hrest ?_ ?_ ?_ hp
  · intro m q
    rw [mem_update_erase (by simp)]
    exact hs.owner m q
  · refine hs.sem.mutex.release hheld ?_
    intro q hq
    by_cases hqp : q = p
    · subst hqp
      rw [Function.update_self] at hq
      exact absurd hq (hs.code q).nodup.not_mem_erase
    · rw [Function.update_of_ne hqp] at hq
      exact ⟨hqp, hq⟩
  · exact hs.sem.names.release

theorem orderly_lock {m : Mtx} {rest : List Instr} (hs : s.Orderly)
    (hcode : s.code p = .lock m :: rest) (hp : s.Executes p)
    (h : exec M doXmpp s p now rest (.lock m) = some t) : t.Orderly := by
  have hrest := (hcode ▸ hs.code p).next
  rw [exec] at h
  split at h
  next hfree =>
    obtain rfl := Option.some.inj h
    refine @Orderly.setHeld s hs p rest _ s.kernel _ hrest (owner_lock hs hfree) ?_ hs.sem.names
      hp
    exact hs.mutex_of_mem fun q hq => (mem_update_cons (by simp)).mp hq
  next => cases h

theorem orderly_unlock {m : Mtx} {rest : List Instr} (hs : s.Orderly)
    (hcode : s.code p = .unlock m :: rest) (hp : s.Executes p)
    (h : exec M doXmpp s p now rest (.unlock m) = some t) : t.Orderly := by
  obtain rfl := Option.some.inj h
  have hheld : .mtx m ∈ s.held p := (hcode ▸ hs.code p).ok
  have hrest := (hcode ▸ hs.code p).next
  refine @Orderly.setHeld s hs p rest _ s.kernel _ hrest (owner_unlock hs hheld) ?_ hs.sem.names
    hp
  exact hs.mutex_of_mem fun q hq => (mem_update_erase (by simp)).mp hq

/-- **One instruction.** -/
theorem orderly_exec {i : Instr} {rest : List Instr} (hs : s.Orderly) (hcode : s.code p = i :: rest)
    (hp : s.Executes p) (h : exec M doXmpp s p now rest i = some t) : t.Orderly := by
  have hrest := (hcode ▸ hs.code p).next
  cases i with
  | sigBlock =>
    obtain rfl := Option.some.inj h
    exact @Orderly.setBlocked s hs p rest true s.pending hrest hp
  | sigUnblock | sigreturn =>
    obtain rfl := Option.some.inj h
    exact @Orderly.setBlocked s hs p rest false s.pending hrest hp
  | acquire => exact orderly_acquire hs hcode hp h
  | release => exact orderly_release hs hcode hp h
  | lock m => exact orderly_lock hs hcode hp h
  | unlock m => exact orderly_unlock hs hcode hp h
  | suspend w =>
    rw [exec] at h
    split at h
    next hmain =>
      subst hmain
      exact orderly_enter hs hcode rfl (hp.main rfl) rfl h
    next =>
      split at h
      next hworker =>
        subst hworker
        exact orderly_callbackSuspend hs hcode h
      next => cases h
  | event e =>
    cases e with
    | doAlarmAction r | undoAlarmAction r =>
      obtain rfl := Option.some.inj h
      exact @Orderly.setCode s hs p rest s.vars hrest hp
    | setdata w data | resume w =>
      rw [exec] at h
      split at h
      next hmain =>
        subst hmain
        exact orderly_enter hs hcode rfl (hp.main rfl) rfl h
      next => cases h
  | work k =>
    obtain rfl := Option.some.inj h
    exact hs.setCode (hcode ▸ hs.code p).work hp
  | callbackReturn =>
    cases p with
    | worker w => exact orderly_callbackReturn hs hcode h
    | main | flank | xmpp => cases h

theorem orderly_codeStep {again : List Instr} (hs : s.Orderly) (hagain : CodeOk p ⟨[], true⟩ again)
    (hp : s.Executes p) (h : codeStep M doXmpp s p now again = some t) : t.Orderly := by
  rw [codeStep] at h
  split at h
  next hnil =>
    obtain rfl := Option.some.inj h
    refine @Orderly.setCode s hs p again s.vars ?_ hp
    rw [hs.view_of_nil hnil]
    exact hagain
  next i rest hcode => exact orderly_exec hs hcode hp h

end Code

theorem Orderly.environment (hs : s.Orderly) (pending : Bool) (vars : LockVars) :
    Orderly { s with pending := pending, vars := vars } where
  code := hs.code
  owner := hs.owner
  sem := ⟨hs.sem.mutex, hs.sem.names⟩
  bsy := hs.bsy
  callers := hs.callers
  call := hs.call
  self := hs.self
  outside := hs.outside

theorem Orderly.eq_main_of_open (hs : s.Orderly) {p : Tid} (hopen : s.blocked p = false) :
    p = .main ∧ s.held p = [] ∧ ∀ w, (s.thread w).calls 0 = .idle := by
  have hp : p = .main := by
    by_contra hp
    have hmasked : s.blocked p = true := ((hs.code p).masked hp).1
    rw [hopen] at hmasked
    cases hmasked
  subst hp
  refine ⟨rfl, (hs.code .main).checked.held_eq_nil hopen, ?_⟩
  intro w
  by_contra hbusy
  have hblocked := (hs.call w hbusy).1
  rw [hopen] at hblocked
  cases hblocked

theorem orderly_deliver {p : Tid} {t : LockSys} (hs : s.Orderly) (h : s.deliver p = some t) :
    t.Orderly := by
  rw [deliver] at h
  split at h
  next hopen =>
    obtain rfl := Option.some.inj h
    obtain ⟨rfl, -, hidle⟩ := hs.eq_main_of_open hopen.2
    exact hs.setBlocked ((hs.code .main).handler hopen.2) ⟨fun _ => hidle, (by simp)⟩
  next => cases h

theorem calls_of_inCall_none (h : s.inCall = none) (w : Worker) :
    (s.thread w).calls 0 = .idle := by
  by_cases halarm : (s.thread .alarm).calls 0 = .idle
  · by_cases hstatus : (s.thread .status).calls 0 = .idle
    · cases w with
      | alarm => exact halarm
      | status => exact hstatus
    · simp [inCall, halarm, hstatus] at h
  · simp [inCall, halarm] at h

theorem calls_of_inCall_some {w : Worker} (h : s.inCall = some w) :
    (s.thread w).calls 0 ≠ .idle := by
  rw [inCall] at h
  split at h
  next hbusy =>
    obtain rfl := Option.some.inj h
    exact hbusy
  next =>
    split at h
    next hbusy =>
      obtain rfl := Option.some.inj h
      exact hbusy
    next => cases h

theorem orderly_step {M : Nat} {doXmpp : Bool} {a : Act} {t : LockSys} (hs : s.Orderly)
    (h : step M doXmpp s a = some t) : t.Orderly := by
  cases a with
  | main now =>
    rw [step, mainStep] at h
    split at h
    next w hcall => exact orderly_call hs (calls_of_inCall_some hcall) h
    next hcall =>
      exact orderly_codeStep hs codeOk_loopCode
        ⟨fun _ => calls_of_inCall_none hcall, (by simp)⟩ h
  | worker w =>
    rw [step, workerStep] at h
    split at h
    next data hw =>
      refine orderly_codeStep hs (codeOk_worker data w) ⟨(by simp), ?_⟩ h
      intro w' hw'
      obtain rfl := Tid.worker.inj hw'
      exact ⟨data, hw⟩
    next hw => exact orderly_worker hs hw h
  | spurious w => exact orderly_spurious hs h
  | flank => exact orderly_codeStep hs codeOk_irFlank ⟨(by simp), (by simp)⟩ h
  | xmpp id => exact orderly_codeStep hs (codeOk_callback id) ⟨(by simp), (by simp)⟩ h
  | kill =>
    obtain rfl := Option.some.inj h
    exact hs.environment true s.vars
  | deliver p => exact orderly_deliver hs h
  | edit seg =>
    obtain rfl := Option.some.inj h
    exact hs.environment s.pending _

theorem orderly_of_started (h : s.Started) : s.Orderly where
  code p := by
    have hview : s.view p = ⟨[], true⟩ := by rw [view, h.held, h.blocked]
    rw [hview]
    by_cases hp : p = .main
    · subst hp
      rw [h.main]
      refine ⟨?_, List.nodup_nil, fun hp => absurd rfl hp, by decide⟩
      simp [Instr.op, Checked, Follows, Op.Ok, Op.after]
    · rw [h.code p hp]
      exact ⟨checked_nil.mpr rfl, List.nodup_nil, fun _ => ⟨rfl, by simp⟩, by simp⟩
  owner m p := by
    rw [h.owner, h.held]
    exact iff_of_false (by simp) (List.not_mem_nil)
  sem := by
    obtain ⟨pid, hkernel⟩ := h.kernel
    refine ⟨?_, ?_⟩
    · refine ⟨?_, ?_, ?_⟩
      · intro set hset
        obtain rfl := Option.some.inj (hkernel.symm.trans hset)
        exact Nat.le_refl 1
      · intro set _ _ p hp
        rw [h.held] at hp
        cases hp
      · intro p q hp
        rw [h.held] at hp
        cases hp
    · exact ⟨_, hkernel, rfl⟩
  bsy w := by
    rw [h.thread]
    exact mtxBsy_owner (.start rfl)
  callers w j _ := by
    rw [h.thread]
    rfl
  call w hbusy := by
    rw [h.thread] at hbusy
    exact absurd rfl hbusy
  self w data p hp := by
    rw [h.thread] at hp
    cases hp
  outside w _ := h.code (.worker w) (by simp)

theorem orderly_of_reach {M : Nat} {doXmpp : Bool} {ok : LockSys → Act → Prop}
    (hs : Reach (step M doXmpp) ok Started s) : s.Orderly := by
  apply hs.invariant
  · exact fun _ h => orderly_of_started h
  · exact fun _ _ _ hs _ h => orderly_step hs h

end Step

end LockSys

end Raspberries.IrAlarm
