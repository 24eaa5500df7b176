import Raspberries.IrAlarm.LockDiscipline

/-!
# No deadlock

A thread that waits for a lock that is held makes no step (`waits_blocked`).  It holds only
locks that come earlier in the order, so threads do not wait for each other in a circle;
and a SIGHUP is handled by the main thread only, which unblocks it where it holds nothing
(`no_deadlock`).
-/

namespace Raspberries.IrAlarm

open LockOrder SysVSem Transition

namespace LockSys

open ThreadSys

section Step

variable {s : LockSys}

/-! ### Who waits for whom -/

/-- A lock that is held is one of `held`, or a party of the thread is inside. -/
theorem Orderly.holds_cases (hs : s.Orderly) {p : Tid} {l : Lock} (h : s.Holds p l) :
    l ∈ s.held p ∨ ∃ w q, l = .mtxBsy w ∧ (s.thread w).holds q = true ∧ tid w q = p := by
  cases l with
  | sem => exact Or.inl h
  | mtx m => exact Or.inl ((hs.owner m p).mp h)
  | mtxBsy w =>
    obtain ⟨q, hq, htid⟩ := h
    exact Or.inr ⟨w, q, rfl, (hs.bsy w q).mp hq, htid⟩

theorem Orderly.calls_holds (hs : s.Orderly) {w : Worker} {q : Party} (htid : tid w q = .main)
    (hq : (s.thread w).holds q = true) : ((s.thread w).calls 0).holds = true := by
  cases q with
  | worker => cases htid
  | caller j =>
    by_cases hj : j = 0
    · subst hj
      exact hq
    · rw [holds, hs.callers w j hj] at hq
      cases hq

theorem Orderly.rank_of_nextLock (hs : s.Orderly) {p : Tid} {l l' : Lock}
    (hw : nextLock (s.code p) = some l) (hl' : l' ∈ s.held p) : l'.rank < l.rank := by
  have hcode := hs.code p
  rw [nextLock.eq_def] at hw
  split at hw
  next rest heq =>
    obtain rfl := Option.some.inj hw
    rw [heq] at hcode
    exact hcode.ok l' hl'
  next m rest heq =>
    obtain rfl := Option.some.inj hw
    rw [heq] at hcode
    exact hcode.ok l' hl'
  next => cases hw

theorem callWaits_holds {c : Call AlrmState} (h : callWaits c = true) : c.holds = false := by
  rw [callWaits.eq_def] at h
  split at h
  case h_1 | h_2 | h_3 => rfl
  case h_4 => cases h

theorem workerWaits_holds {pc : WorkerPc AlrmState} (h : workerWaits pc = true) :
    pc.holds = false := by
  rw [workerWaits.eq_def] at h
  split at h
  case h_1 | h_2 | h_3 => rfl
  case h_4 => cases h

/-- The main thread waits in a call, of which it makes one at a time, or in its own code. -/
theorem Orderly.rank_of_waits_main (hs : s.Orderly) {l l' : Lock} (hw : s.waits .main = some l)
    (hh : s.Holds .main l') : l'.rank < l.rank := by
  have hheld := hs.holds_cases hh
  rw [waits] at hw
  split at hw
  next w hcall =>
    obtain ⟨-, hrank, hothers⟩ := hs.call w (calls_of_inCall_some hcall)
    split at hw
    next hwaits =>
      obtain rfl := Option.some.inj hw
      rcases hheld with hmem | ⟨w', q, rfl, hq, htid⟩
      · exact hrank l' hmem
      · -- it is inside of no call
        have hin := hs.calls_holds htid hq
        by_cases hw' : w' = w
        · subst hw'
          rw [callWaits_holds hwaits] at hin
          cases hin
        · rw [hothers w' hw'] at hin
          cases hin
    next => cases hw
  next hcall =>
    rcases hheld with hmem | ⟨w', q, rfl, hq, htid⟩
    · exact hs.rank_of_nextLock hw hmem
    · have hin := hs.calls_holds htid hq
      rw [calls_of_inCall_none hcall] at hin
      cases hin

/-- A worker that does not run the code of its callback has only `mtx_bsy` locked, if any. -/
theorem Orderly.rank_of_held_worker (hs : s.Orderly) {w : Worker} {l : Lock}
    (hpc : ∀ data, (s.thread w).worker ≠ .callback data none) (hl : l ∈ s.held (.worker w)) :
    l.rank < (Lock.mtxBsy w).rank := by
  by_cases hin : s.InCallback w
  · obtain ⟨data, self, hself⟩ := hin
    cases self with
    | none => exact absurd hself (hpc data)
    | some p => exact hs.self w data p hself l hl
  · have hheld : s.held (.worker w) = [] := congrArg View.held (hs.view_of_nil (hs.outside w hin))
    rw [hheld] at hl
    cases hl

/-- A worker waits for its `mtx_bsy`, or in its callback for the mutex of that. -/
theorem Orderly.rank_of_waits_worker (hs : s.Orderly) {w : Worker} {l l' : Lock}
    (hw : s.waits (.worker w) = some l) (hh : s.Holds (.worker w) l') : l'.rank < l.rank := by
  have hheld : l' ∈ s.held (.worker w) ∨ (s.thread w).worker.holds = true := by
    rcases hs.holds_cases hh with hmem | ⟨w', q, rfl, hq, htid⟩
    · exact Or.inl hmem
    · cases q with
      | worker =>
        obtain rfl := Tid.worker.inj htid
        exact Or.inr hq
      | caller j => cases htid
  rw [waits] at hw
  split at hw
  next data hpc =>
    cases hheld with
    | inl hmem => exact hs.rank_of_nextLock hw hmem
    | inr hin =>
      rw [hpc] at hin
      cases hin
  next pc hpc =>
    split at hw
    next hwaits =>
      obtain rfl := Option.some.inj hw
      cases hheld with
      | inl hmem => exact hs.rank_of_held_worker hpc hmem
      | inr hin =>
        rw [workerWaits_holds hwaits] at hin
        cases hin
    next => cases hw

/-- **Whoever waits holds only locks that come earlier in the order.** -/
theorem Orderly.inOrder (hs : s.Orderly) :
    InOrder Lock.rank (fun p l => s.waits p = some l) s.Holds := by
  intro p l l' hw hh
  cases p with
  | main => exact hs.rank_of_waits_main hw hh
  | worker w => exact hs.rank_of_waits_worker hw hh
  | flank | xmpp =>
    rcases hs.holds_cases hh with hmem | ⟨w', q, rfl, hq, htid⟩
    · exact hs.rank_of_nextLock hw hmem
    · cases q <;> cases htid

/-! ### Waiting is blocking -/

theorem Orderly.acquire_eq_none (hs : s.Orderly) {q : Tid} (hq : .sem ∈ s.held q) (me : Nat) :
    SysVSem.acquire (some s.semId) me s.kernel = none := by
  obtain ⟨set, hkernel, hid⟩ := hs.sem.names
  have hle := hs.sem.mutex.le_one set hkernel
  have hne : set.value ≠ 1 := fun h1 => hs.sem.mutex.free set hkernel h1 q hq
  rw [hkernel, SysVSem.acquire, if_pos hid, if_neg (by omega)]

theorem Orderly.codeStep_eq_none (hs : s.Orderly) {p q : Tid} {l : Lock}
    (hw : nextLock (s.code p) = some l) (hh : s.Holds q l) (M : Nat) (doXmpp : Bool) (now : Int)
    (again : List Instr) : codeStep M doXmpp s p now again = none := by
  rw [codeStep]
  rw [nextLock.eq_def] at hw
  split at hw
  next rest heq =>
    obtain rfl := Option.some.inj hw
    simp only [heq, exec, hs.acquire_eq_none hh irdPid, Option.map_none]
  next m rest heq =>
    obtain rfl := Option.some.inj hw
    have howner : s.owner m = some q := hh
    simp [heq, exec, howner]
  next => cases hw

theorem callStep_eq_none {u : ThreadSys AlrmState} (hmtx : u.mtxBsy ≠ none)
    (h : callWaits (u.calls 0) = true) : callStep u 0 = none := by
  rw [callWaits.eq_def] at h
  split at h
  case h_1 hc | h_2 hc | h_3 hc => simp [callStep, hc, suspendStep, hmtx]
  case h_4 => cases h

theorem workerStep_eq_none {u : ThreadSys AlrmState} (hmtx : u.mtxBsy ≠ none)
    (h : workerWaits u.worker = true) : ThreadSys.workerStep u = none := by
  rw [workerWaits.eq_def] at h
  split at h
  case h_1 hc | h_2 hc | h_3 hc => simp [ThreadSys.workerStep, hc, suspendStep, hmtx]
  case h_4 => cases h

/-- **A thread that waits for a lock that is held makes no step.** -/
theorem waits_blocked {p q : Tid} {l : Lock} (hs : s.Orderly) (hw : s.waits p = some l)
    (hh : s.Holds q l) (M : Nat) (doXmpp : Bool) {a : Act} (ha : a.tid = some p) :
    step M doXmpp s a = none := by
  have hbusy : ∀ w, l = .mtxBsy w → (s.thread w).mtxBsy ≠ none := by
    rintro w rfl hnone
    obtain ⟨r, hr, -⟩ := hh
    rw [hnone] at hr
    cases hr
  cases a with
  | main now =>
    obtain rfl := Option.some.inj ha
    rw [waits] at hw
    rw [step, mainStep]
    split at hw
    next w _ =>
      split at hw
      next hwaits =>
        obtain rfl := Option.some.inj hw
        rw [stepThread, ThreadSys.step, callStep_eq_none (hbusy w rfl) hwaits, Option.map_none]
      next => cases hw
    next => exact hs.codeStep_eq_none hw hh M doXmpp now loopCode
  | worker w =>
    obtain rfl := Option.some.inj ha
    rw [waits] at hw
    rw [step, workerStep]
    split at hw
    next => exact hs.codeStep_eq_none hw hh M doXmpp 0 _
    next =>
      split at hw
      next hwaits =>
        obtain rfl := Option.some.inj hw
        rw [stepThread, ThreadSys.step, workerStep_eq_none (hbusy w rfl) hwaits, Option.map_none]
      next => cases hw
  | flank =>
    obtain rfl := Option.some.inj ha
    exact hs.codeStep_eq_none hw hh M doXmpp 0 irFlank
  | xmpp id =>
    obtain rfl := Option.some.inj ha
    exact hs.codeStep_eq_none hw hh M doXmpp 0 _
  | spurious w | kill | deliver p | edit seg => cases ha

end Step

/-! ### Runs -/

/-- **No deadlock.**  No threads wait for each other's locks in a circle, and the SIGHUP
handler starts in the main thread, and only where that holds none of the locks. -/
theorem no_deadlock (M : Nat) (doXmpp : Bool) (s : LockSys)
    (hs : Reach (step M doXmpp) anyStep Started s) :
    (∀ p, ¬ Relation.TransGen s.WaitsFor p p) ∧
      ∀ p t, step M doXmpp s (.deliver p) = some t → p = .main ∧ ∀ l, ¬ s.Holds .main l := by
  have hs := orderly_of_reach hs
  refine ⟨no_circle hs.inOrder, ?_⟩
  intro p t h
  rw [step, deliver] at h
  split at h
  next hopen =>
    obtain ⟨rfl, hheld, hidle⟩ := hs.eq_main_of_open hopen.2
    refine ⟨rfl, ?_⟩
    intro l hl
    rcases hs.holds_cases hl with hmem | ⟨w, q, rfl, hq, htid⟩
    · rw [hheld] at hmem
      cases hmem
    · have hin := hs.calls_holds htid hq
      rw [hidle w] at hin
      cases hin
  next => cases h

def lockStart : LockSys where
  kernel := some ⟨1, 1, irdPid⟩
  semId := 1
  owner := fun _ => none
  thread := fun _ => .initial .none
  code := fun p => if p = .main then [.suspend .alarm] else []
  held := fun _ => []
  blocked := fun _ => true
  pending := false
  vars :=
    { daemon := .initial
      settings := { Settings.initial true with irMinalarm := 0 }
      seg := fun _ => 0
      stats := 0
      pins := fun _ => 0
      statusledOn := 0
      statusledOff := 0
      speaker := 0 }

theorem started_lockStart : Started lockStart where
  kernel := ⟨irdPid, rfl⟩
  owner _ := rfl
  thread _ := rfl
  main := rfl
  code _ hp := if_neg hp
  held _ := rfl
  blocked _ := rfl

/-- The main loop passes on an alarm, while the alarm worker tests `susp`, a flank comes,
and the XMPP thread reports the configuration that the status worker wants to read. -/
def contended : LockSys :=
  (Transition.exec (step (2 ^ 32) true) anyStep lockStart
    (List.flatten [List.replicate 15 (.main 0), List.replicate 4 (.worker .alarm), [.flank],
      List.replicate 2 (.xmpp irxmppConfig), List.replicate 9 (.worker .status)])).get (by decide)

theorem no_deadlock_contended :
    contended.WaitsFor .flank .main ∧ contended.WaitsFor .main (.worker .alarm) ∧
      contended.WaitsFor (.worker .status) .xmpp ∧
      ∀ p, ¬ Relation.TransGen contended.WaitsFor p p := by
  have hreach : Reach (step (2 ^ 32) true) anyStep Started contended :=
    (Reach.start started_lockStart).trans (reach_get lockStart _ _)
  refine ⟨⟨.sem, rfl, ?_⟩, ⟨.mtxBsy .alarm, rfl, .worker, rfl, rfl⟩,
    ⟨.mtx .status, rfl, rfl⟩, (no_deadlock (2 ^ 32) true contended hreach).1⟩
  show Lock.sem ∈ contended.held .main
  decide

end LockSys

end Raspberries.IrAlarm
