import Raspberries.IrAlarm.ConfigReport
import Raspberries.IrAlarm.LockSys

/-!
# No answer is half of a reload

`LockSys` does a reload and an answer in one step each.  Here the SIGHUP handler loads one
object after the other while `iralarmctl` may edit them, and the XMPP thread reads one variable
after the other for its CONFIG answer; in which order, C does not say.  Both hold `mtx_status`
and `mtx_alarm`, which the workers lock for their copies.

`foldl_load` says that without an edit among them the loads are `reload`.
`config_snapshot` says that every answer shows the variables as one reload has left them,
namely the last one that was complete when the answer was sent.
-/

namespace Raspberries.IrAlarm

open Transition Bytes

/-- How far the handler is: not called, before each of its steps, with the objects that are
still to be loaded. -/
inductive ReloadPc
  | idle
  | lockStatus
  | lockAlarm
  | load (ids : List Nat)
  | unlockAlarm
  | unlockStatus
  deriving DecidableEq, Repr

/-- How far `irxmpp_thrd_callback` is, with the variables that are still to be read and the
arguments of `asprintf` for the others. -/
inductive ConfigPc
  | idle
  | lockStatus
  | lockAlarm
  | read (ids : List Nat) (args : Settings)
  | unlockStatus
  | unlockAlarm
  deriving DecidableEq, Repr

def ReloadPc.Holds : ReloadPc → Mtx → Prop
  | .idle, _ | .lockStatus, _ => False
  | .lockAlarm, m | .unlockStatus, m => m = .status
  | .load _, _ | .unlockAlarm, _ => True

def ConfigPc.Holds : ConfigPc → Mtx → Prop
  | .idle, _ | .lockStatus, _ => False
  | .lockAlarm, m => m = .status
  | .unlockAlarm, m => m = .alarm
  | .read _ _, _ | .unlockStatus, _ => True

def Worker.mtx : Worker → Mtx
  | .status => .status
  | .alarm => .alarm

/-- The variable of an object, taken over from `d`. -/
def Settings.copy (c d : Settings) : Nat → Settings
  | 0 => { c with sMainloop := d.sMainloop }
  | 1 => { c with sAactive := d.sAactive }
  | 2 => { c with sSpeaker := d.sSpeaker }
  | 3 => { c with sXmpp := d.sXmpp }
  | 4 => { c with sVideo := d.sVideo }
  | 5 => { c with sStatusledOn := d.sStatusledOn }
  | 6 => { c with sStatusledOff := d.sStatusledOff }
  | 7 => { c with irMinrecvd := d.irMinrecvd }
  | 8 => { c with irMinalarm := d.irMinalarm }
  | 9 => { c with irRstalarm := d.irRstalarm }
  | _ => c

/-- `history` is what the reloads have left, the last one first and the start values last;
`sent` are the answers, the last one first, each with the number of reloads that were
complete. -/
structure SnapSys where
  settings : Settings
  seg : Memory
  owner : Mtx → Option Tid
  handler : ReloadPc
  xmpp : ConfigPc
  history : List Settings
  sent : List (Nat × List Char)

namespace SnapSys

def initial (c : Settings) (seg : Memory) : SnapSys :=
  ⟨c, seg, fun _ => none, .idle, .idle, [c], []⟩

def lock (s : SnapSys) (m : Mtx) (p : Tid) : Option SnapSys :=
  if s.owner m = none then some { s with owner := Function.update s.owner m (some p) } else none

def unlock (s : SnapSys) (m : Mtx) : SnapSys :=
  { s with owner := Function.update s.owner m none }

def handlerStep (doXmpp : Bool) (s : SnapSys) : Option SnapSys :=
  match s.handler with
  | .idle => some { s with handler := .lockStatus }
  | .lockStatus => (s.lock .status .main).map fun s => { s with handler := .lockAlarm }
  | .lockAlarm =>
    (s.lock .alarm .main).map fun s => { s with handler := .load (reloadedIds doXmpp) }
  | .load (id :: ids) =>
    some { s with settings := s.settings.load id (content s.seg id), handler := .load ids }
  | .load [] => some { s with history := s.settings :: s.history, handler := .unlockAlarm }
  | .unlockAlarm => some { s.unlock .alarm with handler := .unlockStatus }
  | .unlockStatus => some { s.unlock .status with handler := .idle }

/-- The XMPP thread; `id` is the variable it reads next. -/
def xmppStep (s : SnapSys) (id : Nat) : Option SnapSys :=
  match s.xmpp with
  | .idle => some { s with xmpp := .lockStatus }
  | .lockStatus => (s.lock .status .xmpp).map fun s => { s with xmpp := .lockAlarm }
  | .lockAlarm =>
    -- there are no arguments yet
    (s.lock .alarm .xmpp).map fun s =>
      { s with xmpp := .read (List.range shmAlarm) (.initial true) }
  | .read [] args =>
    some { s with
      sent := (s.history.length - 1, configReport args) :: s.sent
      xmpp := .unlockStatus }
  | .read (i :: ids) args =>
    if id ∈ i :: ids then
      some { s with xmpp := .read ((i :: ids).erase id) (args.copy s.settings id) }
    else none
  | .unlockStatus => some { s.unlock .status with xmpp := .unlockAlarm }
  | .unlockAlarm => some { s.unlock .alarm with xmpp := .idle }

def workerStep (s : SnapSys) (w : Worker) : Option SnapSys :=
  if s.owner w.mtx = some (.worker w) then some (s.unlock w.mtx) else s.lock w.mtx (.worker w)

inductive Act
  | handler
  | xmpp (id : Nat)
  | worker (w : Worker)
  | edit (seg : Memory)

def step (doXmpp : Bool) (s : SnapSys) : Act → Option SnapSys
  | .handler => s.handlerStep doXmpp
  | .xmpp id => s.xmppStep id
  | .worker w => s.workerStep w
  | .edit seg => some { s with seg := seg }

/-! ### What the steps are made of -/

section Parts

variable {c d : Settings} {id id' : Nat}

theorem get_copy_self (c d : Settings) (h : id < shmAlarm) : (c.copy d id).get id = d.get id := by
  unfold shmAlarm at h
  interval_cases id <;> rfl

theorem get_copy_of_ne (c d : Settings) (h : id' ≠ id) : (c.copy d id).get id' = c.get id' := by
  unfold Settings.copy
  split <;> first
    | rfl
    | (unfold Settings.get; split <;> first | rfl | exact absurd rfl h)

/-- **Loads without an edit are a reload.** -/
theorem foldl_load (doXmpp : Bool) (seg : Memory) (c : Settings) :
    (reloadedIds doXmpp).foldl (fun c id => c.load id (content seg id)) c =
      reload doXmpp seg c := by
  cases doXmpp <;> rfl

end Parts

inductive StepTo (doXmpp : Bool) (s : SnapSys) : SnapSys → Prop
  | hup (h : s.handler = .idle) : StepTo doXmpp s { s with handler := .lockStatus }
  | hupStatus (h : s.handler = .lockStatus) (hfree : s.owner .status = none) :
      StepTo doXmpp s { s with
        owner := Function.update s.owner .status (some .main), handler := .lockAlarm }
  | hupAlarm (h : s.handler = .lockAlarm) (hfree : s.owner .alarm = none) :
      StepTo doXmpp s { s with
        owner := Function.update s.owner .alarm (some .main)
        handler := .load (reloadedIds doXmpp) }
  | load (id : Nat) (ids : List Nat) (h : s.handler = .load (id :: ids)) :
      StepTo doXmpp s { s with
        settings := s.settings.load id (content s.seg id), handler := .load ids }
  | loaded (h : s.handler = .load []) :
      StepTo doXmpp s { s with history := s.settings :: s.history, handler := .unlockAlarm }
  | hupUnlocks (h : s.handler = .unlockAlarm) :
      StepTo doXmpp s { s.unlock .alarm with handler := .unlockStatus }
  | hupEnds (h : s.handler = .unlockStatus) :
      StepTo doXmpp s { s.unlock .status with handler := .idle }
  | config (h : s.xmpp = .idle) : StepTo doXmpp s { s with xmpp := .lockStatus }
  | configStatus (h : s.xmpp = .lockStatus) (hfree : s.owner .status = none) :
      StepTo doXmpp s { s with
        owner := Function.update s.owner .status (some .xmpp), xmpp := .lockAlarm }
  | configAlarm (h : s.xmpp = .lockAlarm) (hfree : s.owner .alarm = none) :
      StepTo doXmpp s { s with
        owner := Function.update s.owner .alarm (some .xmpp)
        xmpp := .read (List.range shmAlarm) (.initial true) }
  | read (id : Nat) (ids : List Nat) (args : Settings) (h : s.xmpp = .read ids args)
      (hid : id ∈ ids) :
      StepTo doXmpp s { s with xmpp := .read (ids.erase id) (args.copy s.settings id) }
  | send (args : Settings) (h : s.xmpp = .read [] args) :
      StepTo doXmpp s { s with
        sent := (s.history.length - 1, configReport args) :: s.sent, xmpp := .unlockStatus }
  | configUnlocks (h : s.xmpp = .unlockStatus) :
      StepTo doXmpp s { s.unlock .status with xmpp := .unlockAlarm }
  | configEnds (h : s.xmpp = .unlockAlarm) :
      StepTo doXmpp s { s.unlock .alarm with xmpp := .idle }
  | workerLocks (w : Worker) (hfree : s.owner w.mtx = none) :
      StepTo doXmpp s { s with owner := Function.update s.owner w.mtx (some (.worker w)) }
  | workerUnlocks (w : Worker) (hown : s.owner w.mtx = some (.worker w)) :
      StepTo doXmpp s (s.unlock w.mtx)
  | edit (seg : Memory) : StepTo doXmpp s { s with seg := seg }

section Steps

variable {doXmpp : Bool} {s t : SnapSys} {m : Mtx} {p : Tid}

theorem lock_eq_some_iff : s.lock m p = some t ↔
    s.owner m = none ∧ t = { s with owner := Function.update s.owner m (some p) } := by
  rw [lock, Option.ite_none_right_eq_some, Option.some_inj, eq_comm (a := t)]

theorem stepTo_of_step {a : Act} (h : step doXmpp s a = some t) : StepTo doXmpp s t := by
  cases a with
  | handler =>
    simp only [step, handlerStep] at h
    split at h
    next hpc => exact Option.some.inj h ▸ .hup hpc
    next hpc =>
      obtain ⟨u, hu, rfl⟩ := Option.map_eq_some_iff.mp h
      obtain ⟨hfree, rfl⟩ := lock_eq_some_iff.mp hu
      exact .hupStatus hpc hfree
    next hpc =>
      obtain ⟨u, hu, rfl⟩ := Option.map_eq_some_iff.mp h
      obtain ⟨hfree, rfl⟩ := lock_eq_some_iff.mp hu
      exact .hupAlarm hpc hfree
    next id ids hpc => exact Option.some.inj h ▸ .load id ids hpc
    next hpc => exact Option.some.inj h ▸ .loaded hpc
    next hpc => exact Option.some.inj h ▸ .hupUnlocks hpc
    next hpc => exact Option.some.inj h ▸ .hupEnds hpc
  | xmpp id =>
    simp only [step, xmppStep] at h
    split at h
    next hpc => exact Option.some.inj h ▸ .config hpc
    next hpc =>
      obtain ⟨u, hu, rfl⟩ := Option.map_eq_some_iff.mp h
      obtain ⟨hfree, rfl⟩ := lock_eq_some_iff.mp hu
      exact .configStatus hpc hfree
    next hpc =>
      obtain ⟨u, hu, rfl⟩ := Option.map_eq_some_iff.mp h
      obtain ⟨hfree, rfl⟩ := lock_eq_some_iff.mp hu
      exact .configAlarm hpc hfree
    next args hpc => exact Option.some.inj h ▸ .send args hpc
    next i ids args hpc =>
      split at h
      next hid => exact Option.some.inj h ▸ .read id (i :: ids) args hpc hid
      next => cases h
    next hpc => exact Option.some.inj h ▸ .configUnlocks hpc
    next hpc => exact Option.some.inj h ▸ .configEnds hpc
  | worker w =>
    simp only [step, workerStep] at h
    split at h
    next hown => exact Option.some.inj h ▸ .workerUnlocks w hown
    next =>
      obtain ⟨hfree, rfl⟩ := lock_eq_some_iff.mp h
      exact .workerLocks w hfree
  | edit seg => exact Option.some.inj h ▸ .edit seg

/-! ### The mutexes -/

def Holds (s : SnapSys) : Tid → Mtx → Prop
  | .main => s.handler.Holds
  | .xmpp => s.xmpp.Holds
  | .worker _ | .flank => fun _ => False

/-- Who has locked a mutex is its owner. -/
def Locked (s : SnapSys) : Prop := ∀ p m, s.Holds p m → s.owner m = some p

theorem Locked.stays (hs : Locked s) (howner : t.owner = s.owner)
    (hkept : ∀ p m, t.Holds p m → s.Holds p m) : Locked t := by
  intro p m hm
  rw [howner]
  exact hs p m (hkept p m hm)

theorem Locked.locks (hs : Locked s) (hfree : s.owner m = none)
    (howner : t.owner = Function.update s.owner m (some p))
    (hp : ∀ m', t.Holds p m' → m' = m ∨ s.Holds p m')
    (hkept : ∀ q, q ≠ p → ∀ m', t.Holds q m' → s.Holds q m') : Locked t := by
  intro q m' hm'
  rw [howner]
  by_cases hmm : m' = m
  · subst hmm
    rw [Function.update_self]
    by_cases hqp : q = p
    · rw [hqp]
    · have hown := hs q m' (hkept q hqp m' hm')
      rw [hfree] at hown
      cases hown
  · rw [Function.update_of_ne hmm]
    by_cases hqp : q = p
    · subst hqp
      exact hs q m' ((hp m' hm').resolve_left hmm)
    · exact hs q m' (hkept q hqp m' hm')

theorem Locked.unlocks (hs : Locked s) (hown : s.owner m = some p)
    (howner : t.owner = Function.update s.owner m none)
    (hp : ∀ m', t.Holds p m' → m' ≠ m ∧ s.Holds p m')
    (hkept : ∀ q, q ≠ p → ∀ m', t.Holds q m' → s.Holds q m') : Locked t := by
  intro q m' hm'
  rw [howner]
  by_cases hqp : q = p
  · subst hqp
    rw [Function.update_of_ne (hp m' hm').1]
    exact hs q m' (hp m' hm').2
  · have hq := hs q m' (hkept q hqp m' hm')
    have hmm : m' ≠ m := by
      rintro rfl
      rw [hown] at hq
      exact hqp (Option.some.inj hq).symm
    rw [Function.update_of_ne hmm, hq]

theorem kept_of_xmpp (hx : t.xmpp = s.xmpp) :
    ∀ q, q ≠ .main → ∀ m', t.Holds q m' → s.Holds q m' := by
  intro q hq m' hm'
  cases q with
  | main => exact absurd rfl hq
  | xmpp =>
    rw [Holds, hx] at hm'
    exact hm'
  | worker w => exact hm'
  | flank => exact hm'

theorem kept_of_handler (hh : t.handler = s.handler) :
    ∀ q, q ≠ .xmpp → ∀ m', t.Holds q m' → s.Holds q m' := by
  intro q hq m' hm'
  cases q with
  | main =>
    rw [Holds, hh] at hm'
    exact hm'
  | xmpp => exact absurd rfl hq
  | worker w => exact hm'
  | flank => exact hm'

theorem mtx_eq (m : Mtx) : m = .status ∨ m = .alarm := by
  cases m with
  | status => exact .inl rfl
  | alarm => exact .inr rfl

theorem Locked.handler_stays (hs : Locked s) (howner : t.owner = s.owner) (hx : t.xmpp = s.xmpp)
    (hpc : ∀ m, t.handler.Holds m → s.handler.Holds m) : Locked t := by
  refine hs.stays howner ?_
  intro p m hm
  by_cases hp : p = .main
  · subst hp
    exact hpc m hm
  · exact kept_of_xmpp hx p hp m hm

theorem Locked.xmpp_stays (hs : Locked s) (howner : t.owner = s.owner)
    (hh : t.handler = s.handler) (hpc : ∀ m, t.xmpp.Holds m → s.xmpp.Holds m) : Locked t := by
  refine hs.stays howner ?_
  intro p m hm
  by_cases hp : p = .xmpp
  · subst hp
    exact hpc m hm
  · exact kept_of_handler hh p hp m hm

theorem Locked.handler_owns (hs : Locked s) {pc : ReloadPc} (h : s.handler = pc)
    (hm : pc.Holds m) : s.owner m = some .main := by
  apply hs
  rw [Holds, h]
  exact hm

theorem Locked.xmpp_owns (hs : Locked s) {pc : ConfigPc} (h : s.xmpp = pc) (hm : pc.Holds m) :
    s.owner m = some .xmpp := by
  apply hs
  rw [Holds, h]
  exact hm

theorem locked_step (hs : Locked s) (h : StepTo doXmpp s t) : Locked t := by
  cases h with
  | hup hpc => exact hs.handler_stays rfl rfl fun m hm => False.elim hm
  | hupStatus hpc hfree =>
    exact hs.locks hfree rfl (fun m' hm' => .inl hm') (kept_of_xmpp rfl)
  | hupAlarm hpc hfree =>
    refine hs.locks hfree rfl ?_ (kept_of_xmpp rfl)
    intro m' _
    refine (mtx_eq m').symm.imp_right ?_
    intro hm'
    rw [Holds, hpc]
    exact hm'
  | load id ids hpc | loaded hpc =>
    refine hs.handler_stays rfl rfl ?_
    intro m _
    rw [hpc]
    trivial
  | hupUnlocks hpc =>
    refine hs.unlocks (hs.handler_owns hpc trivial) rfl ?_ (kept_of_xmpp rfl)
    intro m' hm'
    obtain rfl : m' = .status := hm'
    rw [Holds, hpc]
    exact ⟨Mtx.noConfusion, trivial⟩
  | hupEnds hpc =>
    exact hs.unlocks (hs.handler_owns hpc rfl) rfl (fun m' hm' => False.elim hm')
      (kept_of_xmpp rfl)
  | config hpc => exact hs.xmpp_stays rfl rfl fun m hm => False.elim hm
  | configStatus hpc hfree =>
    exact hs.locks hfree rfl (fun m' hm' => .inl hm') (kept_of_handler rfl)
  | configAlarm hpc hfree =>
    refine hs.locks hfree rfl ?_ (kept_of_handler rfl)
    intro m' _
    refine (mtx_eq m').symm.imp_right ?_
    intro hm'
    rw [Holds, hpc]
    exact hm'
  | read _ _ _ hpc | send _ hpc =>
    refine hs.xmpp_stays rfl rfl ?_
    intro m _
    rw [hpc]
    trivial
  | configUnlocks hpc =>
    refine hs.unlocks (hs.xmpp_owns hpc trivial) rfl ?_ (kept_of_handler rfl)
    intro m' hm'
    obtain rfl : m' = .alarm := hm'
    rw [Holds, hpc]
    exact ⟨Mtx.noConfusion, trivial⟩
  | configEnds hpc =>
    exact hs.unlocks (hs.xmpp_owns hpc rfl) rfl (fun m' hm' => False.elim hm')
      (kept_of_handler rfl)
  | workerLocks w hfree =>
    exact hs.locks hfree rfl (fun m' hm' => False.elim hm') fun q _ m' hm' => hm'
  | workerUnlocks w hown =>
    exact hs.unlocks hown rfl (fun m' hm' => False.elim hm') fun q _ m' hm' => hm'
  | edit seg => exact hs.stays rfl fun p m hm => hm

theorem Locked.not_both (hs : Locked s) {ids ids' : List Nat} {args : Settings}
    (hh : s.handler = .load ids) : s.xmpp ≠ .read ids' args := by
  intro hx
  have hmain := @Locked.handler_owns s .status hs _ hh trivial
  rw [hs.xmpp_owns hx trivial] at hmain
  cases hmain

/-! ### The answers -/

/-- What the variables, the arguments and the answers are. -/
structure Whole (s : SnapSys) : Prop where
  /-- Between two reloads the variables are what the last one has left. -/
  current : (∀ ids, s.handler ≠ .load ids) → s.history.head? = some s.settings
  /-- The arguments that have been read are those variables. -/
  copied : ∀ ids args, s.xmpp = .read ids args →
    ∀ id < shmAlarm, id ∉ ids → args.get id = s.settings.get id
  answers : ∀ r ∈ s.sent, ∃ c, s.history.reverse[r.1]? = some c ∧ r.2 = configReport c
  order : (s.sent.map Prod.fst).Pairwise (· ≥ ·)

/-- A step that leaves the variables and the answers alone. -/
theorem Whole.keeps (hs : Whole s) (hset : t.settings = s.settings)
    (hhist : t.history = s.history) (hsent : t.sent = s.sent)
    (hload : (∀ ids, t.handler ≠ .load ids) → ∀ ids, s.handler ≠ .load ids)
    (hread : ∀ ids args, t.xmpp = .read ids args → s.xmpp = .read ids args) : Whole t where
  current h := by
    rw [hhist, hset]
    exact hs.current (hload h)
  copied ids args h := by
    rw [hset]
    exact hs.copied ids args (hread ids args h)
  answers := by
    rw [hhist, hsent]
    exact hs.answers
  order := by
    rw [hsent]
    exact hs.order

/-- A complete reload is the newest of the history. -/
theorem Whole.reloaded (hs : Whole s) (hset : t.settings = s.settings)
    (hhist : t.history = s.settings :: s.history) (hsent : t.sent = s.sent)
    (hxmpp : t.xmpp = s.xmpp) : Whole t where
  current _ := by rw [hhist, hset, List.head?_cons]
  copied ids args h := by
    rw [hset]
    rw [hxmpp] at h
    exact hs.copied ids args h
  answers r hr := by
    rw [hsent] at hr
    obtain ⟨c, hc, hreport⟩ := hs.answers r hr
    have hlt := (List.getElem?_eq_some_iff.mp hc).1
    refine ⟨c, ?_, hreport⟩
    rw [hhist, List.reverse_cons, List.getElem?_append_left hlt, hc]
  order := by
    rw [hsent]
    exact hs.order

theorem newest {c : Settings} {history : List Settings} (h : history.head? = some c) :
    history.reverse[history.length - 1]? = some c := by
  rw [← List.length_reverse, ← List.getLast?_eq_getElem?, List.getLast?_reverse, h]

theorem Whole.args_eq (hs : Whole s) {args : Settings} (h : s.xmpp = .read [] args) :
    args = s.settings :=
  Settings.ext_get fun id hid => hs.copied [] args h id hid List.not_mem_nil

theorem Whole.sends (hs : Whole s) (hlocked : Locked s) {args : Settings}
    (h : s.xmpp = .read [] args) :
    Whole { s with
      sent := (s.history.length - 1, configReport args) :: s.sent, xmpp := .unlockStatus } where
  current := hs.current
  copied ids args h := by cases h
  answers r hr := by
    have hcurrent := hs.current fun ids hh => hlocked.not_both hh h
    rcases List.mem_cons.mp hr with rfl | hr
    · exact ⟨s.settings, newest hcurrent, by rw [hs.args_eq h]⟩
    · exact hs.answers r hr
  order := by
    refine List.pairwise_cons.mpr ⟨?_, hs.order⟩
    intro n hn
    obtain ⟨r, hr, rfl⟩ := List.mem_map.mp hn
    obtain ⟨c, hc, -⟩ := hs.answers r hr
    have hlt := (List.getElem?_eq_some_iff.mp hc).1
    rw [List.length_reverse] at hlt
    exact Nat.le_sub_one_of_lt hlt

theorem Whole.reads (hs : Whole s) {id : Nat} {ids : List Nat} {args : Settings}
    (h : s.xmpp = .read ids args) :
    Whole { s with xmpp := .read (ids.erase id) (args.copy s.settings id) } where
  current := hs.current
  copied ids' args' h' := by
    obtain ⟨rfl, rfl⟩ := ConfigPc.read.inj h'
    intro id' hlt hid'
    by_cases hid : id' = id
    · subst hid
      exact get_copy_self args s.settings hlt
    · rw [get_copy_of_ne args s.settings hid]
      exact hs.copied ids args h id' hlt fun hmem => hid' ((List.mem_erase_of_ne hid).mpr hmem)
  answers := hs.answers
  order := hs.order

theorem whole_step (hlocked : Locked s) (hs : Whole s) (h : StepTo doXmpp s t) : Whole t := by
  cases h with
  | hup hpc | hupStatus hpc | hupUnlocks hpc | hupEnds hpc =>
    refine hs.keeps rfl rfl rfl ?_ fun ids args h => h
    intro _ ids hh
    cases hpc.symm.trans hh
  | hupAlarm hpc =>
    refine hs.keeps rfl rfl rfl ?_ fun ids args h => h
    intro h
    exact absurd rfl (h _)
  | load id ids hpc =>
    refine ⟨fun h => absurd rfl (h ids), ?_, hs.answers, hs.order⟩
    intro ids' args h
    exact absurd h (hlocked.not_both hpc)
  | loaded hpc => exact hs.reloaded rfl rfl rfl rfl
  | config hpc | configStatus hpc | configUnlocks hpc | configEnds hpc =>
    exact hs.keeps rfl rfl rfl (fun h => h) fun ids args h => (by cases h)
  | configAlarm hpc =>
    refine ⟨hs.current, ?_, hs.answers, hs.order⟩
    intro ids args h id hlt hid
    obtain ⟨rfl, rfl⟩ := ConfigPc.read.inj h
    exact absurd (List.mem_range.mpr hlt) hid
  | read id ids args hpc => exact hs.reads hpc
  | send args hpc => exact hs.sends hlocked hpc
  | workerLocks | workerUnlocks | edit =>
    exact hs.keeps rfl rfl rfl (fun h => h) fun ids args h => h

end Steps

/-! ### Runs -/

section Runs

variable {doXmpp : Bool} {c : Settings} {seg : Memory} {s : SnapSys}

theorem locked_initial (c : Settings) (seg : Memory) : Locked (initial c seg) := by
  intro p m hm
  cases p with
  | main | xmpp | worker | flank => exact False.elim hm

theorem locked_reach (h : Reach (step doXmpp) anyStep (· = initial c seg) s) : Locked s :=
  h.invariant_from (locked_initial c seg) fun _ _ _ hs _ hst => locked_step hs (stepTo_of_step hst)

theorem whole_initial (c : Settings) (seg : Memory) : Whole (initial c seg) where
  current _ := rfl
  copied ids args h := by cases h
  answers r hr := by cases hr
  order := .nil

/-- **Every answer is whole.**  In every run of the handler, the XMPP thread, the workers and
any edits of the shared memory, and whatever the order in which the variables are read: a CONFIG
answer that is sent when `n` reloads are complete shows all ten variables as the last of them
has left them, or as they are at the start if `n` is 0; and no later answer is of an older
reload. -/
theorem config_snapshot (h : Reach (step doXmpp) anyStep (· = initial c seg) s) :
    (∀ r ∈ s.sent, ∃ c', s.history.reverse[r.1]? = some c' ∧ r.2 = configReport c') ∧
      (s.sent.map Prod.fst).Pairwise (· ≥ ·) := by
  have hwhole : Whole s := by
    refine h.invariant_of (I := Locked) (J := Whole) (fun _ => locked_reach) ?_ ?_
    · rintro _ rfl
      exact whole_initial c seg
    · exact fun _ _ _ hlocked hs _ hst => whole_step hlocked hs (stepTo_of_step hst)
  exact ⟨hwhole.answers, hwhole.order⟩

end Runs

/-- The XMPP thread asks for the mutexes while the handler loads, and an edit comes in
between. -/
def snapRun : List Act :=
  List.replicate 5 .handler ++ [.xmpp 0, .edit fun _ => 1#8] ++ List.replicate 11 .handler ++
    List.replicate 2 (.xmpp 0) ++ (List.range shmAlarm).reverse.map .xmpp ++ [.xmpp 0]

theorem snapRun_isSome :
    (exec (step true) anyStep (initial (.initial true) fun _ => 0#8) snapRun).isSome = true := by
  decide

def snapEnd : SnapSys :=
  (exec (step true) anyStep (initial (.initial true) fun _ => 0#8) snapRun).get snapRun_isSome

theorem config_snapshot_once :
    snapEnd.sent.map Prod.fst = [1] ∧
    ∀ r ∈ snapEnd.sent, ∃ c', snapEnd.history.reverse[r.1]? = some c' ∧ r.2 = configReport c' :=
  ⟨by decide, (config_snapshot (reach_get _ _ snapRun_isSome)).1⟩

end SnapSys

end Raspberries.IrAlarm
