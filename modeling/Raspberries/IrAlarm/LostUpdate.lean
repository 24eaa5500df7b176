import Raspberries.IrAlarm.ConfigUpdate
import Raspberries.Lib.Transition

/-!
# A configuration update that is lost

Every `semop` overwrites what `GETPID` gives.  An `iralarmctl -s` that asks after another
`iralarmctl` has done a `semop` gets the wrong process: its SIGHUP does not go to the
daemon, and the value it has stored is never loaded (`update_lost`).

Two more ways are that the user may not signal the daemon, which is root's, and that the
byte of SENDXMPP is 128 or more, which `s_xmpp` as an `int8_t` cannot hold.

`no_update_lost` proves that these are all: as long as every `-s` is `InTime`, all signals
go to the daemon and every variable gets the content of its object.  The invariant is
`Covered`: a variable that does not have this content has a SIGHUP pending, or its reload
still to come in the handler, or a process that still has its `kill` to do.
-/

namespace Raspberries.IrAlarm

open SysVSem Transition

namespace UpdateSys

/-- What a `-s` stores is a value of the daemon's variable: `s_xmpp` ends below 128. -/
def Fits (doXmpp : Bool) : CtlCmd → Prop
  | .set id value => doXmpp = true → id = shmXmpp → value % 256 < 128
  | _ => True

instance (doXmpp : Bool) (cmd : CtlCmd) : Decidable (Fits doXmpp cmd) := by
  unfold Fits
  split <;> infer_instance

/-- A process that will signal may signal the daemon, has a value that fits, and asks for
`GETPID` while the last `semop` is the daemon's. -/
def InTime (doXmpp : Bool) (may : Nat → Int → Bool) (s : UpdateSys) : Act → Prop
  | .ctl n => match s.ctls n with
    | .start cmd => .kill ∈ ctlCode cmd →
      may n irdPid = true ∧ Fits doXmpp cmd ∧ getpid (some s.semId) s.kernel = irdPid
    | _ => True
  | _ => True

instance (doXmpp : Bool) (may : Nat → Int → Bool) (s : UpdateSys) (a : Act) :
    Decidable (InTime doXmpp may s a) := by
  unfold InTime
  split
  · split <;> infer_instance
  · infer_instance

/-- No `iralarmctl` runs and no SIGHUP is pending or being handled. -/
def Quiescent (s : UpdateSys) : Prop :=
  (∀ n, s.ctls n = .idle) ∧ s.pending = false ∧ ∀ ids, s.main ≠ .handler ids

/-- The SIGHUPs are addressed to the daemon, and in a quiescent state its variables have
the contents of their objects. -/
def NothingLost (doXmpp : Bool) (s : UpdateSys) : Prop :=
  (∀ pid ∈ s.hups, pid = irdPid) ∧
  (s.Quiescent → ∀ id ∈ reloadedIds doXmpp, s.settings.get id = some (s.shm id : Int))

/-- The process still has its `kill` to do. -/
def WillKill (s : UpdateSys) (n : Nat) : Prop := ∃ pid code, s.ctls n = .run pid code ∧ .kill ∈ code

/-- The variable of the object can hold this content. -/
def Holds (doXmpp : Bool) (id content : Nat) : Prop :=
  id ∈ reloadedIds doXmpp → loaded id content = content

structure Covered (doXmpp : Bool) (may : Nat → Int → Bool) (s : UpdateSys) : Prop where
  addressed : ∀ pid ∈ s.hups, pid = irdPid
  target : ∀ n pid code, s.ctls n = .run pid code → .kill ∈ code →
    pid = irdPid ∧ may n irdPid = true
  /-- A store has its `kill` behind it, and is one the variable can take. -/
  shape : ∀ n pid l id content code, s.ctls n = .run pid (l ++ .store id content :: code) →
    .kill ∈ code ∧ Holds doXmpp id content
  holds : ∀ id, Holds doXmpp id (s.shm id)
  clean : ∀ id ∈ reloadedIds doXmpp, s.settings.get id = some (s.shm id : Int) ∨
    s.pending = true ∨ (∃ ids, s.main = .handler ids ∧ id ∈ ids) ∨ ∃ n, s.WillKill n

/-! ### The code of a process -/

theorem loaded_eq {id v : Nat} (h : id = shmXmpp → v < 128) : loaded id v = v := by
  rw [loaded]
  split
  next hid => exact toInt8_of_lt (h hid)
  next => rfl

theorem holds_of_lt {doXmpp : Bool} {id v : Nat} (h : doXmpp = true → id = shmXmpp → v < 128) :
    Holds doXmpp id v := by
  intro hid
  refine loaded_eq fun hxmpp => h ?_ hxmpp
  subst hxmpp
  cases doXmpp with
  | true => rfl
  | false => exact absurd hid (by decide)

theorem Started.holds {doXmpp : Bool} {s : UpdateSys} (h : Started doXmpp s) (id : Nat) :
    Holds doXmpp id (s.shm id) := by
  intro hid
  refine loaded_eq fun hxmpp => ?_
  subst hxmpp
  have hsame : s.settings.sXmpp = s.shm shmXmpp := Option.some.inj (h.published shmXmpp hid)
  have hlt := h.sXmpp
  omega

/-- A store is behind `-s`, with the value cut to the width of the object. -/
theorem set_of_store {cmd : CtlCmd} {id content : Nat}
    (h : .store id content ∈ ctlCode cmd) : ∃ value type, cmd = .set id value ∧
      irmemType irsmData id = some type ∧ content = value % 256 ^ type.size := by
  cases cmd with
  | get i =>
    rw [ctlCode] at h
    split at h <;> simp [getCode] at h
  | all =>
    rw [ctlCode] at h
    simp [getCode] at h
  | set i value =>
    rw [ctlCode] at h
    split at h
    next type htype =>
      simp only [List.mem_cons, CtlInstr.store.injEq, reduceCtorEq, List.not_mem_nil, or_false,
        false_or] at h
      obtain ⟨rfl, rfl⟩ := h
      exact ⟨value, type, rfl, htype, rfl⟩
    next => cases h

theorem kill_after_store {cmd : CtlCmd} {l code : List CtlInstr} {id content : Nat}
    (h : ctlCode cmd = l ++ .store id content :: code) : .kill ∈ code := by
  obtain ⟨value, type, rfl, htype, -⟩ :=
    set_of_store (h ▸ List.mem_append_right l List.mem_cons_self)
  rw [ctlCode, htype] at h
  rcases l with _ | ⟨_, _ | ⟨_, _ | ⟨_, _ | ⟨_, _ | ⟨_, _ | ⟨_, l⟩⟩⟩⟩⟩⟩ <;> simp at h
  obtain ⟨-, -, rfl⟩ := h
  simp

theorem Fits.holds {doXmpp : Bool} {cmd : CtlCmd} {id content : Nat} (hfits : Fits doXmpp cmd)
    (h : .store id content ∈ ctlCode cmd) : Holds doXmpp id content := by
  obtain ⟨value, type, rfl, htype, rfl⟩ := set_of_store h
  refine holds_of_lt fun hdo hxmpp => ?_
  have hlt := hfits hdo hxmpp
  subst hxmpp
  obtain rfl : .byte = type := Option.some.inj htype
  exact hlt

/-! ### One step -/

section Step

variable {doXmpp : Bool} {may : Nat → Int → Bool} {s t : UpdateSys}

/-- A step of the daemon that leaves objects, variables and processes alone. -/
theorem covered_of_daemon (hs : Covered doXmpp may s) (hctls : t.ctls = s.ctls)
    (hhups : t.hups = s.hups) (hshm : t.shm = s.shm) (hset : t.settings = s.settings)
    (hpending : s.pending = true → t.pending = true)
    (hmain : ∀ id ids, s.main = .handler ids → id ∈ ids → t.main = .handler ids) :
    Covered doXmpp may t := by
  refine ⟨?_, ?_, ?_, ?_, fun id hid => ?_⟩
  · rw [hhups]
    exact hs.addressed
  · rw [hctls]
    exact hs.target
  · rw [hctls]
    exact hs.shape
  · rw [hshm]
    exact hs.holds
  · rw [hset, hshm]
    rcases hs.clean id hid with h | h | ⟨ids, h, hmem⟩ | ⟨n, h⟩
    · exact Or.inl h
    · exact Or.inr (Or.inl (hpending h))
    · exact Or.inr (Or.inr (Or.inl ⟨ids, hmain id ids h hmem, hmem⟩))
    · refine Or.inr (Or.inr (Or.inr ⟨n, ?_⟩))
      rwa [WillKill, hctls]

/-- A step of process `n` that keeps its `kill` and leaves objects and variables alone. -/
theorem covered_of_ctl {n : Nat} {c : CtlProc} {k : Kernel} (hs : Covered doXmpp may s)
    (hrun : ∀ pid code, c = .run pid code →
      (.kill ∈ code → pid = irdPid ∧ may n irdPid = true) ∧
      ∀ l id content rest, code = l ++ .store id content :: rest →
        .kill ∈ rest ∧ Holds doXmpp id content)
    (hkill : s.WillKill n → ∃ pid code, c = .run pid code ∧ .kill ∈ code) :
    Covered doXmpp may { s.setCtl n c with kernel := k } := by
  have hself : (s.setCtl n c).ctls n = c := Function.update_self ..
  have hother : ∀ m, m ≠ n → (s.setCtl n c).ctls m = s.ctls m :=
    fun m hm => Function.update_of_ne hm ..
  refine ⟨hs.addressed, fun m pid code hm hmem => ?_, fun m pid l id content code hm => ?_,
    hs.holds, fun id hid => ?_⟩
  · by_cases hmn : m = n
    · subst hmn
      exact (hrun pid code (hself.symm.trans hm)).1 hmem
    · exact hs.target m pid code ((hother m hmn).symm.trans hm) hmem
  · by_cases hmn : m = n
    · subst hmn
      exact (hrun pid _ (hself.symm.trans hm)).2 l id content code rfl
    · exact hs.shape m pid l id content code ((hother m hmn).symm.trans hm)
  · refine (hs.clean id hid).imp_right (Or.imp_right (Or.imp_right ?_))
    intro h
    obtain ⟨m, hm⟩ := h
    by_cases hmn : m = n
    · subst hmn
      obtain ⟨pid, code, hc, hmem⟩ := hkill hm
      exact ⟨m, pid, code, hself.trans hc, hmem⟩
    · obtain ⟨pid, code, hc, hmem⟩ := hm
      exact ⟨m, pid, code, (hother m hmn).trans hc, hmem⟩

theorem covered_mainStep (hs : Covered doXmpp may s) (h : mainStep s = some t) :
    Covered doXmpp may t := by
  rw [mainStep] at h
  split at h
  next => cases h
  next hm =>
    obtain rfl := Option.some.inj h
    refine covered_of_daemon hs rfl rfl rfl rfl id fun id ids hids hmem => ?_
    obtain rfl := LoopPc.handler.inj (hm.symm.trans hids)
    cases hmem
  next i ids hm =>
    -- the reload of object `i`
    obtain rfl := Option.some.inj h
    refine ⟨hs.addressed, hs.target, hs.shape, hs.holds, fun id hid => ?_⟩
    by_cases hi : id = i
    · subst hi
      refine Or.inl ?_
      rw [← hs.holds id hid]
      exact Settings.get_load_self _ (lt_of_mem_reloadedIds hid) _
    · rcases hs.clean id hid with h | h | ⟨ids', h, hmem⟩ | h
      · refine Or.inl ?_
        show (s.settings.load i (s.shm i)).get id = _
        rw [Settings.get_load_of_ne _ hi, h]
      · exact Or.inr (Or.inl h)
      · obtain rfl := LoopPc.handler.inj (hm.symm.trans h)
        exact Or.inr (Or.inr (Or.inl ⟨ids, rfl, (List.mem_cons.mp hmem).resolve_left hi⟩))
      · exact Or.inr (Or.inr (Or.inr h))
  next b hm =>
    obtain ⟨r, -, rfl⟩ := Option.map_eq_some_iff.mp h
    refine covered_of_daemon hs rfl rfl rfl rfl id fun id ids hids _ => ?_
    cases hm.symm.trans hids

/-- The signal of a process goes to the daemon, and every variable will be reloaded. -/
theorem covered_kill {n : Nat} {pid : Int} {code : List CtlInstr} (hs : Covered doXmpp may s)
    (hn : s.ctls n = .run pid (.kill :: code)) :
    Covered doXmpp may (kill may (s.setCtl n (.run pid code)) n pid) := by
  obtain ⟨hpid, hmay⟩ := hs.target n pid _ hn List.mem_cons_self
  have hctls : ∀ m, (kill may (s.setCtl n (.run pid code)) n pid).ctls m =
      (s.setCtl n (.run pid code)).ctls m := by
    intro m
    refine if_neg ?_
    rw [hpid, irdPid, ctlPid]
    omega
  have hcode : ∀ m q c, (kill may (s.setCtl n (.run pid code)) n pid).ctls m = .run q c →
      ∃ c', s.ctls m = .run q c' ∧ (c' = c ∨ c' = .kill :: c) := by
    intro m q c hm
    rw [hctls] at hm
    by_cases hmn : m = n
    · subst hmn
      have hself : (s.setCtl m (.run pid code)).ctls m = .run pid code := Function.update_self ..
      obtain ⟨rfl, rfl⟩ := CtlProc.run.inj (hself.symm.trans hm)
      exact ⟨_, hn, Or.inr rfl⟩
    · have hother : (s.setCtl n (.run pid code)).ctls m = s.ctls m := Function.update_of_ne hmn ..
      exact ⟨c, hother.symm.trans hm, Or.inl rfl⟩
  refine ⟨fun q hq => ?_, fun m q c hm hmem => ?_, fun m q l i content c hm => ?_,
    hs.holds, fun _ _ => Or.inr (Or.inl ?_)⟩
  · rcases List.mem_append.mp hq with hq | hq
    · exact hs.addressed q hq
    · rw [List.mem_singleton.mp hq, hpid]
  · obtain ⟨c', hc', rfl | rfl⟩ := hcode m q c hm
    · exact hs.target m q _ hc' hmem
    · exact hs.target m q _ hc' List.mem_cons_self
  · obtain ⟨c', hc', rfl | rfl⟩ := hcode m q _ hm
    · exact hs.shape m q l i content c hc'
    · exact hs.shape m q (.kill :: l) i content c hc'
  · show (s.pending || (may n irdPid && (decide (pid = irdPid) || decide (pid = -1)))) = true
    simp [hpid, hmay]

/-- The store makes one variable differ, and the process still has its `kill` to do. -/
theorem covered_store {n i content : Nat} {pid : Int} {code : List CtlInstr}
    (hs : Covered doXmpp may s) (hn : s.ctls n = .run pid (.store i content :: code)) :
    Covered doXmpp may
      { s.setCtl n (.run pid code) with shm := Function.update s.shm i content } := by
  obtain ⟨hkill, hholds⟩ := hs.shape n pid [] i content code hn
  have hmove : Covered doXmpp may { s.setCtl n (.run pid code) with kernel := s.kernel } := by
    refine covered_of_ctl hs ?_ fun _ => ⟨pid, code, rfl, hkill⟩
    rintro q c ⟨⟩
    exact ⟨fun _ => hs.target n pid _ hn (List.mem_cons_of_mem _ hkill),
      fun l j content' rest hc => hs.shape n pid (.store i content :: l) j content' rest
        (by rw [hn, hc]; rfl)⟩
  refine ⟨hmove.addressed, hmove.target, hmove.shape, fun id => ?_, fun id hid => ?_⟩
  · show Holds doXmpp id (Function.update s.shm i content id)
    by_cases hi : id = i
    · subst hi
      rwa [Function.update_self]
    · rw [Function.update_of_ne hi]
      exact hs.holds id
  · refine Or.inr (Or.inr (Or.inr ⟨n, pid, code, ?_, hkill⟩))
    exact Function.update_self ..

theorem covered_ctlStep {n : Nat} (hs : Covered doXmpp may s)
    (ha : InTime doXmpp may s (.ctl n)) (h : ctlStep may s n = some t) : Covered doXmpp may t := by
  -- an instruction that is neither a store nor a `kill`
  have hnext : ∀ {pid : Int} {i : CtlInstr} {code : List CtlInstr} (k : Kernel),
      s.ctls n = .run pid (i :: code) → i ≠ .kill →
      Covered doXmpp may { s.setCtl n (.run pid code) with kernel := k } := by
    intro pid i code k hn hi
    refine covered_of_ctl hs ?_ ?_
    · rintro q c ⟨⟩
      exact ⟨fun hmem => hs.target n pid _ hn (List.mem_cons_of_mem _ hmem),
        fun l j content rest hc => hs.shape n pid (i :: l) j content rest (by rw [hn, hc]; rfl)⟩
    · intro hex
      obtain ⟨q, c, hc, hmem⟩ := hex
      obtain ⟨rfl, rfl⟩ := CtlProc.run.inj (hn.symm.trans hc)
      exact ⟨pid, code, rfl, (List.mem_cons.mp hmem).resolve_left (Ne.symm hi)⟩
  rw [ctlStep] at h
  split at h
  next => cases h
  next cmd hn =>
    obtain rfl := Option.some.inj h
    refine covered_of_ctl (k := s.kernel) hs ?_ ?_
    · rintro pid code ⟨⟩
      rw [InTime, hn] at ha
      refine ⟨fun hmem => ⟨(ha hmem).2.2, (ha hmem).1⟩, fun l j content rest hc => ?_⟩
      have hkill : .kill ∈ rest := kill_after_store hc
      have hmem : .kill ∈ ctlCode cmd := hc ▸ by simp [hkill]
      exact ⟨hkill, (ha hmem).2.1.holds (hc ▸ by simp)⟩
    · intro hex
      obtain ⟨pid, code, hc, -⟩ := hex
      cases hn.symm.trans hc
  next hn =>
    obtain rfl := Option.some.inj h
    refine covered_of_ctl (k := s.kernel) hs nofun ?_
    intro hex
    obtain ⟨pid, code, hc, hmem⟩ := hex
    obtain ⟨-, rfl⟩ := CtlProc.run.inj (hn.symm.trans hc)
    cases hmem
  next hn =>
    obtain ⟨r, -, rfl⟩ := Option.map_eq_some_iff.mp h
    exact hnext _ hn nofun
  next hn =>
    obtain rfl := Option.some.inj h
    exact hnext s.kernel hn nofun
  next hn =>
    obtain rfl := Option.some.inj h
    exact covered_store hs hn
  next hn =>
    obtain rfl := Option.some.inj h
    exact covered_kill hs hn
  next hn =>
    obtain rfl := Option.some.inj h
    exact hnext _ hn nofun

theorem covered_step {a : Act} (hs : Covered doXmpp may s) (ha : InTime doXmpp may s a)
    (h : step doXmpp may s a = some t) : Covered doXmpp may t := by
  cases a with
  | main => exact covered_mainStep hs h
  | ctl n => exact covered_ctlStep hs ha h
  | wake =>
    rw [step] at h
    split at h
    next hm =>
      obtain rfl := Option.some.inj h
      refine covered_of_daemon hs rfl rfl rfl rfl id fun id ids hids _ => ?_
      cases hm.symm.trans hids
    next => cases h
  | deliver =>
    rw [step] at h
    split at h
    next =>
      obtain rfl := Option.some.inj h
      exact ⟨hs.addressed, hs.target, hs.shape, hs.holds,
        fun id hid => Or.inr (Or.inr (Or.inl ⟨reloadedIds doXmpp, rfl, hid⟩))⟩
    next => cases h
  | flank | callback =>
    rw [step] at h
    split at h
    next =>
      obtain rfl := Option.some.inj h
      exact covered_of_daemon hs rfl rfl rfl rfl id fun _ _ hids _ => hids
    next =>
      obtain ⟨r, -, rfl⟩ := Option.map_eq_some_iff.mp h
      exact covered_of_daemon hs rfl rfl rfl rfl id fun _ _ hids _ => hids
  | ctlStart n cmd =>
    rw [step] at h
    split at h
    next hn =>
      obtain rfl := Option.some.inj h
      refine covered_of_ctl (k := s.kernel) hs nofun ?_
      intro hex
      obtain ⟨pid, code, hc, -⟩ := hex
      cases hn.symm.trans hc
    next => cases h

end Step

/-! ### Runs -/

theorem covered_of_started {doXmpp : Bool} (may : Nat → Int → Bool) {s : UpdateSys}
    (h : Started doXmpp s) : Covered doXmpp may s where
  addressed pid hpid := by
    rw [h.hups] at hpid
    cases hpid
  target n pid code hn := by
    rw [h.ctls] at hn
    cases hn
  shape n pid l id content code hn := by
    rw [h.ctls] at hn
    cases hn
  holds := h.holds
  clean id hid := Or.inl (h.published id hid)

/-- **No update is lost** in a run in which every `-s` has a value that fits, is run by a
user who may signal the daemon, and asks for `GETPID` while the last `semop` is the
daemon's. -/
theorem no_update_lost (doXmpp : Bool) (may : Nat → Int → Bool) (s : UpdateSys)
    (hs : Reach (step doXmpp may) (InTime doXmpp may) (Started doXmpp) s) :
    s.NothingLost doXmpp := by
  have hcovered : Covered doXmpp may s := by
    apply hs.invariant
    · exact fun _ => covered_of_started may
    · exact fun _ _ _ => covered_step
  refine ⟨hcovered.addressed, fun hquiet id hid => ?_⟩
  obtain ⟨hctls, hpending, hmain⟩ := hquiet
  rcases hcovered.clean id hid with h | h | ⟨ids, h, -⟩ | ⟨n, pid, code, h, -⟩
  · exact h
  · rw [hpending] at h
    cases h
  · exact absurd h (hmain ids)
  · rw [hctls] at h
    cases h

def freshStart : UpdateSys where
  kernel := some ⟨1, 1, irdPid⟩
  semId := 1
  shm := fun id => (((Settings.initial true).get id).getD 0).toNat
  settings := .initial true
  pending := false
  main := .window
  flank := .outside
  callback := .outside
  ctls := fun _ => .idle
  hups := []

theorem started_freshStart : Started true freshStart where
  published := by decide
  sXmpp := by decide
  kernel := rfl
  pending := rfl
  main := rfl
  flank := rfl
  callback := rfl
  ctls _ := rfl
  hups := rfl

def allRoot (_ : Nat) (_ : Int) : Bool := true

def updatedOnce : UpdateSys :=
  (exec (step true allRoot) (InTime true allRoot) freshStart
    (List.flatten [[.ctlStart 0 (.set shmMinalrms 5)], List.replicate 8 (.ctl 0), [.deliver],
      List.replicate 11 .main])).get (by decide)

theorem no_update_lost_once : updatedOnce.NothingLost true := by
  apply no_update_lost true allRoot
  exact (Reach.start started_freshStart).trans (reach_get _ _ _)

/-- A `-g 0`, and then a `-s 8 -v 5` before the next cycle of the daemon. -/
def updatedLate : UpdateSys :=
  (exec (step true allRoot) anyStep freshStart
    (List.flatten [[.ctlStart 0 (.get shmMloop)], List.replicate 5 (.ctl 0),
      [.ctlStart 1 (.set shmMinalrms 5)], List.replicate 8 (.ctl 1)])).get (by decide)

/-- The SIGHUP went to the process of the `-g`, and `ir_minalarm` is still `2`. -/
theorem update_lost :
    ¬ ∀ s, Reach (step true allRoot) anyStep (Started true) s → s.NothingLost true := by
  intro h
  have hreach : Reach (step true allRoot) anyStep (Started true) updatedLate :=
    (Reach.start started_freshStart).trans (reach_get _ _ _)
  have hquiet : updatedLate.Quiescent := by
    refine ⟨fun n => ?_, by decide, ?_⟩
    · rcases n with _ | _ | n
      · decide
      · decide
      · rfl
    · have hmain : updatedLate.main = .window := by decide
      intro ids
      rw [hmain]
      nofun
  have hloaded := (h _ hreach).2 hquiet shmMinalrms (by decide)
  exact absurd hloaded (by decide)

end UpdateSys

end Raspberries.IrAlarm
