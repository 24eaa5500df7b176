import Raspberries.IrAlarm.SemSys
import Raspberries.Lib.Transition

/-!
# Does an `iralarmctl` remove the daemon's semaphore?

An `iralarmctl` finds out whether a daemon runs by creating the set itself: if that
succeeds there is none, and it removes the set again.  A daemon that executes its `semget`
in between takes the set for one that was left behind, and then loses it
(`semaphore_removed`).

`set_kept` proves that nothing else can happen: in every run in which no daemon executes
its `semget` then, no step of an `iralarmctl` removes the daemon's set.
-/

namespace Raspberries.IrAlarm

open SysVSem Transition

theorem names_bracketStep {id id' : Option Nat} {me : Nat} {k k' : Kernel} {b b' : Bracket}
    (h : Names id k) (hb : bracketStep id' me k b = some (b', k')) : Names id k' := by
  cases b with
  | outside => cases hb
  | acquire =>
    obtain ⟨⟨ok, k''⟩, hr, heq⟩ := Option.map_eq_some_iff.mp hb
    obtain ⟨-, rfl⟩ := Prod.mk.inj heq
    exact h.acquire hr
  | work =>
    obtain ⟨-, rfl⟩ := Prod.mk.inj (Option.some.inj hb)
    exact h
  | release =>
    obtain ⟨-, rfl⟩ := Prod.mk.inj (Option.some.inj hb)
    exact h.release

namespace SemSys

/-- The daemon has an identifier in `sem_id` and has not removed the set itself. -/
def Stored (s : SemSys) : Prop := s.main = .post ∨ s.main = .rmid ∨ ∃ b, s.main = .loop b

/-- No step of an `iralarmctl` removes the set whose identifier the daemon has stored. -/
def KeepsSet (s : SemSys) : Prop :=
  s.Stored → ∀ n new t, step s (.ctl n new) = some t →
    Names (some s.semId) s.kernel → Names (some s.semId) t.kernel

/-- If the daemon executes its `semget`, no `iralarmctl` is about to remove a set it has
created. -/
def Undisturbed (s : SemSys) (a : Act) : Prop :=
  ∀ new, a = .main new → s.main = .semget → ∀ n id, s.ctls n ≠ .rmid id

/-- The sets that are about to be removed, and the daemon's. -/
structure Ownership (s : SemSys) : Prop where
  created : ∀ n id, s.ctls n = .rmid id → Names (some id) s.kernel
  unique : ∀ n m id id', s.ctls n = .rmid id → s.ctls m = .rmid id' → n = m
  stored : s.Stored → Names (some s.semId) s.kernel ∧ ∀ n id, s.ctls n ≠ .rmid id

/-! ### One step -/

section Step

variable {s t : SemSys}

/-- A step that neither stores an identifier nor touches a process keeps the ownership, if
it keeps the set. -/
theorem Ownership.keep (h : Ownership s) (hctls : t.ctls = s.ctls) (hid : t.semId = s.semId)
    (hstored : t.Stored → s.Stored)
    (hkernel : ∀ id, Names (some id) s.kernel → Names (some id) t.kernel) : Ownership t where
  created n id hn := hkernel id (h.created n id (hctls ▸ hn))
  unique n m id id' hn hm := h.unique n m id id' (hctls ▸ hn) (hctls ▸ hm)
  stored ht := by
    obtain ⟨hnames, hnone⟩ := h.stored (hstored ht)
    rw [hid, hctls]
    exact ⟨hkernel _ hnames, hnone⟩

theorem Ownership.setCtl (h : Ownership s) {n : Nat} {c : CtlPc} {k : Kernel}
    (hc : ∀ id, c ≠ .rmid id)
    (hkernel : ∀ id, Names (some id) s.kernel → Names (some id) k) :
    Ownership { s.setCtl n c with kernel := k } := by
  have hold : ∀ m id, Function.update s.ctls n c m = .rmid id → s.ctls m = .rmid id := by
    intro m id hm
    by_cases hmn : m = n
    · rw [hmn, Function.update_self] at hm
      exact absurd hm (hc id)
    · rwa [Function.update_of_ne hmn] at hm
  refine ⟨?_, ?_, ?_⟩
  · intro m id hm
    exact hkernel id (h.created m id (hold m id hm))
  · intro m m' id id' hm hm'
    exact h.unique m m' id id' (hold m id hm) (hold m' id' hm')
  · intro ht
    obtain ⟨hnames, hnone⟩ := h.stored ht
    exact ⟨hkernel _ hnames, fun m id hm => hnone m id (hold m id hm)⟩

/-- Without a set nobody is about to remove one, and the daemon has stored none. -/
theorem Ownership.of_none (h : Ownership s) (hk : s.kernel = none) :
    ¬ s.Stored ∧ ∀ n id, s.ctls n ≠ .rmid id := by
  have hnames : ∀ id, ¬ Names (some id) s.kernel := by
    intro id hid
    obtain ⟨set, hset, -⟩ := hid
    rw [hk] at hset
    cases hset
  exact ⟨fun hs => hnames _ (h.stored hs).1, fun n id hn => hnames id (h.created n id hn)⟩

theorem not_stored (hm : ∀ b, s.main ≠ .loop b) (hpost : s.main ≠ .post)
    (hrmid : s.main ≠ .rmid) : ¬ s.Stored := by
  intro h
  obtain hs | hs | ⟨b, hs⟩ := h
  · exact hpost hs
  · exact hrmid hs
  · exact hm b hs

theorem ownership_of_nobody (hnone : ∀ n id, s.ctls n ≠ .rmid id)
    (hstored : s.Stored → Names (some s.semId) s.kernel) : Ownership s where
  created n id hn := absurd hn (hnone n id)
  unique n _ id _ hn := absurd hn (hnone n id)
  stored hs := ⟨hstored hs, hnone⟩

theorem Ownership.ctlCreates (h : Ownership s) {n new id : Nat} {k : Kernel}
    (hr : createExcl new s.kernel = some (id, k)) :
    Ownership { s.setCtl n (.rmid id) with kernel := k } := by
  cases hk : s.kernel with
  | some set =>
    rw [hk] at hr
    cases hr
  | none =>
    rw [hk] at hr
    obtain ⟨rfl, rfl⟩ := Prod.mk.inj (Option.some.inj hr)
    obtain ⟨hstored, hnone⟩ := h.of_none hk
    have hown : ∀ m id', Function.update s.ctls n (.rmid new) m = .rmid id' →
        m = n ∧ id' = new := by
      intro m id' hm
      by_cases hmn : m = n
      · rw [hmn, Function.update_self] at hm
        exact ⟨hmn, (CtlPc.rmid.inj hm).symm⟩
      · rw [Function.update_of_ne hmn] at hm
        exact absurd hm (hnone m id')
    refine ⟨?_, ?_, ?_⟩
    · intro m id' hm
      rw [(hown m id' hm).2]
      exact ⟨⟨new, 0, 0⟩, rfl, rfl⟩
    · intro m m' id' id'' hm hm'
      rw [(hown m id' hm).1, (hown m' id'' hm').1]
    · intro hs
      exact absurd hs hstored

/-- A process removes its set: nobody else is about to, and the daemon has stored none. -/
theorem Ownership.ctlRmid (h : Ownership s) {n id : Nat} {k : Kernel}
    (hn : s.ctls n = .rmid id) : Ownership { s.setCtl n .idle with kernel := k } := by
  refine ownership_of_nobody ?_ fun hs => absurd hn ((h.stored hs).2 n id)
  intro m id' hm
  have hm' : Function.update s.ctls n .idle m = .rmid id' := hm
  by_cases hmn : m = n
  · rw [hmn, Function.update_self] at hm'
    cases hm'
  · rw [Function.update_of_ne hmn] at hm'
    exact hmn (h.unique m n id' id hm' hn)

theorem ownership_step {a : Act} (h : Ownership s) (ha : Undisturbed s a)
    (hst : step s a = some t) : Ownership t := by
  cases stepTo_of_step hst with
  | start => exact ⟨h.created, h.unique, fun hs => absurd hs (not_stored nofun nofun nofun)⟩
  | isr | exit | kill =>
    exact h.keep rfl rfl (fun hs => absurd hs (not_stored nofun nofun nofun)) fun _ hid => hid
  | semget new hm =>
    refine ownership_of_nobody (ha new rfl hm) fun _ => ?_
    cases hk : s.kernel with
    | none => exact ⟨⟨new, 0, 0⟩, rfl, rfl⟩
    | some set => exact ⟨set, rfl, rfl⟩
  | post new hm => exact h.keep rfl rfl (fun _ => Or.inl hm) fun _ hid => hid.release
  | loop new b b' k hm hb =>
    exact h.keep rfl rfl (fun _ => Or.inr (Or.inr ⟨b, hm⟩)) fun _ hid => names_bracketStep hid hb
  | rmid new hm =>
    exact ownership_of_nobody (h.stored (Or.inr (Or.inl hm))).2
      fun hs => absurd hs (not_stored nofun nofun nofun)
  | wake hm | term hm =>
    exact h.keep rfl rfl (fun _ => Or.inr (Or.inr ⟨_, hm⟩)) fun _ hid => hid
  | flankEnters | callbackEnters => exact h.keep rfl rfl (fun hs => hs) fun _ hid => hid
  | flank b' k _ hb | callback b' k _ hb =>
    exact h.keep rfl rfl (fun hs => hs) fun _ hid => names_bracketStep hid hb
  | ctlCreates n new id k _ hr => exact h.ctlCreates hr
  | ctlRmid n new id hn => exact h.ctlRmid hn
  | ctlRun n new id b b' k _ hb =>
    exact h.setCtl (by simp) fun _ hid => names_bracketStep hid hb
  | ctlStart | ctlExists | ctlGet | ctlEnter | ctlExit | ctlKill =>
    exact h.setCtl (k := s.kernel) (by simp) fun _ hid => hid

end Step

/-! ### Runs -/

theorem ownership_initial : Ownership initial where
  created := by rintro n id ⟨⟩
  unique := by rintro n m id id' ⟨⟩
  stored hs := absurd hs (not_stored nofun nofun nofun)

theorem ownership_reach {s : SemSys} (hs : Reach step Undisturbed (· = initial) s) :
    Ownership s :=
  hs.invariant_from ownership_initial fun _ _ _ hown ha hst => ownership_step hown ha hst

theorem ctl_main {s t : SemSys} {n new : Nat} (h : step s (.ctl n new) = some t) :
    t.main = s.main ∧ t.semId = s.semId := by
  cases stepTo_of_step h with
  | ctlCreates | ctlExists | ctlRmid | ctlGet | ctlRun => exact ⟨rfl, rfl⟩

theorem Ownership.keepsSet {s : SemSys} (h : Ownership s) : s.KeepsSet := by
  intro hstored n new t hst _
  obtain ⟨hmain, hid⟩ := ctl_main hst
  have hstored' : t.Stored := by
    rw [Stored, hmain]
    exact hstored
  have ht : Ownership t := ownership_step h (by rintro _ ⟨⟩) hst
  rw [← hid]
  exact (ht.stored hstored').1

/-- A daemon that executes its `semget` at the wrong moment is about to lose its set. -/
theorem Ownership.not_keepsSet {s t : SemSys} {a : Act} (h : Ownership s)
    (ha : ¬ Undisturbed s a) (hst : step s a = some t) : ¬ t.KeepsSet := by
  simp only [Undisturbed, not_forall, not_not] at ha
  obtain ⟨new, rfl, hm, n, id, hn⟩ := ha
  obtain ⟨set, hset, hid⟩ := h.created n id hn
  obtain rfl := Option.some.inj hid
  rw [step, mainStep, hm, hset] at hst
  obtain rfl := Option.some.inj hst
  intro hkeep
  have hremove : remove (some set.id) (some set) = none := if_pos rfl
  have hnext := hkeep (Or.inl rfl) n 0 _ (by rw [step, ctlStep, hn]) ⟨set, rfl, rfl⟩
  obtain ⟨set', hset', -⟩ := hnext
  cases hremove.symm.trans hset'

/-- **The daemon keeps its semaphore.**  In every run in which no daemon executes its
`semget` while an `iralarmctl` is about to remove the set it has created, no step of an
`iralarmctl` removes the daemon's set; and the first `semget` that comes then leads to a
state from which such a step does. -/
theorem set_kept (s : SemSys) (hs : Reach step Undisturbed (· = initial) s) :
    s.KeepsSet ∧ ∀ a t, ¬ Undisturbed s a → step s a = some t → ¬ t.KeepsSet :=
  ⟨(ownership_reach hs).keepsSet, fun _ _ ha hst => (ownership_reach hs).not_keepsSet ha hst⟩

def askedAsleep : SemSys :=
  { initial with
    kernel := some ⟨1, 1, irdPid⟩
    semId := 1
    main := .loop .outside
    ctls := Function.update initial.ctls 0 .getExcl }

theorem set_kept_asleep : askedAsleep.KeepsSet := by
  have hidle : ∀ (s : SemSys) (a : Act), (∀ n, s.ctls n = .idle) → Undisturbed s a := by
    intro s a hs new _ _ n id hn
    cases (hs n).symm.trans hn
  have hisr : Reach step Undisturbed (· = initial) { initial with main := .isr } :=
    .next (a := .start) (.start rfl) (hidle _ _ fun _ => rfl) rfl
  have hsemget : Reach step Undisturbed (· = initial) { initial with main := .semget } :=
    .next (a := .main 1) hisr (hidle _ _ fun _ => rfl) rfl
  have hpost : Reach step Undisturbed (· = initial)
      { initial with kernel := some ⟨1, 0, 0⟩, semId := 1, main := .post } :=
    .next (a := .main 1) hsemget (hidle _ _ fun _ => rfl) rfl
  have hsleep : Reach step Undisturbed (· = initial)
      { initial with kernel := some ⟨1, 1, irdPid⟩, semId := 1, main := .loop .outside } :=
    .next (a := .main 1) hpost (hidle _ _ fun _ => rfl) rfl
  have hasked : Reach step Undisturbed (· = initial) askedAsleep :=
    .next (a := .ctlStart 0) hsleep (hidle _ _ fun _ => rfl) rfl
  exact (set_kept askedAsleep hasked).1

def adopted : SemSys :=
  (exec step anyStep initial [.start, .main 0, .ctlStart 0, .ctl 0 5, .main 7]).get (by decide)

theorem semaphore_removed :
    ¬ ∀ s, Reach step anyStep (· = initial) s → s.KeepsSet := by
  intro h
  have hkeep := h adopted (reach_get _ _ _)
  have hnames := hkeep (Or.inl (by decide)) 0 0 _ rfl ⟨⟨5, 0, 0⟩, by decide, by decide⟩
  revert hnames
  decide

end SemSys

end Raspberries.IrAlarm
