import Raspberries.IrAlarm.SemMutex
import Raspberries.IrAlarm.SemRemoved

/-!
# An `iralarmctl` that dies inside

The `semop`s have no `SEM_UNDO`, so the kernel does not give the semaphore back for a
process that ends between them, say at `CTRL-C` while it prints.

`killed_ctl_blocks` says what that does to the daemon: nobody comes in again, neither the
main loop nor the flank handler nor another `iralarmctl`, until the daemon itself ends.
-/

namespace Raspberries.IrAlarm

open SysVSem Transition

theorem bracketStep_of_taken {id : Option Nat} {me : Nat} {set : SemSet} {b : Bracket}
    (hzero : set.value = 0) (hout : b.inside = false)
    (hnames : b = .acquire → Names id (some set)) : bracketStep id me (some set) b = none := by
  cases b with
  | outside => rfl
  | acquire =>
    obtain ⟨set', hset, hid⟩ := hnames rfl
    obtain rfl := Option.some.inj hset
    have hacquire : acquire id me (some set) = none := by
      rw [acquire, if_pos hid, if_neg (by omega)]
    rw [bracketStep, hacquire]
    rfl
  | work | release => cases hout

namespace SemSys

/-- The semaphore is taken, and there is nobody inside to give it back. -/
structure Orphaned (s : SemSys) : Prop where
  taken : ∃ set, s.kernel = some set ∧ set.value = 0
  nobody : ∀ p, ¬ s.Inside p
  looping : s.main = .loop .outside ∨ s.main = .loop .acquire
  kept : ∀ n id, s.ctls n ≠ .rmid id

section Step

variable {s t : SemSys}

theorem Orphaned.main_eq_loop (h : Orphaned s) : ∃ b, s.main = .loop b := by
  rcases h.looping with hm | hm
  · exact ⟨_, hm⟩
  · exact ⟨_, hm⟩

/-- No party gets past its acquire. -/
theorem Orphaned.stuck (h : Orphaned s) (p : SemParty) (me : Nat)
    (hnames : s.bracket p = .acquire → Names (s.idOf p) s.kernel) :
    bracketStep (s.idOf p) me s.kernel (s.bracket p) = none := by
  obtain ⟨set, hset, hzero⟩ := h.taken
  rw [hset] at hnames ⊢
  have hout : (s.bracket p).inside = false := by
    rw [← Bool.not_eq_true]
    exact h.nobody p
  exact bracketStep_of_taken hzero hout hnames

theorem Orphaned.setCtl (h : Orphaned s) {n : Nat} {c : CtlPc}
    (hout : ∀ id b, c = .run id b → b.inside = false) (hkept : ∀ id, c ≠ .rmid id) :
    Orphaned (s.setCtl n c) where
  taken := h.taken
  nobody p hp := h.nobody p (inside_of_setCtl hout hp)
  looping := h.looping
  kept m id hm := by
    have hm' : Function.update s.ctls n c m = .rmid id := hm
    by_cases hmn : m = n
    · rw [hmn, Function.update_self] at hm'
      exact hkept id hm'
    · rw [Function.update_of_ne hmn] at hm'
      exact h.kept m id hm'

theorem orphaned_step {a : Act} (h : Orphaned s) (ha : InOrder s a) (hkill : a ≠ .kill)
    (hterm : a ≠ .term) (hst : step s a = some t) : Orphaned t := by
  obtain ⟨b, hb⟩ := h.main_eq_loop
  cases stepTo_of_step hst with
  | start hm | isr new hm | semget new hm | post new hm | rmid new hm | exit new hm =>
    cases hm.symm.trans hb
  | loop new b b' k hm hstep =>
    have hstuck := h.stuck .main irdPid (ha.acquires .main rfl)
    rw [bracket, hm] at hstuck
    cases hstuck.symm.trans hstep
  | wake =>
    refine ⟨h.taken, ?_, .inr rfl, h.kept⟩
    intro p hp
    refine h.nobody p (inside_of_main hp ?_ rfl rfl rfl)
    intro b hm
    obtain rfl := DaemonPc.loop.inj hm
    rfl
  | term => exact absurd rfl hterm
  | kill => exact absurd rfl hkill
  | flankEnters =>
    refine ⟨h.taken, ?_, h.looping, h.kept⟩
    intro p hp
    cases p with
    | flank => cases hp
    | main => exact h.nobody .main hp
    | callback => exact h.nobody .callback hp
    | ctl n => exact h.nobody (.ctl n) hp
  | flank b' k _ hstep =>
    have hstuck := h.stuck .flank irdPid (ha.acquires .flank rfl)
    cases hstuck.symm.trans hstep
  | callbackEnters =>
    refine ⟨h.taken, ?_, h.looping, h.kept⟩
    intro p hp
    cases p with
    | callback => cases hp
    | main => exact h.nobody .main hp
    | flank => exact h.nobody .flank hp
    | ctl n => exact h.nobody (.ctl n) hp
  | callback b' k _ hstep =>
    have hstuck := h.stuck .callback irdPid (ha.acquires .callback rfl)
    cases hstuck.symm.trans hstep
  | ctlCreates n new id k _ hr =>
    obtain ⟨set, hset, -⟩ := h.taken
    rw [hset] at hr
    cases hr
  | ctlRmid n new id hc => exact absurd hc (h.kept n id)
  | ctlRun n new id b b' k hc hstep =>
    have hstuck := h.stuck (.ctl n) (ctlPid n) (ha.acquires (.ctl n) rfl)
    rw [bracket, idOf, hc] at hstuck
    cases hstuck.symm.trans hstep
  | ctlStart | ctlExists | ctlExit | ctlKill =>
    exact h.setCtl (by rintro id b ⟨⟩) (by rintro id ⟨⟩)
  | ctlGet | ctlEnter =>
    refine h.setCtl ?_ (by rintro id ⟨⟩)
    rintro id b ⟨⟩
    rfl

theorem orphaned_ctlKill {n : Nat} (hmutex : Mutex s.kernel s.Inside) (hown : Ownership s)
    {b : Bracket} (hm : s.main = .loop b) (hin : s.Inside (.ctl n))
    (hst : step s (.ctlKill n) = some t) : Orphaned t := by
  obtain ⟨⟨set, hset, -⟩, hkept⟩ := hown.stored (.inr (.inr ⟨b, hm⟩))
  obtain rfl := Option.some.inj hst
  have hnobody : ∀ p, ¬ (s.setCtl n .idle).Inside p := by
    intro p hp
    have hp' := inside_of_setCtl (by rintro id b ⟨⟩) hp
    obtain rfl := hmutex.one p (.ctl n) hp' hin
    rw [Inside, bracket, SemSys.setCtl] at hp
    simp only [Function.update_self] at hp
    cases hp
  refine ⟨⟨set, hset, ?_⟩, hnobody, ?_, ?_⟩
  · -- while the process was inside the value was not `1`
    have hle := hmutex.le_one set hset
    have hheld : set.value ≠ 1 := fun hone => hmutex.free set hset hone (.ctl n) hin
    omega
  · have hout : ¬ s.Inside .main := fun hmain => by cases hmutex.one .main (.ctl n) hmain hin
    rw [inside_main hm] at hout
    cases b with
    | outside => exact .inl hm
    | acquire => exact .inr hm
    | work | release => exact absurd rfl hout
  · intro m id hc
    have hc' : Function.update s.ctls n .idle m = .rmid id := hc
    by_cases hmn : m = n
    · rw [hmn, Function.update_self] at hc'
      cases hc'
    · rw [Function.update_of_ne hmn] at hc'
      exact hkept m id hc'

end Step

/-! ### Runs -/

/-- The guards of `semaphore_mutex` and `set_kept`. -/
def Orderly (s : SemSys) (a : Act) : Prop := InOrder s a ∧ Undisturbed s a

/-- Nobody ends the daemon, and no acquire fails. -/
def DaemonGoesOn (s : SemSys) (a : Act) : Prop := InOrder s a ∧ a ≠ .kill ∧ a ≠ .term

/-- **A process that dies inside blocks everybody.**  If an `iralarmctl` ends between its
`semop`s while the daemon is in its main loop, behind a run that is `Orderly`, then in every
run after that in which the daemon is not ended and no acquire fails no party is ever
inside again: the main loop completes no cycle and no flank is counted. -/
theorem killed_ctl_blocks {s t u : SemSys} {n : Nat} {b : Bracket}
    (hs : Reach step Orderly (· = initial) s) (hm : s.main = .loop b) (hin : s.Inside (.ctl n))
    (hkill : step s (.ctlKill n) = some t) (hu : Reach step DaemonGoesOn (· = t) u) :
    (∀ p, ¬ u.Inside p) ∧ (u.main = .loop .outside ∨ u.main = .loop .acquire) := by
  have hmutex : Mutex s.kernel s.Inside := by
    apply hs.invariant_from
    · refine ⟨by rintro set ⟨⟩, by rintro set ⟨⟩, ?_⟩
      intro p q hp
      cases p <;> cases hp
    · intro s a t hmutex ha
      exact mutex_step hmutex ha.1
  have hown : Ownership s := ownership_reach (hs.mono fun _ _ ha => ha.2)
  have horphaned : Orphaned u := by
    apply hu.invariant_from (orphaned_ctlKill hmutex hown hm hin hkill)
    intro s a t h ha
    exact orphaned_step h ha.1 ha.2.1 ha.2.2
  exact ⟨horphaned.nobody, horphaned.looping⟩

/-- The daemon is behind its start, and a party that acquires has the identifier of the set. -/
def Started (s : SemSys) (a : Act) : Prop :=
  s.main ≠ .semget ∧ s.main ≠ .post ∧
    ∀ p ∈ a.party, s.bracket p = .acquire → Names (s.idOf p) s.kernel

instance (s : SemSys) (a : Act) : Decidable (Started s a) :=
  inferInstanceAs (Decidable (_ ∧ _ ∧ ∀ p ∈ a.party, _))

theorem Started.inOrder {s : SemSys} {a : Act} (h : Started s a) : InOrder s a where
  acquires p hp := h.2.2 p hp
  posts _ _ hm := absurd hm h.2.1

theorem Started.orderly {s : SemSys} {a : Act} (h : Started s a) : Orderly s a :=
  ⟨h.inOrder, fun _ _ hm => absurd hm h.1⟩

def firstSleep : SemSys :=
  { initial with kernel := some ⟨1, 1, irdPid⟩, semId := 1, main := .loop .outside }

theorem reach_firstSleep : Reach step Orderly (· = initial) firstSleep := by
  have hidle : ∀ (s : SemSys) (a : Act), (∀ n, s.ctls n = .idle) → Undisturbed s a := by
    intro s a hs new _ _ n id hn
    cases (hs n).symm.trans hn
  have hcalm : ∀ (s : SemSys), s.main ≠ .post → s.bracket .main ≠ .acquire →
      InOrder s (.main 1) := by
    intro s hpost hmain
    refine ⟨?_, fun _ _ hm => absurd hm hpost⟩
    rintro p ⟨⟩ hb
    exact absurd hb hmain
  have hisr : Reach step Orderly (· = initial) { initial with main := .isr } :=
    .next (a := .start) (.start rfl)
      ⟨⟨by rintro p ⟨⟩, by rintro new ⟨⟩⟩, hidle _ _ fun _ => rfl⟩ rfl
  have hsemget : Reach step Orderly (· = initial) { initial with main := .semget } :=
    .next (a := .main 1) hisr ⟨hcalm _ (by simp) (by simp [bracket]), hidle _ _ fun _ => rfl⟩ rfl
  have hpost : Reach step Orderly (· = initial)
      { initial with kernel := some ⟨1, 0, 0⟩, semId := 1, main := .post } :=
    .next (a := .main 1) hsemget ⟨hcalm _ (by simp) (by simp [bracket]), hidle _ _ fun _ => rfl⟩
      rfl
  refine .next (a := .main 1) hpost ⟨⟨?_, fun _ _ _ => ⟨?_, ?_⟩⟩, hidle _ _ fun _ => rfl⟩ rfl
  · rintro p ⟨⟩ hb
    cases hb
  · rintro set ⟨rfl⟩
    rfl
  · rintro p hp
    cases p <;> cases hp

def showing : SemSys :=
  (exec step Started firstSleep
    [.ctlStart 0, .ctl 0 0, .ctl 0 0, .ctlEnter 0, .ctl 0 0]).get (by decide)

def orphaned : SemSys := (exec step Started (showing.setCtl 0 .idle) [.wake]).get (by decide)

theorem killed_ctl_blocks_showing :
    (∀ p, ¬ orphaned.Inside p) ∧
      (orphaned.main = .loop .outside ∨ orphaned.main = .loop .acquire) := by
  have hshowing : Reach step Started (· = firstSleep) showing := reach_get _ _ _
  have hwake : Reach step DaemonGoesOn (· = showing.setCtl 0 .idle) orphaned :=
    .next (a := .wake) (.start rfl) ⟨Started.inOrder (by decide), by simp, by simp⟩ rfl
  exact killed_ctl_blocks (n := 0)
    (reach_firstSleep.trans (hshowing.mono fun _ _ h => h.orderly)) (b := .outside)
    (by decide) (by rw [Inside]; decide) rfl hwake

end SemSys

end Raspberries.IrAlarm
