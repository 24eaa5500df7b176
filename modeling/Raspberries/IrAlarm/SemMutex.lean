import Raspberries.IrAlarm.SemSys
import Raspberries.Lib.Transition

/-!
# Is `SEM_ID` a mutex?

Two things can go wrong.  A `semop` with `-1` can fail, because `sem_id` is not assigned
yet or the set has been removed, and the caller goes on as if it had the semaphore.  And
the `+1` of a start is unconditional, also on a set that a killed daemon has left
(`semaphore_two_after_restart`).

`semaphore_mutex` proves that these are all: in every run in which no acquire fails and
every first `+1` comes on a semaphore that is `0` with nobody inside, the semaphore stays
at most `1` and at most one party is between its `semop`s.
-/

namespace Raspberries.IrAlarm

open SysVSem Transition

/-- One step of the bracket keeps the lock. -/
theorem mutex_bracketStep {P : Type*} {k k' : Kernel} {inside inside' : P → Prop} {p : P}
    {b b' : Bracket} {id : Option Nat} {me : Nat} (h : Mutex k inside)
    (hb : bracketStep id me k b = some (b', k')) (hid : b = .acquire → Names id k)
    (hp : inside p ↔ b.inside = true) (hp' : inside' p ↔ b'.inside = true)
    (hother : ∀ q, q ≠ p → (inside' q ↔ inside q)) : Mutex k' inside' := by
  cases b with
  | outside => cases hb
  | acquire =>
    obtain ⟨⟨ok, k''⟩, hr, heq⟩ := Option.map_eq_some_iff.mp hb
    obtain ⟨rfl, rfl⟩ := Prod.mk.inj heq
    refine h.acquire p (hid rfl) hr fun q hq => ?_
    by_cases hqp : q = p
    · exact Or.inl hqp
    · exact Or.inr ((hother q hqp).mp hq)
  | work =>
    obtain ⟨rfl, rfl⟩ := Prod.mk.inj (Option.some.inj hb)
    refine h.leave fun q hq => ?_
    by_cases hqp : q = p
    · rw [hqp]
      exact hp.mpr rfl
    · exact (hother q hqp).mp hq
  | release =>
    obtain ⟨rfl, rfl⟩ := Prod.mk.inj (Option.some.inj hb)
    refine h.release (hp.mpr rfl) fun q hq => ?_
    have hqp : q ≠ p := by
      rintro rfl
      exact absurd (hp'.mp hq) nofun
    exact ⟨hqp, (hother q hqp).mp hq⟩

namespace SemSys

def Act.party : Act → Option SemParty
  | .main _ => some .main
  | .flank => some .flank
  | .callback => some .callback
  | .ctl n _ => some (.ctl n)
  | _ => none

/-- No acquire fails, and the first `+1` of a start comes on a semaphore that is `0` with
nobody inside. -/
structure InOrder (s : SemSys) (a : Act) : Prop where
  acquires : ∀ p, a.party = some p → s.bracket p = .acquire → Names (s.idOf p) s.kernel
  posts : ∀ new, a = .main new → s.main = .post →
    (∀ set, s.kernel = some set → set.value = 0) ∧ ∀ p, ¬ s.Inside p

/-! ### One step -/

section Inside

variable {s t : SemSys}

theorem inside_main {b : Bracket} (h : s.main = .loop b) : s.Inside .main ↔ b.inside = true := by
  rw [Inside, bracket, h]

theorem inside_ctl {n : Nat} {id : Option Nat} {b : Bracket} (h : s.ctls n = .run id b) :
    s.Inside (.ctl n) ↔ b.inside = true := by
  rw [Inside, bracket, h]

theorem inside_of_main {q : SemParty} (h : t.Inside q)
    (hm : ∀ b, t.main = .loop b → b.inside = false) (hflank : t.flank = s.flank)
    (hcallback : t.callback = s.callback) (hctls : t.ctls = s.ctls) : s.Inside q := by
  cases q with
  | main =>
    rw [Inside, bracket] at h
    split at h
    next b hb =>
      rw [hm b hb] at h
      cases h
    next => cases h
  | flank => rwa [Inside, bracket, hflank] at h
  | callback => rwa [Inside, bracket, hcallback] at h
  | ctl n => rwa [Inside, bracket, hctls] at h

theorem inside_setCtl {n : Nat} {c : CtlPc} {k : Kernel} {q : SemParty} (hq : q ≠ .ctl n) :
    Inside { s.setCtl n c with kernel := k } q ↔ s.Inside q := by
  cases q with
  | ctl m =>
    have hm : m ≠ n := fun hm => hq (hm ▸ rfl)
    have hsame : (s.setCtl n c).ctls m = s.ctls m := Function.update_of_ne hm ..
    rw [Inside, Inside, bracket, bracket]
    dsimp only
    rw [hsame]
  | main | flank | callback => rfl

theorem inside_of_setCtl {n : Nat} {c : CtlPc} {q : SemParty}
    (hc : ∀ id b, c = .run id b → b.inside = false) (h : Inside (s.setCtl n c) q) : s.Inside q := by
  by_cases hq : q = .ctl n
  · subst hq
    have hself : (s.setCtl n c).ctls n = c := Function.update_self ..
    rw [Inside, bracket, hself] at h
    split at h
    next id b =>
      rw [hc id b rfl] at h
      cases h
    next => cases h
  · exact (inside_setCtl (k := s.kernel) hq).mp h

end Inside

section Step

variable {s t : SemSys}

theorem mutex_down (hs : Mutex s.kernel s.Inside) :
    Mutex s.kernel (Inside { s with main := .down, flank := .outside, callback := .outside }) := by
  refine hs.leave fun q hq => ?_
  cases q with
  | main | flank | callback => cases hq
  | ctl n => exact hq

theorem mutex_main {k : Kernel} {m : DaemonPc} {id : Nat} (hs : Mutex k s.Inside)
    (hm : ∀ b, m = .loop b → b.inside = false) :
    Mutex k (Inside { s with kernel := k, main := m, semId := id }) :=
  hs.leave fun _ hq => inside_of_main hq hm rfl rfl rfl

theorem mutex_setCtl {k : Kernel} {n : Nat} {c : CtlPc} (hs : Mutex k s.Inside)
    (hc : ∀ id b, c = .run id b → b.inside = false) :
    Mutex k (Inside { s.setCtl n c with kernel := k }) :=
  hs.leave fun _ hq => inside_of_setCtl hc hq

theorem mutex_loop {b b' : Bracket} {k : Kernel} (hs : Mutex s.kernel s.Inside)
    (hm : s.main = .loop b) (hb : bracketStep (some s.semId) irdPid s.kernel b = some (b', k))
    (hid : s.bracket .main = .acquire → Names (some s.semId) s.kernel) :
    Mutex k (Inside { s with kernel := k, main := .loop b' }) := by
  refine mutex_bracketStep (p := .main) hs hb ?_ (inside_main hm) (inside_main rfl) ?_
  · rwa [bracket, hm] at hid
  · intro q hq
    cases q with
    | main => exact absurd rfl hq
    | flank | callback | ctl n => rfl

theorem mutex_run {n : Nat} {id : Option Nat} {b b' : Bracket} {k : Kernel}
    (hs : Mutex s.kernel s.Inside) (hc : s.ctls n = .run id b)
    (hb : bracketStep id (ctlPid n) s.kernel b = some (b', k))
    (hid : s.bracket (.ctl n) = .acquire → Names (s.idOf (.ctl n)) s.kernel) :
    Mutex k (Inside { s.setCtl n (.run id b') with kernel := k }) := by
  rw [bracket, idOf, hc] at hid
  exact mutex_bracketStep (p := .ctl n) hs hb hid (inside_ctl hc)
    (@inside_ctl _ n id _ (Function.update_self ..)) fun q hq => inside_setCtl hq

theorem mutex_flank {b' : Bracket} {k : Kernel} (hs : Mutex s.kernel s.Inside)
    (hb : bracketStep (some s.semId) irdPid s.kernel s.flank = some (b', k))
    (hid : s.flank = .acquire → Names (some s.semId) s.kernel) :
    Mutex k (Inside { s with flank := b', kernel := k }) := by
  refine mutex_bracketStep (p := .flank) hs hb hid Iff.rfl Iff.rfl ?_
  intro q hq
  cases q with
  | flank => exact absurd rfl hq
  | main | callback | ctl n => rfl

theorem mutex_callback {b' : Bracket} {k : Kernel} (hs : Mutex s.kernel s.Inside)
    (hb : bracketStep (some s.semId) irdPid s.kernel s.callback = some (b', k))
    (hid : s.callback = .acquire → Names (some s.semId) s.kernel) :
    Mutex k (Inside { s with callback := b', kernel := k }) := by
  refine mutex_bracketStep (p := .callback) hs hb hid Iff.rfl Iff.rfl ?_
  intro q hq
  cases q with
  | callback => exact absurd rfl hq
  | main | flank | ctl n => rfl

theorem mutex_step {a : Act} (hs : Mutex s.kernel s.Inside) (ha : InOrder s a)
    (h : step s a = some t) : Mutex t.kernel t.Inside := by
  cases stepTo_of_step h with
  | start | isr | term => exact mutex_main hs nofun
  | semget new => exact mutex_main (hs.create new) nofun
  | post new hm =>
    obtain ⟨hzero, hnone⟩ := ha.posts new rfl hm
    refine mutex_main (hs.post hzero hnone) ?_
    rintro b ⟨⟩
    rfl
  | loop new b b' k hm hb => exact mutex_loop hs hm hb (ha.acquires .main rfl)
  | rmid => exact mutex_main (hs.remove _) nofun
  | wake =>
    refine mutex_main hs ?_
    rintro b ⟨⟩
    rfl
  | exit | kill => exact mutex_down (s := s) hs
  | flankEnters =>
    refine hs.leave fun q hq => ?_
    cases q with
    | flank => cases hq
    | main | callback | ctl n => exact hq
  | flank b' k _ hb => exact mutex_flank hs hb (ha.acquires .flank rfl)
  | callbackEnters =>
    refine hs.leave fun q hq => ?_
    cases q with
    | callback => cases hq
    | main | flank | ctl n => exact hq
  | callback b' k _ hb => exact mutex_callback hs hb (ha.acquires .callback rfl)
  | ctlStart | ctlExists | ctlExit | ctlKill => exact mutex_setCtl hs nofun
  | ctlCreates n new id k hc hr => exact mutex_setCtl (hs.createExcl hr) nofun
  | ctlRmid => exact mutex_setCtl (hs.remove _) nofun
  | ctlGet | ctlEnter =>
    refine mutex_setCtl hs ?_
    rintro id b ⟨⟩
    rfl
  | ctlRun n new id b b' k hc hb => exact mutex_run hs hc hb (ha.acquires (.ctl n) rfl)

end Step

/-! ### Runs -/

/-- The value is at most `1` and at most one party is inside. -/
def Exclusive (s : SemSys) : Prop :=
  (∀ set, s.kernel = some set → set.value ≤ 1) ∧ ∀ p q, s.Inside p → s.Inside q → p = q

/-- **`SEM_ID` is a mutex** in every run in which no acquire fails and every first `+1`
comes on a semaphore that is `0` with nobody inside. -/
theorem semaphore_mutex (s : SemSys) (hs : Reach step InOrder (· = initial) s) :
    s.Exclusive := by
  have hmutex : Mutex s.kernel s.Inside := by
    apply hs.invariant_from
    · refine ⟨nofun, nofun, fun p q hp => ?_⟩
      cases p <;> cases hp
    · exact fun _ _ _ => mutex_step
  exact ⟨hmutex.le_one, hmutex.one⟩

def firstCycle : SemSys :=
  { initial with kernel := some ⟨1, 0, irdPid⟩, semId := 1, main := .loop .work }

theorem semaphore_mutex_first_cycle : firstCycle.Exclusive := by
  have hquiet : ∀ (s : SemSys) (a : Act), s.main ≠ .post →
      (∀ p, a.party = some p → s.bracket p ≠ .acquire) → InOrder s a := by
    intro s a hpost hacquire
    exact ⟨fun p hp hb => absurd hb (hacquire p hp), fun _ _ hm => absurd hm hpost⟩
  have hmain : ∀ (s : SemSys) (new : Nat), s.bracket .main ≠ .acquire →
      ∀ p, Act.party (.main new) = some p → s.bracket p ≠ .acquire := by
    rintro s new hs p ⟨⟩
    exact hs
  have hisr : Reach step InOrder (· = initial) { initial with main := .isr } :=
    .next (a := .start) (.start rfl) (hquiet _ _ nofun nofun) rfl
  have hsemget : Reach step InOrder (· = initial) { initial with main := .semget } :=
    .next (a := .main 1) hisr (hquiet _ _ nofun (hmain _ _ nofun)) rfl
  have hpost : Reach step InOrder (· = initial)
      { initial with kernel := some ⟨1, 0, 0⟩, semId := 1, main := .post } :=
    .next (a := .main 1) hsemget (hquiet _ _ nofun (hmain _ _ nofun)) rfl
  have hsleep : Reach step InOrder (· = initial)
      { initial with kernel := some ⟨1, 1, irdPid⟩, semId := 1, main := .loop .outside } := by
    refine .next (a := .main 1) hpost ⟨?_, fun _ _ _ => ⟨?_, ?_⟩⟩ rfl
    · rintro p ⟨⟩ hb
      cases hb
    · rintro set ⟨rfl⟩
      rfl
    · rintro p hp
      cases p <;> cases hp
  have hwake : Reach step InOrder (· = initial)
      { initial with kernel := some ⟨1, 1, irdPid⟩, semId := 1, main := .loop .acquire } :=
    .next (a := .wake) hsleep (hquiet _ _ nofun nofun) rfl
  refine semaphore_mutex firstCycle (.next (a := .main 1) hwake ⟨?_, nofun⟩ rfl)
  rintro p ⟨⟩ -
  exact ⟨⟨1, 1, irdPid⟩, rfl, rfl⟩

def restarted : SemSys :=
  (exec step anyStep initial
    [.start, .main 1, .main 1, .main 1, .kill, .start, .main 1, .main 1, .main 1]).get (by decide)

theorem semaphore_two_after_restart :
    ¬ ∀ s, Reach step anyStep (· = initial) s → s.Exclusive := by
  intro h
  have hexclusive := h restarted (reach_get _ _ _)
  exact absurd (hexclusive.1 ⟨1, 2, irdPid⟩ (by decide)) (by decide)

end SemSys

end Raspberries.IrAlarm
