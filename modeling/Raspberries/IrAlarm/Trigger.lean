import Raspberries.Lib.Window
import Raspberries.IrAlarm.MainLoop

/-!
# When the alarm is raised

In `ALRM_NONE` the loop keeps one counter, up on a bad cycle and down on a good
one but not below zero, and raises the alarm when it exceeds `ir_minalarm`.
`alarm_trigger` says what that means for a run: cycle `n` raises the alarm
exactly when some window of cycles that ends at `n`, and lies after the last
return to `ALRM_NONE`, has more than `ir_minalarm` more bad cycles than good
ones.

The counter is a `size_t`, so this needs `ir_minalarm + 1` to fit in it.  On a
32-bit machine one value of the `uint32_t` threshold does not, and with it the
alarm is never raised (`alarm_trigger_fails`).
-/

namespace Raspberries.IrAlarm

open Window

def EntersNone (M : Nat) (c : Settings) (inp : Nat → Tick) (e : Nat) : Prop :=
  (daemonAt M c inp e).astate ≠ .none ∧ (daemonAt M c inp (e + 1)).astate = .none

def Event.isDo : Event → Bool
  | .doAlarmAction _ => true
  | _ => false

section Steps

variable {M : Nat} {c : Settings} {inp : Nat → Tick} {n : Nat}

/-- In `ALRM_NONE` a cycle raises the alarm or stays. -/
theorem none_step (hn : (daemonAt M c inp n).astate = .none) :
    ((countedAt M c inp n).irAlrmCycls > c.irMinalarm ∧
      (daemonAt M c inp (n + 1)).astate = .preactive) ∨
    (¬ (countedAt M c inp n).irAlrmCycls > c.irMinalarm ∧
      (daemonAt M c inp (n + 1)).astate = .none ∧
      (daemonAt M c inp (n + 1)).irAlrmCycls = (countedAt M c inp n).irAlrmCycls) := by
  obtain ⟨r, hr, hd, -⟩ := run_outcome M c inp n
  rw [hd]
  cases hr with
  | raise _ h => exact Or.inl ⟨h, rfl⟩
  | escalate h => simp [hn] at h
  | clear h => simp [hn] at h
  | stay h => exact Or.inr ⟨h (by simpa using hn), by simpa using hn, rfl⟩

theorem irAlrmCycls_of_entersNone (h : EntersNone M c inp n) :
    (daemonAt M c inp (n + 1)).irAlrmCycls = 0 := by
  obtain ⟨hne, hn⟩ := h
  obtain ⟨r, hr, hd, -⟩ := run_outcome M c inp n
  rw [hd] at hn ⊢
  cases hr with
  | raise => exact absurd hn (by simp [raiseAlarm])
  | escalate => exact absurd hn (by simp [escalateAlarm])
  | clear => rfl
  | stay => exact absurd (by simpa using hn) hne

/-- `doAlarmAction` runs once in the cycle that raises the alarm, and in no other. -/
theorem count_doAlarmAction : (callsAt M c inp n).countP Event.isDo =
    if (daemonAt M c inp n).astate = .none ∧ (daemonAt M c inp (n + 1)).astate = .preactive
    then 1 else 0 := by
  obtain ⟨r, hr, hd, hc⟩ := run_outcome M c inp n
  rw [hd, hc]
  cases hr with
  | raise h => rw [if_pos ⟨by simpa using h, rfl⟩]; rfl
  | escalate => rw [if_neg (by simp [escalateAlarm])]; rfl
  | clear => rw [if_neg (by simp [clearAlarm])]; rfl
  | stay =>
    rw [if_neg]
    · rfl
    · intro hex
      obtain ⟨h1, h2⟩ := hex
      simp [h1] at h2

end Steps

/-! ### The counter in `ALRM_NONE` -/

/-- The counter before cycle `n`, counted from `a`: cycle `a` is the first one
after the last return to `ALRM_NONE`, or the first one of all. -/
structure CountsFrom (M : Nat) (c : Settings) (inp : Nat → Tick) (a n : Nat) : Prop where
  le : a ≤ n
  counter : (daemonAt M c inp n).irAlrmCycls = level (Bad c inp) a (n - a)
  bound : (daemonAt M c inp n).irAlrmCycls ≤ c.irMinalarm
  before : ∀ e < n, EntersNone M c inp e → e < a
  start : a = 0 ∨ EntersNone M c inp (a - 1)

variable {M : Nat} {c : Settings} {inp : Nat → Tick}

theorem CountsFrom.counted {a n : Nat} (h : CountsFrom M c inp a n) (hM : c.irMinalarm + 1 < M) :
    (countedAt M c inp n).irAlrmCycls = level (Bad c inp) a (n + 1 - a) := by
  have hle := h.le
  have hb := h.bound
  rw [countedAt_irAlrmCycls, Nat.mod_eq_of_lt (by omega), h.counter,
    show n + 1 - a = (n - a) + 1 by omega, level, show a + (n - a) = n by omega]

/-- Before every cycle in `ALRM_NONE` the counter counts from some cycle. -/
theorem exists_countsFrom (hM : c.irMinalarm + 1 < M) :
    ∀ n, (daemonAt M c inp n).astate = .none → ∃ a, CountsFrom M c inp a n := by
  intro n
  induction n with
  | zero =>
    intro _
    exact ⟨0, Nat.le_refl 0, rfl, Nat.zero_le _, fun e he => absurd he (Nat.not_lt_zero e),
      Or.inl rfl⟩
  | succ n ih =>
    intro hn1
    by_cases hn : (daemonAt M c inp n).astate = .none
    · obtain ⟨a, ha⟩ := ih hn
      rcases none_step hn with ⟨-, hp⟩ | ⟨hle, -, hcnt⟩
      · rw [hp] at hn1; exact absurd hn1 (by decide)
      · refine ⟨a, Nat.le_succ_of_le ha.le, ?_, ?_, ?_, ha.start⟩
        · rw [hcnt, ha.counted hM]
        · rw [hcnt]; omega
        · intro e he hent
          rcases Nat.lt_succ_iff_lt_or_eq.mp he with hlt | rfl
          · exact ha.before e hlt hent
          · exact absurd hn hent.1
    · have hent : EntersNone M c inp n := ⟨hn, hn1⟩
      have h0 := irAlrmCycls_of_entersNone hent
      refine ⟨n + 1, Nat.le_refl _, ?_, by omega, fun e he _ => he, Or.inr hent⟩
      rw [h0, Nat.sub_self, level]

/-- **The alarm trigger.**  A cycle in `ALRM_NONE` goes to `ALRM_PREACTIVE` exactly
when a window that ends with it, after the last return to `ALRM_NONE`, has more
than `ir_minalarm` more bad cycles than good ones; that cycle calls
`doAlarmAction` once, and no other cycle calls it. -/
theorem alarm_trigger (w : Nat) (c : Settings) (inp : Nat → Tick) (n : Nat)
    (hw : c.irMinalarm + 1 < 2 ^ w) :
    ((daemonAt (2 ^ w) c inp n).astate = .none →
      ((daemonAt (2 ^ w) c inp (n + 1)).astate = .preactive ↔
        ∃ j ≤ n, (∀ e < n, EntersNone (2 ^ w) c inp e → e < j) ∧
          (count (Bad c inp) j (n + 1) : Int) - count (fun k => ¬ Bad c inp k) j (n + 1) >
            c.irMinalarm)) ∧
    (callsAt (2 ^ w) c inp n).countP Event.isDo =
      if (daemonAt (2 ^ w) c inp n).astate = .none ∧
        (daemonAt (2 ^ w) c inp (n + 1)).astate = .preactive then 1 else 0 := by
  refine ⟨fun hn => ?_, count_doAlarmAction⟩
  obtain ⟨a, ha⟩ := exists_countsFrom hw n hn
  have hle := ha.le
  have hmeasure := lt_level_iff (Bad c inp) a (n + 1 - a) c.irMinalarm
  rw [← ha.counted hw, show a + (n + 1 - a) = n + 1 by omega] at hmeasure
  have hraise : (daemonAt (2 ^ w) c inp (n + 1)).astate = .preactive ↔
      c.irMinalarm < (countedAt (2 ^ w) c inp n).irAlrmCycls := by
    rcases none_step hn with ⟨hgt, hp⟩ | ⟨hle', hs, -⟩
    · exact ⟨fun _ => hgt, fun _ => hp⟩
    · rw [hs]; exact ⟨fun h => absurd h (by decide), fun h => absurd h hle'⟩
  rw [hraise, hmeasure]
  refine ⟨?_, ?_⟩
  · intro hex
    obtain ⟨j, haj, hjn, hgt⟩ := hex
    have hj : j ≤ n := by
      rcases Nat.lt_or_eq_of_le hjn with hlt | rfl
      · omega
      · rw [rise_self] at hgt; omega
    exact ⟨j, hj, fun e he hent => Nat.lt_of_lt_of_le (ha.before e he hent) haj, hgt⟩
  · intro hex
    obtain ⟨j, hj, hent, hgt⟩ := hex
    have haj : a ≤ j := by
      rcases ha.start with h0 | hstart
      · omega
      · -- `a - 1` is the last return to `ALRM_NONE`
        by_cases h0 : a = 0
        · omega
        · have := hent (a - 1) (by omega) hstart
          omega
    exact ⟨j, haj, by omega, hgt⟩

/-! ### A threshold at the top of the range -/

theorem never_raised (hM : 0 < M) (hmax : M ≤ c.irMinalarm + 1) :
    ∀ n, (daemonAt M c inp n).astate = .none ∧ (daemonAt M c inp n).irAlrmCycls < M := by
  intro n
  induction n with
  | zero => exact ⟨rfl, hM⟩
  | succ n ih =>
    have hlt : (countedAt M c inp n).irAlrmCycls < M := by
      rw [countedAt_irAlrmCycls]
      split
      · exact Nat.mod_lt _ hM
      · omega
    rcases none_step ih.1 with ⟨hgt, -⟩ | ⟨-, hs, hcnt⟩
    · omega
    · exact ⟨hs, by omega⟩

def maxMinalarm : Settings := { Settings.initial false with irMinalarm := 2 ^ 32 - 1 }

def noFlanks (_ : Nat) : Tick := ⟨0, 0⟩

/-- With a 32-bit `size_t` and `ir_minalarm = 4294967295` the counter wraps: after
`2 ^ 32` bad cycles in a row the alarm is not raised. -/
theorem alarm_trigger_fails :
    ¬ ∀ n, (daemonAt (2 ^ 32) maxMinalarm noFlanks n).astate = .none →
      ((daemonAt (2 ^ 32) maxMinalarm noFlanks (n + 1)).astate = .preactive ↔
        ∃ j ≤ n, (∀ e < n, EntersNone (2 ^ 32) maxMinalarm noFlanks e → e < j) ∧
          (count (Bad maxMinalarm noFlanks) j (n + 1) : Int) -
              count (fun k => ¬ Bad maxMinalarm noFlanks k) j (n + 1) >
            maxMinalarm.irMinalarm) := by
  intro hall
  have hthreshold : maxMinalarm.irMinalarm = 4294967295 := rfl
  have hnever := @never_raised (2 ^ 32) maxMinalarm noFlanks (by decide) (by decide)
  have hbad : ∀ k, Bad maxMinalarm noFlanks k := fun _ => Nat.zero_lt_succ 7
  have hraised := (hall 4294967295 (hnever _).1).mpr ⟨0, Nat.zero_le _,
    fun e _ hent => absurd (hnever e).1 hent.1, by
      rw [count_of_all _ fun k _ _ => hbad k, count_of_none _ fun k _ _ => not_not.mpr (hbad k),
        hthreshold]
      decide⟩
  rw [(hnever _).1] at hraised
  exact absurd hraised (by decide)

/-- The alarm is raised by the third bad cycle with the default settings. -/
theorem alarm_trigger_default :
    (Settings.initial false).irMinalarm + 1 < 2 ^ 32 ∧
      (daemonAt (2 ^ 32) (Settings.initial false) noFlanks 3).astate = .preactive := by
  refine ⟨by decide, ((alarm_trigger 32 (Settings.initial false) noFlanks 2 (by decide)).1
    (by decide)).mpr ⟨0, by decide, ?_, by decide⟩⟩
  intro e he hent
  exact absurd (show (daemonAt (2 ^ 32) (Settings.initial false) noFlanks e).astate = .none by
    interval_cases e <;> decide) hent.1

end Raspberries.IrAlarm
