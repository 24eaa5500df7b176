import Raspberries.Lib.Window
import Raspberries.IrAlarm.MainLoop

/-!
# How an alarm ends

A raised alarm is in `ALRM_PREACTIVE`.  It becomes active when the clock is more
than ten seconds past the time the alarm was raised at; otherwise it is cleared
by more than `ir_rstalarm` good cycles since it was raised.  An active alarm is
cleared by more than `ir_rstalarm` good cycles since it became active.

The loop has one counter of good cycles for all of this, and it runs on in
`ALRM_NONE`; it is right because both ways into an alarm state reset it.
`alarm_escalation` puts the pieces together for whole runs: which cycle leaves a
state and where to, that no other transition happens, and that `doAlarmAction`
and `undoAlarmAction` alternate.

As for the trigger, `ir_rstalarm + 1` has to fit in a `size_t`
(`alarm_escalation_fails`).
-/

namespace Raspberries.IrAlarm

open Window

def Enters (M : Nat) (c : Settings) (inp : Nat → Tick) (st : AlrmState) (m : Nat) : Prop :=
  (daemonAt M c inp m).astate ≠ st ∧ (daemonAt M c inp (m + 1)).astate = st

/-- In cycle `n` the clock is more than ten seconds past its reading in cycle `m`. -/
def Expired (inp : Nat → Tick) (m n : Nat) : Prop := (inp n).now - (inp m).now > 10

/-- More than `ir_rstalarm` good cycles in `(m, n]`. -/
def Recovered (c : Settings) (inp : Nat → Tick) (m n : Nat) : Prop :=
  count (fun k => ¬ Bad c inp k) (m + 1) (n + 1) > c.irRstalarm

instance (inp : Nat → Tick) (m n : Nat) : Decidable (Expired inp m n) :=
  inferInstanceAs (Decidable (_ > _))

instance (c : Settings) (inp : Nat → Tick) (m n : Nat) : Decidable (Recovered c inp m n) :=
  inferInstanceAs (Decidable (_ > _))

/-- The state after `st` and before the next one, in one cycle. -/
def Follows : AlrmState → AlrmState → Prop
  | .none, st => st = .none ∨ st = .preactive
  | .preactive, _ => True
  | .active, st => st = .active ∨ st = .none

/-- The calls of `doAlarmAction` and `undoAlarmAction` in the first `n` cycles,
`true` for the former. -/
def actionCalls (M : Nat) (c : Settings) (inp : Nat → Tick) : Nat → List Bool
  | 0 => []
  | n + 1 => actionCalls M c inp n ++ (callsAt M c inp n).filterMap fun
      | .doAlarmAction _ => some true
      | .undoAlarmAction _ => some false
      | _ => none

section Steps

variable {M : Nat} {c : Settings} {inp : Nat → Tick} {n : Nat}

theorem preactive_step (hn : (daemonAt M c inp n).astate = .preactive) :
    ((inp n).now - (daemonAt M c inp n).irAlrmStart > 10 ∧
      (daemonAt M c inp (n + 1)).astate = .active) ∨
    (¬ (inp n).now - (daemonAt M c inp n).irAlrmStart > 10 ∧
      (countedAt M c inp n).irRecvdCycls > c.irRstalarm ∧
      (daemonAt M c inp (n + 1)).astate = .none) ∨
    (¬ (inp n).now - (daemonAt M c inp n).irAlrmStart > 10 ∧
      ¬ (countedAt M c inp n).irRecvdCycls > c.irRstalarm ∧
      (daemonAt M c inp (n + 1)).astate = .preactive ∧
      (daemonAt M c inp (n + 1)).irAlrmStart = (daemonAt M c inp n).irAlrmStart ∧
      (daemonAt M c inp (n + 1)).irRecvdCycls = (countedAt M c inp n).irRecvdCycls) := by
  obtain ⟨r, hr, hd, -⟩ := run_outcome M c inp n
  rw [hd]
  cases hr with
  | raise h => simp [hn] at h
  | escalate _ h => exact Or.inl ⟨by simpa using h, rfl⟩
  | clear ht h =>
    have ht' : ¬ (inp n).now - (daemonAt M c inp n).irAlrmStart > 10 := by simpa [hn] using ht
    exact Or.inr (Or.inl ⟨ht', h, rfl⟩)
  | stay _ ht h =>
    have hst : (countedAt M c inp n).astate = .preactive := by simpa using hn
    exact Or.inr (Or.inr ⟨by simpa using ht hst, h (by rw [hst]; decide), hst, by simp, rfl⟩)

theorem active_step (hn : (daemonAt M c inp n).astate = .active) :
    ((countedAt M c inp n).irRecvdCycls > c.irRstalarm ∧
      (daemonAt M c inp (n + 1)).astate = .none) ∨
    (¬ (countedAt M c inp n).irRecvdCycls > c.irRstalarm ∧
      (daemonAt M c inp (n + 1)).astate = .active ∧
      (daemonAt M c inp (n + 1)).irRecvdCycls = (countedAt M c inp n).irRecvdCycls) := by
  obtain ⟨r, hr, hd, -⟩ := run_outcome M c inp n
  rw [hd]
  cases hr with
  | raise h => simp [hn] at h
  | escalate h => simp [hn] at h
  | clear _ h => exact Or.inl ⟨h, rfl⟩
  | stay _ _ h =>
    have hst : (countedAt M c inp n).astate = .active := by simpa using hn
    exact Or.inr ⟨h (by rw [hst]; decide), hst, rfl⟩

theorem enters_preactive (h : Enters M c inp .preactive n) :
    (daemonAt M c inp (n + 1)).irRecvdCycls = 0 ∧
      (daemonAt M c inp (n + 1)).irAlrmStart = (inp n).now := by
  obtain ⟨hne, hn⟩ := h
  obtain ⟨r, hr, hd, -⟩ := run_outcome M c inp n
  rw [hd] at hn ⊢
  cases hr with
  | raise => exact ⟨rfl, rfl⟩
  | escalate => exact absurd hn (by simp [escalateAlarm])
  | clear => exact absurd hn (by simp [clearAlarm])
  | stay => exact absurd (by simpa using hn) hne

theorem enters_active (h : Enters M c inp .active n) :
    (daemonAt M c inp (n + 1)).irRecvdCycls = 0 := by
  obtain ⟨hne, hn⟩ := h
  obtain ⟨r, hr, hd, -⟩ := run_outcome M c inp n
  rw [hd] at hn ⊢
  cases hr with
  | raise => exact absurd hn (by simp [raiseAlarm])
  | escalate => rfl
  | clear => exact absurd hn (by simp [clearAlarm])
  | stay => exact absurd (by simpa using hn) hne

/-- No other transition. -/
theorem follows_step :
    Follows (daemonAt M c inp n).astate (daemonAt M c inp (n + 1)).astate := by
  obtain ⟨r, hr, hd, -⟩ := run_outcome M c inp n
  rw [hd]
  cases hr with
  | raise h => rw [show (daemonAt M c inp n).astate = .none by simpa using h]; exact Or.inr rfl
  | escalate h => rw [show (daemonAt M c inp n).astate = .preactive by simpa using h]; trivial
  | clear h =>
    rcases h with ⟨h, -⟩ | h
    · rw [show (daemonAt M c inp n).astate = .preactive by simpa using h]; trivial
    · rw [show (daemonAt M c inp n).astate = .active by simpa using h]; exact Or.inr rfl
  | stay =>
    show Follows (daemonAt M c inp n).astate (countedAt M c inp n).astate
    rw [countedAt_astate]
    cases (daemonAt M c inp n).astate with
    | none => exact Or.inl rfl
    | preactive => trivial
    | active => exact Or.inl rfl

end Steps

/-! ### The good cycles since a state was entered -/

variable {M : Nat} {c : Settings} {inp : Nat → Tick}

/-- The counter of good cycles counts from cycle `m`, and has not passed the
threshold. -/
structure GoodSince (M : Nat) (c : Settings) (inp : Nat → Tick) (m n : Nat) : Prop where
  lt : m < n
  counter : (daemonAt M c inp n).irRecvdCycls = count (fun k => ¬ Bad c inp k) (m + 1) n
  bound : (daemonAt M c inp n).irRecvdCycls ≤ c.irRstalarm

theorem GoodSince.counted {m n : Nat} (h : GoodSince M c inp m n) (hM : c.irRstalarm + 1 < M) :
    (countedAt M c inp n).irRecvdCycls = count (fun k => ¬ Bad c inp k) (m + 1) (n + 1) := by
  have hlt := h.lt
  have hb := h.bound
  rw [countedAt_irRecvdCycls, Nat.mod_eq_of_lt (by omega), count_succ _ (by omega), h.counter]
  by_cases hbad : Bad c inp n
  · simp only [hbad, if_true, not_true_eq_false, if_false, Nat.add_zero]
  · simp only [hbad, if_false, not_false_eq_true, if_true]

theorem GoodSince.counted_gt {m n : Nat} (h : GoodSince M c inp m n) (hM : c.irRstalarm + 1 < M) :
    (countedAt M c inp n).irRecvdCycls > c.irRstalarm ↔ Recovered c inp m n := by
  rw [h.counted hM, Recovered]

theorem GoodSince.step {m n : Nat} (h : GoodSince M c inp m n) (hM : c.irRstalarm + 1 < M)
    (hnr : ¬ Recovered c inp m n)
    (heq : (daemonAt M c inp (n + 1)).irRecvdCycls = (countedAt M c inp n).irRecvdCycls) :
    GoodSince M c inp m (n + 1) :=
  ⟨Nat.lt_succ_of_lt h.lt, by rw [heq, h.counted hM],
    by rw [heq]; exact Nat.not_lt.mp fun h' => hnr ((h.counted_gt hM).mp h')⟩

theorem GoodSince.init {m : Nat} (h : (daemonAt M c inp (m + 1)).irRecvdCycls = 0) :
    GoodSince M c inp m (m + 1) :=
  ⟨Nat.lt_succ_self m, by rw [h, count_self], by rw [h]; exact Nat.zero_le _⟩

theorem preactive_until (hM : c.irRstalarm + 1 < M) {m : Nat} (hm : Enters M c inp .preactive m) :
    ∀ n, m < n → (∀ k, m < k → k < n → ¬ Expired inp m k ∧ ¬ Recovered c inp m k) →
      GoodSince M c inp m n ∧ (daemonAt M c inp n).astate = .preactive ∧
        (daemonAt M c inp n).irAlrmStart = (inp m).now := by
  intro n hmn
  induction n, hmn using Nat.le_induction with
  | base =>
    intro _
    obtain ⟨h0, hstart⟩ := enters_preactive hm
    exact ⟨.init h0, hm.2, hstart⟩
  | succ n hmn ih =>
    intro hbefore
    obtain ⟨hgood, hpre, hstart⟩ := ih fun k h1 h2 => hbefore k h1 (by omega)
    obtain ⟨hne, hnr⟩ := hbefore n (by omega) (by omega)
    rcases preactive_step hpre with ⟨h, -⟩ | ⟨-, h, -⟩ | ⟨-, -, hst, hs, heq⟩
    · rw [hstart] at h; exact absurd h hne
    · exact absurd ((hgood.counted_gt hM).mp h) hnr
    · exact ⟨hgood.step hM hnr heq, hst, hs.trans hstart⟩

/-- As long as the good cycles have not passed the threshold, the alarm stays active. -/
theorem active_until (hM : c.irRstalarm + 1 < M) {p : Nat} (hp : Enters M c inp .active p) :
    ∀ n, p < n → (∀ k, p < k → k < n → ¬ Recovered c inp p k) →
      GoodSince M c inp p n ∧ (daemonAt M c inp n).astate = .active := by
  intro n hpn
  induction n, hpn using Nat.le_induction with
  | base => intro _; exact ⟨.init (enters_active hp), hp.2⟩
  | succ n hpn ih =>
    intro hbefore
    obtain ⟨hgood, hact⟩ := ih fun k h1 h2 => hbefore k h1 (by omega)
    have hnr := hbefore n (by omega) (by omega)
    rcases active_step hact with ⟨h, -⟩ | ⟨-, hst, heq⟩
    · exact absurd ((hgood.counted_gt hM).mp h) hnr
    · exact ⟨hgood.step hM hnr heq, hst⟩

/-- The calls alternate: before every cycle their number is even exactly in
`ALRM_NONE`, and the call at place `i` is `doAlarmAction` exactly when `i` is even. -/
theorem actionCalls_alternate (n : Nat) :
    ((actionCalls M c inp n).length % 2 = 0 ↔ (daemonAt M c inp n).astate = .none) ∧
    ∀ i b, (actionCalls M c inp n)[i]? = some b → (b = true ↔ i % 2 = 0) := by
  induction n with
  | zero => exact ⟨⟨fun _ => rfl, fun _ => rfl⟩, fun i b h => by simp [actionCalls] at h⟩
  | succ n ih =>
    obtain ⟨hlen, hcalls⟩ := ih
    obtain ⟨r, hr, hd, hc⟩ := run_outcome M c inp n
    -- one more call at the end, of the kind the state allows
    have hpush : ∀ b0 : Bool, (b0 = true ↔ (actionCalls M c inp n).length % 2 = 0) →
        ∀ i b, (actionCalls M c inp n ++ [b0])[i]? = some b → (b = true ↔ i % 2 = 0) := by
      intro b0 hb0 i b h
      rcases Nat.lt_or_ge i (actionCalls M c inp n).length with hi | hi
      · rw [List.getElem?_append_left hi] at h
        exact hcalls i b h
      · rw [List.getElem?_append_right hi] at h
        cases hk : i - (actionCalls M c inp n).length with
        | zero =>
          rw [hk] at h
          obtain rfl : b0 = b := by simpa using h
          rw [show i = (actionCalls M c inp n).length by omega]
          exact hb0
        | succ k => rw [hk] at h; simp at h
    rw [actionCalls, hc, hd]
    cases hr with
    | raise h =>
      have heven := hlen.mpr (by simpa using h)
      refine ⟨?_, hpush true (by simp [heven])⟩
      simp [raiseAlarm]; omega
    | escalate h =>
      have hodd : ¬ (actionCalls M c inp n).length % 2 = 0 := fun he => by
        have := hlen.mp he; simp [this] at h
      show ((actionCalls M c inp n ++ []).length % 2 = 0 ↔ AlrmState.active = .none) ∧
        ∀ i b, (actionCalls M c inp n ++ [])[i]? = some b → (b = true ↔ i % 2 = 0)
      rw [List.append_nil]
      exact ⟨⟨fun he => absurd he hodd, fun he => absurd he (by decide)⟩, hcalls⟩
    | clear h =>
      have hodd : ¬ (actionCalls M c inp n).length % 2 = 0 := fun he => by
        have := hlen.mp he; simp [this] at h
      refine ⟨?_, hpush false (by simp; omega)⟩
      simp [clearAlarm]; omega
    | stay =>
      show ((actionCalls M c inp n ++ []).length % 2 = 0 ↔
          (countedAt M c inp n).astate = .none) ∧
        ∀ i b, (actionCalls M c inp n ++ [])[i]? = some b → (b = true ↔ i % 2 = 0)
      rw [List.append_nil, countedAt_astate]
      exact ⟨hlen, hcalls⟩

/-- **Escalation and clearing.**  A preactive alarm is left in the first cycle in
which its ten seconds are over (then it becomes active) or enough good cycles
were seen (then it is cleared); an active one in the first cycle with enough good
cycles since it became active.  No other transition happens, and the two actions
alternate, starting with `doAlarmAction`. -/
theorem alarm_escalation (w : Nat) (c : Settings) (inp : Nat → Tick)
    (hw : c.irRstalarm + 1 < 2 ^ w) :
    (∀ m n, Enters (2 ^ w) c inp .preactive m → m < n →
      (∀ k, m < k → k < n → ¬ Expired inp m k ∧ ¬ Recovered c inp m k) →
      (daemonAt (2 ^ w) c inp n).astate = .preactive ∧
      (daemonAt (2 ^ w) c inp (n + 1)).astate =
        if Expired inp m n then .active else if Recovered c inp m n then .none else .preactive) ∧
    (∀ p n, Enters (2 ^ w) c inp .active p → p < n →
      (∀ k, p < k → k < n → ¬ Recovered c inp p k) →
      (daemonAt (2 ^ w) c inp n).astate = .active ∧
      (daemonAt (2 ^ w) c inp (n + 1)).astate =
        if Recovered c inp p n then .none else .active) ∧
    (∀ n, Follows (daemonAt (2 ^ w) c inp n).astate (daemonAt (2 ^ w) c inp (n + 1)).astate) ∧
    (∀ n i b, (actionCalls (2 ^ w) c inp n)[i]? = some b → (b = true ↔ i % 2 = 0)) := by
  refine ⟨?_, ?_, fun n => follows_step, fun n => (actionCalls_alternate n).2⟩
  · intro m n hm hmn hbefore
    obtain ⟨hgood, hpre, hstart⟩ := preactive_until hw hm n hmn hbefore
    refine ⟨hpre, ?_⟩
    have hstep := preactive_step hpre
    rw [hstart, hgood.counted_gt hw] at hstep
    rcases hstep with ⟨h, hst⟩ | ⟨h1, h2, hst⟩ | ⟨h1, h2, hst, -⟩
    · rw [hst, if_pos (show Expired inp m n from h)]
    · rw [hst, if_neg (show ¬ Expired inp m n from h1), if_pos h2]
    · rw [hst, if_neg (show ¬ Expired inp m n from h1), if_neg h2]
  · intro p n hp hpn hbefore
    obtain ⟨hgood, hact⟩ := active_until hw hp n hpn hbefore
    refine ⟨hact, ?_⟩
    have hstep := active_step hact
    rw [hgood.counted_gt hw] at hstep
    rcases hstep with ⟨h, hst⟩ | ⟨h, hst, -⟩
    · rw [hst, if_pos h]
    · rw [hst, if_neg h]

/-! ### A threshold at the top of the range -/

/-- With a threshold no counter value exceeds and a clock that stands still, a
preactive alarm stays preactive. -/
theorem never_cleared (hM : 0 < M) (hmax : M ≤ c.irRstalarm + 1) {t : Int}
    (hclock : ∀ n, (inp n).now = t) {m : Nat} (hm : Enters M c inp .preactive m) :
    ∀ n, m < n → (daemonAt M c inp n).astate = .preactive ∧
      (daemonAt M c inp n).irAlrmStart = t ∧ (daemonAt M c inp n).irRecvdCycls < M := by
  intro n hmn
  induction n, hmn using Nat.le_induction with
  | base =>
    obtain ⟨h0, hstart⟩ := enters_preactive hm
    exact ⟨hm.2, hstart.trans (hclock m), lt_of_eq_of_lt h0 hM⟩
  | succ n _ ih =>
    obtain ⟨hpre, hstart, hlt⟩ := ih
    have hcnt : (countedAt M c inp n).irRecvdCycls < M := by
      rw [countedAt_irRecvdCycls]
      split
      · exact hlt
      · exact Nat.mod_lt _ hM
    rcases preactive_step hpre with ⟨h, -⟩ | ⟨-, h, -⟩ | ⟨-, -, hst, hs, heq⟩
    · rw [hstart, hclock n] at h; omega
    · omega
    · exact ⟨hst, hs.trans hstart, by omega⟩

def maxRstalarm : Settings :=
  { Settings.initial false with irMinalarm := 0, irRstalarm := 2 ^ 32 - 1 }

def oneBadCycle (n : Nat) : Tick := ⟨if n = 0 then 0 else 8, 0⟩

theorem oneBadCycle_raises : Enters (2 ^ 32) maxRstalarm oneBadCycle .preactive 0 :=
  ⟨by decide, by decide⟩

theorem count_good_oneBadCycle (n : Nat) :
    count (fun k => ¬ Bad maxRstalarm oneBadCycle k) 1 (n + 1) = n := by
  rw [count_of_all, Nat.add_sub_cancel]
  intro k hk _
  rw [Bad, oneBadCycle, if_neg (by omega)]
  decide

/-- With a 32-bit `size_t` and `ir_rstalarm = 4294967295` the counter wraps: after
`2 ^ 32` good cycles in a row a preactive alarm is not cleared. -/
theorem alarm_escalation_fails :
    ¬ ∀ m n, Enters (2 ^ 32) maxRstalarm oneBadCycle .preactive m → m < n →
      (∀ k, m < k → k < n → ¬ Expired oneBadCycle m k ∧ ¬ Recovered maxRstalarm oneBadCycle m k) →
      (daemonAt (2 ^ 32) maxRstalarm oneBadCycle n).astate = .preactive ∧
      (daemonAt (2 ^ 32) maxRstalarm oneBadCycle (n + 1)).astate =
        if Expired oneBadCycle m n then .active
        else if Recovered maxRstalarm oneBadCycle m n then .none else .preactive := by
  intro hall
  have hthreshold : maxRstalarm.irRstalarm = 4294967295 := rfl
  have hclock : ∀ m k, ¬ Expired oneBadCycle m k := fun m k h => by
    simp [Expired, oneBadCycle] at h
  have hstays := (@never_cleared (2 ^ 32) maxRstalarm oneBadCycle (by decide) (by decide) 0
    (fun _ => rfl) 0 oneBadCycle_raises 4294967297 (by decide)).1
  have hleft := (hall 0 4294967296 oneBadCycle_raises (by decide) fun k _ hk => ⟨hclock 0 k, by
    rw [Recovered, count_good_oneBadCycle, hthreshold]; omega⟩).2
  rw [if_neg (hclock 0 _), if_pos (by rw [Recovered, count_good_oneBadCycle, hthreshold]; decide),
    hstays] at hleft
  exact absurd hleft (by decide)

/-- With `ir_rstalarm = 1` the alarm raised in cycle 0 is cleared by two good cycles. -/
theorem alarm_escalation_two_good :
    (daemonAt (2 ^ 32) { maxRstalarm with irRstalarm := 1 } oneBadCycle 3).astate = .none :=
  (((alarm_escalation 32 { maxRstalarm with irRstalarm := 1 } oneBadCycle (by decide)).1 0 2
    ⟨by decide, by decide⟩ (by decide) (fun k h1 h2 => by
      obtain rfl : k = 1 := by omega
      decide)).2).trans (by decide)

end Raspberries.IrAlarm
