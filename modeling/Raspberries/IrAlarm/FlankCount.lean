import Mathlib.Data.Nat.ModEq
import Raspberries.IrAlarm.CycleSys
import Raspberries.Lib.Transition

/-!
# Is every flank counted in one cycle?

The semaphore keeps the flank handler out while a cycle reads, decides and resets, so a
flank falls into one cycle.  `ir_recvd` is a `size_t`, though: if it is raised `2 ^ w`
times before the next cycle these flanks are gone (`flanks_lost`).

`every_flank_counted` says that this is all.  In every run the counts of the completed
cycles and `ir_recvd` have the number of increments as their sum modulo `2 ^ w`, exactly
that number while no increment carries, and a cycle reads the one count it decides on.
-/

namespace Raspberries.IrAlarm

open SysVSem Transition

/-! ### What the switch reads -/

theorem Outcome.irRecvd {c : Settings} {now : Int} {d : Daemon} {r : Daemon × List Event}
    (h : Outcome c now d r) : r.1.irRecvd = d.irRecvd := by
  cases h with
  | raise | escalate | clear | stay => rfl

theorem Outcome.recvd {c : Settings} {now : Int} {d : Daemon} {r : Daemon × List Event}
    (h : Outcome c now d r) {v : Nat} (hv : v ∈ r.2.flatMap Event.recvd) : v = d.irRecvd := by
  cases h with
  | raise => exact List.mem_singleton.mp hv
  | clear => exact List.mem_singleton.mp hv
  | escalate => cases hv
  | stay => cases hv

/-- The main thread has decided and not yet reset. -/
def CyclePc.decided : CyclePc → Bool
  | .exportState | .switch | .calls _ | .reset => true
  | .sleep | .acquire | .count | .release => false

theorem CyclePc.inside_of_decided {pc : CyclePc} (h : pc.decided = true) :
    pc.bracket.inside = true := by
  cases pc with
  | exportState | switch | calls | reset => rfl
  | sleep | acquire | count | release => cases h

/-- The next write of the flank handler is `2 ^ w`, which is `0`. -/
def FlankPc.carries (M : Nat) : FlankPc → Bool
  | .write v => M ≤ v + 1
  | .idle | .acquire | .read | .release => false

namespace CycleSys

/-- An increment does not carry out of the `size_t`. -/
def NoCarry (M : Nat) (s : CycleSys) (a : Act) : Prop := a = .flank → s.flank.carries M = false

instance (M : Nat) (s : CycleSys) (a : Act) : Decidable (NoCarry M s a) :=
  inferInstanceAs (Decidable (a = .flank → s.flank.carries M = false))

/-- What a cycle and the flank handler have read is still there. -/
structure Steady (s : CycleSys) : Prop where
  reads : ∀ v ∈ s.reads, v = s.decision
  fresh : s.main = .count → s.reads = []
  main : s.main.decided = true → s.decision = s.daemon.irRecvd
  flank : ∀ v, s.flank = .write v → v = s.daemon.irRecvd

section Step

variable {M : Nat} {s t : CycleSys}

/-- The main thread and the flank handler are not inside at the same time. -/
theorem Locked.flank_outside (hs : Locked s) (hm : s.main.bracket.inside = true) :
    s.flank.bracket.inside = false := by
  cases hf : s.flank.bracket.inside with
  | false => rfl
  | true => cases hs.mutex.one .main .flank hm hf

/-- A step that reads nothing and leaves `ir_recvd` and the flank handler alone. -/
theorem Steady.keep (hs : Steady s) (hreads : t.reads = s.reads) (hm : t.main ≠ .count)
    (hdec : t.decision = s.decision) (hrecvd : t.daemon.irRecvd = s.daemon.irRecvd)
    (hdecided : t.main.decided = true → s.main.decided = true) (hflank : t.flank = s.flank) :
    Steady t := by
  refine ⟨?_, fun h => absurd h hm, ?_, ?_⟩
  · rw [hreads, hdec]
    exact hs.reads
  · intro h
    rw [hdec, hrecvd]
    exact hs.main (hdecided h)
  · rw [hflank, hrecvd]
    exact hs.flank

theorem steady_step {a : Act} (hl : Locked s) (hs : Steady s) (h : step M s a = some t) :
    Steady t := by
  cases stepTo_of_step h with
  | acquire =>
    refine ⟨?_, fun _ => rfl, ?_, hs.flank⟩
    · rintro _ ⟨⟩
    · rintro ⟨⟩
  | count now hm =>
    -- the first read is the decision
    have hfresh := hs.fresh hm
    refine ⟨?_, (by simp), fun _ => (countCycle_irRecvd ..).symm, ?_⟩
    · intro v hv
      rw [hfresh] at hv
      exact List.mem_singleton.mp hv
    · intro v hv
      exact (hs.flank v hv).trans (countCycle_irRecvd ..).symm
  | switch now hm =>
    have hnow : s.decision = s.daemon.irRecvd := hs.main (by rw [hm]; rfl)
    have hout := alarmSwitch_outcome s.settings now s.daemon
    refine ⟨?_, (by simp), fun _ => hnow.trans hout.irRecvd.symm, ?_⟩
    · intro v hv
      rcases List.mem_append.mp hv with hv | hv
      · exact hs.reads v hv
      · exact (hout.recvd hv).trans hnow.symm
    · intro v hv
      exact (hs.flank v hv).trans hout.irRecvd.symm
  | call now e es hm =>
    have hnow : s.decision = s.daemon.irRecvd := hs.main (by rw [hm]; rfl)
    refine ⟨?_, (by simp), fun _ => hnow, hs.flank⟩
    intro v hv
    rcases List.mem_append.mp hv with hv | hv
    · exact hs.reads v hv
    · split at hv
      · rw [List.mem_singleton.mp hv, hnow]
      · cases hv
  | reset now hm =>
    -- the flank handler is not between its read and its write
    have hout := hl.flank_outside (by rw [hm]; rfl)
    refine ⟨hs.reads, (by rintro ⟨⟩), (by rintro ⟨⟩), ?_⟩
    intro v hv
    rw [hv] at hout
    cases hout
  | exportState now hm | callsEnd now hm =>
    exact hs.keep rfl (by rintro ⟨⟩) rfl rfl (fun _ => by rw [hm]; rfl) rfl
  | release | wake => exact hs.keep rfl (by rintro ⟨⟩) rfl rfl (by rintro ⟨⟩) rfl
  | flankEnters | flankAcquire | flankRelease =>
    exact ⟨hs.reads, hs.fresh, hs.main, (by simp)⟩
  | flankRead =>
    refine ⟨hs.reads, hs.fresh, hs.main, ?_⟩
    intro v hv
    exact (FlankPc.write.inj hv).symm
  | flankWrite v hf =>
    -- the main thread is not between its decision and its reset
    refine ⟨hs.reads, hs.fresh, ?_, (by simp)⟩
    intro hm
    have hout := hl.flank_outside (CyclePc.inside_of_decided hm)
    rw [hf] at hout
    cases hout
  | sighup | callback | ctl | ctlKill => exact ⟨hs.reads, hs.fresh, hs.main, hs.flank⟩

/-! ### The sum -/

/-- The flanks that are in the counts of the completed cycles or in `ir_recvd`. -/
def flanks (s : CycleSys) : Nat := s.decisions.sum + s.daemon.irRecvd

/-- Of all steps only the write of the flank handler changes anything. -/
theorem flanks_step {a : Act} (hs : Steady s) (h : step M s a = some t) :
    t.flanks = s.flanks ∧ t.increments = s.increments ∨
    a = .flank ∧ s.flank = .write s.daemon.irRecvd ∧ t.decisions = s.decisions ∧
      t.daemon.irRecvd = (s.daemon.irRecvd + 1) % M ∧ t.increments = s.increments + 1 := by
  cases stepTo_of_step h with
  | count =>
    refine Or.inl ⟨?_, rfl⟩
    show s.decisions.sum + (countCycle M s.settings s.daemon).irRecvd = s.flanks
    rw [countCycle_irRecvd, flanks]
  | switch now =>
    have hout := alarmSwitch_outcome s.settings now s.daemon
    refine Or.inl ⟨?_, rfl⟩
    show s.decisions.sum + (alarmSwitch s.settings now s.daemon).1.irRecvd = s.flanks
    rw [hout.irRecvd, flanks]
  | reset now hm =>
    -- the count moves from `ir_recvd` to the completed cycles
    have hnow : s.decision = s.daemon.irRecvd := hs.main (by rw [hm]; rfl)
    refine Or.inl ⟨?_, rfl⟩
    show (s.decisions ++ [s.decision]).sum + 0 = s.flanks
    rw [List.sum_append, List.sum_singleton, hnow, Nat.add_zero, flanks]
  | flankWrite v hf =>
    obtain rfl := hs.flank v hf
    exact Or.inr ⟨rfl, hf, rfl, rfl, rfl⟩
  | acquire | exportState | callsEnd | call | release | wake | sighup => exact Or.inl ⟨rfl, rfl⟩
  | flankEnters | flankAcquire | flankRead | flankRelease => exact Or.inl ⟨rfl, rfl⟩
  | callback | ctl | ctlKill => exact Or.inl ⟨rfl, rfl⟩

end Step

/-! ### Runs -/

theorem steady_of_reach {M : Nat} {ok : CycleSys → Act → Prop} {s : CycleSys}
    (h : Reach (step M) ok Entered s) : Locked s ∧ Steady s := by
  apply h.invariant
  · intro s hs
    refine ⟨locked_of_entered hs, ?_, fun _ => hs.reads, ?_, ?_⟩
    · rw [hs.reads]
      rintro _ ⟨⟩
    · rw [hs.main]
      rintro ⟨⟩
    · intro v hv
      have hout := hs.outside .flank
      rw [Inside, bracket, hv] at hout
      exact absurd rfl hout
  · intro s a t hs _ hst
    exact ⟨locked_step hs.1 hst, steady_step hs.1 hs.2 hst⟩

/-- In every run the flanks are the increments modulo the width of `ir_recvd`. -/
theorem flanks_modEq {M : Nat} {s : CycleSys} (h : Reach (step M) anyStep Entered s) :
    s.flanks ≡ s.increments [MOD M] := by
  induction h with
  | start hs =>
    rw [flanks, hs.decisions, hs.increments, List.sum_nil, Nat.zero_add]
  | @next s t a hr _ hst ih =>
    rcases flanks_step (steady_of_reach hr).2 hst with
      ⟨hflanks, hinc⟩ | ⟨-, -, hdec, hrecvd, hinc⟩
    · rw [hflanks, hinc]
      exact ih
    · rw [flanks, hdec, hrecvd, hinc]
      calc s.decisions.sum + (s.daemon.irRecvd + 1) % M
        _ ≡ s.decisions.sum + (s.daemon.irRecvd + 1) [MOD M] := (Nat.mod_modEq _ _).add_left _
        _ ≡ s.increments + 1 [MOD M] := ih.add_right 1

/-- While no increment carries they are the increments. -/
theorem flanks_eq {M : Nat} {s : CycleSys} (h : Reach (step M) (NoCarry M) Entered s) :
    s.flanks = s.increments := by
  induction h with
  | start hs =>
    rw [flanks, hs.decisions, hs.increments, List.sum_nil, Nat.zero_add]
  | @next s t a hr hok hst ih =>
    rcases flanks_step (steady_of_reach hr).2 hst with
      ⟨hflanks, hinc⟩ | ⟨ha, hwrite, hdec, hrecvd, hinc⟩
    · rw [hflanks, hinc]
      exact ih
    · have hlt : s.daemon.irRecvd + 1 < M := by
        have hcarries := hok ha
        rw [hwrite, FlankPc.carries, decide_eq_false_iff_not] at hcarries
        omega
      rw [flanks] at ih
      rw [flanks, hdec, hrecvd, hinc, Nat.mod_eq_of_lt hlt]
      omega

/-- **Every flank is counted in one cycle.**  The counts on which the completed cycles have
decided and `ir_recvd` add up to the number of increments modulo `2 ^ w`, and to that
number in a run in which no increment carries; a cycle reads the one count it decides on. -/
theorem every_flank_counted (w : Nat) :
    (∀ s, Reach (step (2 ^ w)) anyStep Entered s →
      s.decisions.sum + s.daemon.irRecvd ≡ s.increments [MOD 2 ^ w] ∧
        ∀ v ∈ s.reads, v = s.decision) ∧
    ∀ s, Reach (step (2 ^ w)) (NoCarry (2 ^ w)) Entered s →
      s.decisions.sum + s.daemon.irRecvd = s.increments := by
  refine ⟨?_, fun s hs => flanks_eq hs⟩
  intro s hs
  exact ⟨flanks_modEq hs, (steady_of_reach hs).2.reads⟩

def countedOnce : CycleSys :=
  (exec (step (2 ^ 32)) (NoCarry (2 ^ 32)) entered
    (List.flatten [[.sighup { Settings.initial true with irMinalarm := 0 }],
      List.replicate 5 .flank, [.wake], List.replicate 11 (.main 0),
      List.replicate 5 .flank])).get (by decide)

theorem every_flank_counted_once :
    countedOnce.reads = [1, 1, 1] ∧ countedOnce.decisions = [1] ∧
    (countedOnce.decisions.sum + countedOnce.daemon.irRecvd ≡ countedOnce.increments
      [MOD 2 ^ 32] ∧ ∀ v ∈ countedOnce.reads, v = countedOnce.decision) ∧
    countedOnce.decisions.sum + countedOnce.daemon.irRecvd = countedOnce.increments := by
  have hreach : Reach (step (2 ^ 32)) (NoCarry (2 ^ 32)) Entered countedOnce :=
    (Reach.start entered_entered).trans (reach_get entered _ _)
  refine ⟨by decide, by decide, ?_, ?_⟩
  · exact (every_flank_counted 32).1 countedOnce hreach.any
  · exact (every_flank_counted 32).2 countedOnce hreach

def flooded (M n : Nat) : CycleSys :=
  { entered with daemon := { Daemon.initial with irRecvd := n % M }, increments := n }

theorem reach_flooded (M n : Nat) : Reach (step M) anyStep (· = entered) (flooded M n) := by
  induction n with
  | zero =>
    refine .start ?_
    rw [flooded, Nat.zero_mod]
    rfl
  | succ n ih =>
    have hwrite : step M { flooded M n with
        kernel := some ⟨1, 0, irdPid⟩, flank := .write (n % M) } .flank =
        some { flooded M (n + 1) with kernel := some ⟨1, 0, irdPid⟩, flank := .release } := by
      rw [flooded, flooded, ← Nat.mod_add_mod]
      rfl
    have hacquire : Reach (step M) anyStep (· = entered)
        { flooded M n with flank := .acquire } := ih.next (a := .flank) trivial rfl
    have hread : Reach (step M) anyStep (· = entered)
        { flooded M n with kernel := some ⟨1, 0, irdPid⟩, flank := .read } :=
      hacquire.next (a := .flank) trivial rfl
    exact ((hread.next (a := .flank) trivial rfl).next trivial hwrite).next (a := .flank)
      trivial rfl

/-- `2 ^ 32` flanks before the next cycle are counted in no cycle. -/
theorem flanks_lost :
    ¬ ∀ s, Reach (step (2 ^ 32)) anyStep Entered s →
      s.decisions.sum + s.daemon.irRecvd = s.increments := by
  intro h
  have hreach : Reach (step (2 ^ 32)) anyStep Entered (flooded (2 ^ 32) (2 ^ 32)) :=
    (Reach.start entered_entered).trans (reach_flooded _ _)
  exact absurd (h _ hreach) (by decide)

end CycleSys

end Raspberries.IrAlarm
