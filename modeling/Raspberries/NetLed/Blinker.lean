import Raspberries.Lib.Transition
import Raspberries.NetLed.Sniffer

/-!
# Packets and the blinker

A packet adds 2 to the counter of one class, and `blinker_thread` goes round the table
and counts down; both hold the mutex of the entry.  The handlers do not look at the
counters, so a packet is one step, and so is what the blinker does with one entry.

What the table shows of one class is a machine of its own (`ClassStep`): the counter
says how many ticks are left, and its parity in which half of a blink the LED is.
`view_step` says that every step of the program is one of that machine for each class,
and `blink_leds` is what follows for all runs.
-/

namespace Raspberries.NetLed

open Transition

inductive Led
  | low
  | high
  deriving DecidableEq, Repr

/-! ### One class -/

/-- What there is of one class: `blink_count`, the branch that its last tick took, how many
ticks it had and how many of them were `HIGH`. -/
structure BlinkClass where
  count : Nat
  led : Led
  ticks : Nat
  highs : Nat
  deriving DecidableEq, Repr

inductive ClassStep : BlinkClass → BlinkClass → Prop
  | other (c : BlinkClass) : ClassStep c c
  | charge {c : BlinkClass} : c.count < 4 → ClassStep c { c with count := c.count + 2 }
  | idle {c : BlinkClass} : c.count = 0 → ClassStep c { c with ticks := c.ticks + 1 }
  | high {c : BlinkClass} : c.count ≠ 0 → c.count % 2 = 0 →
      ClassStep c ⟨c.count - 1, .high, c.ticks + 1, c.highs + 1⟩
  | low {c : BlinkClass} : c.count % 2 ≠ 0 →
      ClassStep c ⟨c.count - 1, .low, c.ticks + 1, c.highs⟩

/-- The counter is small, and its parity is the LED. -/
structure BlinkClass.Inv (c : BlinkClass) : Prop where
  bound : c.count ≤ 5
  phase : c.led = .high ↔ c.count % 2 = 1

theorem ClassStep.inv {c d : BlinkClass} (h : ClassStep c d) (hinv : c.Inv) : d.Inv := by
  have hbound := hinv.bound
  have hphase := hinv.phase
  cases h with
  | other => exact hinv
  | idle => exact ⟨hbound, hphase⟩
  | charge hlt =>
    refine ⟨?_, ?_⟩
    · simp only
      omega
    · simp only [hphase]
      omega
  | high hne heven =>
    refine ⟨?_, ?_⟩
    · simp only
      omega
    · simp only [true_iff]
      omega
  | low hodd =>
    refine ⟨?_, ?_⟩
    · simp only
      omega
    · simp only [reduceCtorEq, false_iff]
      omega

/-- There has been a `HIGH` tick beyond the first `n`, or there is still one to come: the
next tick or, if the counter is odd, the one after, and so the second after `m` at the
latest. -/
def BlinkClass.Owes (n m : Nat) (c : BlinkClass) : Prop :=
  n < c.highs ∨ (n ≤ c.highs ∧ 2 ≤ c.count ∧ c.ticks + c.count % 2 ≤ m + 1)

theorem ClassStep.owes {n m : Nat} {c d : BlinkClass} (h : ClassStep c d) (howes : c.Owes n m) :
    d.Owes n m := by
  rw [BlinkClass.Owes] at howes ⊢
  cases h with
  | other => exact howes
  | charge hlt =>
    simp only
    omega
  | idle hzero =>
    simp only
    omega
  | high hne heven =>
    simp only
    omega
  | low hodd =>
    simp only
    omega

/-! ### The table and the blinker -/

/-- The table, the entry that the blinker comes to next, and what its ticks did. -/
structure Blinking where
  table : List PcapToFile
  next : Nat
  led : Nat → Led
  ticks : Nat → Nat
  highs : Nat → Nat

def Blinking.start (t : List PcapToFile) : Blinking where
  table := withCounts (fun _ => 0) t
  next := 0
  led := fun _ => .low
  ticks := fun _ => 0
  highs := fun _ => 0

inductive BlinkAction
  | packet (packethdr : PcapPkthdr) (packetptr : Mem)
  | tick

def tickEntry (s : Blinking) (i : Nat) (e : PcapToFile) : Blinking :=
  let ticks := Function.update s.ticks i (s.ticks i + 1)
  if e.blinkCount ≠ 0 then
    let high := e.blinkCount ≠ 0 ∧ e.blinkCount % 2 = 0
    { table := s.table.set i { e with blinkCount := e.blinkCount - 1 }
      next := i + 1
      led := Function.update s.led i (if high then .high else .low)
      ticks := ticks
      highs := Function.update s.highs i (if high then s.highs i + 1 else s.highs i) }
  else { s with next := i + 1, ticks := ticks }

/-- A step of `blinker_thread`: an entry, or at the end of the table the way back to its
beginning, with the `usleep`. -/
def blinkerStep (s : Blinking) : Blinking :=
  match s.table[s.next]? with
  | some e => tickEntry s s.next e
  | none => { s with next := 0 }

def Blinking.step (s : Blinking) : BlinkAction → Option Blinking
  | .packet packethdr packetptr =>
    (p2fCallbacks packethdr packetptr s.table).map fun r => { s with table := r.2 }
  | .tick => some (blinkerStep s)

/-- Class `i`; behind the end of the table there is none, and its counter is 0. -/
def Blinking.view (s : Blinking) (i : Nat) : BlinkClass where
  count := (s.table[i]?.map (·.blinkCount)).getD 0
  led := s.led i
  ticks := s.ticks i
  highs := s.highs i

/-- Entry `i` is the first whose handler takes the packet. -/
structure Takes (packethdr : PcapPkthdr) (packetptr : Mem) (t : List PcapToFile) (i : Nat) :
    Prop where
  taken : ∃ e verdict, t[i]? = some e ∧ e.cb packethdr packetptr = some verdict ∧ verdict ≠ 0
  passed : ∀ j < i, ∀ e, t[j]? = some e → e.cb packethdr packetptr = some 0

section Callbacks

variable {packethdr : PcapPkthdr} {packetptr : Mem}

theorem takes_cons_succ {e : PcapToFile} {es : List PcapToFile} {i : Nat} :
    Takes packethdr packetptr (e :: es) (i + 1) ↔
      e.cb packethdr packetptr = some 0 ∧ Takes packethdr packetptr es i := by
  refine ⟨?_, ?_⟩
  · intro h
    exact ⟨h.passed 0 (by omega) e rfl, h.taken, fun j hj => h.passed (j + 1) (by omega)⟩
  · intro hex
    obtain ⟨hzero, htaken, hpassed⟩ := hex
    refine ⟨htaken, ?_⟩
    intro j hj e' he'
    cases j with
    | zero => exact (Option.some.inj he') ▸ hzero
    | succ j => exact hpassed j (by omega) e' he'

theorem p2fCallbacks_of_takes {t : List PcapToFile} {i : Nat}
    (h : Takes packethdr packetptr t i) :
    p2fCallbacks packethdr packetptr t = some (1, t.modify i PcapToFile.charge) := by
  induction t generalizing i with
  | nil =>
    obtain ⟨e, verdict, he, -⟩ := h.taken
    cases he
  | cons e es ih =>
    cases i with
    | zero =>
      obtain ⟨e', verdict, he', hverdict, hne⟩ := h.taken
      obtain rfl := Option.some.inj he'
      rw [p2fCallbacks, hverdict]
      exact if_pos hne
    | succ i =>
      obtain ⟨hzero, hrest⟩ := takes_cons_succ.mp h
      rw [p2fCallbacks, hzero]
      simp [ih hrest]

theorem p2fCallbacks_cases {t : List PcapToFile} {r : Int × List PcapToFile}
    (h : p2fCallbacks packethdr packetptr t = some r) :
    r = (0, t) ∨ ∃ i, Takes packethdr packetptr t i := by
  induction t generalizing r with
  | nil => exact .inl (Option.some.inj h).symm
  | cons e es ih =>
    rw [p2fCallbacks] at h
    cases hverdict : e.cb packethdr packetptr with
    | none =>
      rw [hverdict] at h
      cases h
    | some verdict =>
      rw [hverdict] at h
      by_cases hzero : verdict = 0
      · subst hzero
        obtain ⟨r', hr', rfl⟩ := Option.map_eq_some_iff.mp h
        cases ih hr' with
        | inl hsame => exact .inl (by rw [hsame])
        | inr htakes =>
          obtain ⟨i, hi⟩ := htakes
          exact .inr ⟨i + 1, takes_cons_succ.mpr ⟨hverdict, hi⟩⟩
      · refine .inr ⟨0, ⟨e, verdict, rfl, hverdict, hzero⟩, ?_⟩
        intro j hj
        exact absurd hj (Nat.not_lt_zero j)

end Callbacks

/-! ### The program as one machine a class -/

theorem view_start (t : List PcapToFile) (i : Nat) :
    (Blinking.start t).view i = ⟨0, .low, 0, 0⟩ := by
  rw [Blinking.view, Blinking.start, withCounts]
  cases h : t[i]? with
  | none => simp [h]
  | some e => simp [h]

theorem view_of_entry {s : Blinking} {i : Nat} {e : PcapToFile} (he : s.table[i]? = some e) :
    s.view i = ⟨e.blinkCount, s.led i, s.ticks i, s.highs i⟩ := by
  rw [Blinking.view, he]
  rfl

theorem view_packet {packethdr : PcapPkthdr} {packetptr : Mem} {s t : Blinking} {i : Nat}
    (htakes : Takes packethdr packetptr s.table i)
    (h : s.step (.packet packethdr packetptr) = some t) (j : Nat) :
    t.view j = if j = i ∧ (s.view i).count < 4 then
      { s.view i with count := (s.view i).count + 2 } else s.view j := by
  rw [Blinking.step, p2fCallbacks_of_takes htakes] at h
  obtain rfl := Option.some.inj h
  obtain ⟨e, verdict, he, -⟩ := htakes.taken
  by_cases hj : j = i
  · subst hj
    have hcharged : (s.table.modify j PcapToFile.charge)[j]? = some e.charge := by
      rw [List.getElem?_modify_eq, he]
      rfl
    rw [view_of_entry he, view_of_entry hcharged, PcapToFile.charge]
    by_cases hlt : e.blinkCount < 4
    · simp [hlt]
    · simp [hlt]
  · simp only [Blinking.view, hj, false_and, if_false]
    rw [List.getElem?_modify_ne _ s.table (Ne.symm hj)]

theorem view_tickEntry {s : Blinking} {i : Nat} {e : PcapToFile} (he : s.table[i]? = some e) :
    ClassStep (s.view i) ((tickEntry s i e).view i) := by
  rw [tickEntry]
  split
  next hne =>
    have hset : (s.table.set i { e with blinkCount := e.blinkCount - 1 })[i]? =
        some { e with blinkCount := e.blinkCount - 1 } :=
      List.getElem?_set_self (List.getElem?_eq_some_iff.mp he).1
    rw [view_of_entry he, view_of_entry hset]
    simp only [Function.update_self, hne, ne_eq, not_false_eq_true, true_and]
    by_cases heven : e.blinkCount % 2 = 0
    · rw [if_pos heven, if_pos heven]
      exact .high hne heven
    · rw [if_neg heven, if_neg heven]
      exact .low heven
  next hzero =>
    simp only [Blinking.view, he, Option.map_some, Option.getD_some, Function.update_self]
    exact .idle (not_not.mp hzero)

theorem view_tickEntry_of_ne {s : Blinking} {i j : Nat} (e : PcapToFile) (hj : j ≠ i) :
    (tickEntry s i e).view j = s.view j := by
  rw [tickEntry]
  split
  next =>
    have hsame : (s.table.set i { e with blinkCount := e.blinkCount - 1 })[j]? = s.table[j]? :=
      List.getElem?_set_ne (Ne.symm hj)
    simp only [Blinking.view, hsame, Function.update_of_ne hj]
  next => simp only [Blinking.view, Function.update_of_ne hj]

/-- **Each class is a blink machine.**  Whatever the program does, every class makes a
step of its own or none. -/
theorem view_step {s t : Blinking} {a : BlinkAction} (h : s.step a = some t) (i : Nat) :
    ClassStep (s.view i) (t.view i) := by
  cases a with
  | packet packethdr packetptr =>
    obtain ⟨r, hr, rfl⟩ := Option.map_eq_some_iff.mp h
    cases p2fCallbacks_cases hr with
    | inl hsame =>
      rw [hsame]
      exact .other _
    | inr htakes =>
      obtain ⟨j, hj⟩ := htakes
      rw [view_packet hj h i]
      split
      next hcharged =>
        obtain ⟨rfl, hlt⟩ := hcharged
        exact .charge hlt
      next => exact .other _
  | tick =>
    obtain rfl := Option.some.inj h
    rw [blinkerStep]
    split
    next e he =>
      by_cases hi : i = s.next
      · subst hi
        exact view_tickEntry he
      · rw [view_tickEntry_of_ne e hi]
        exact .other _
    next => exact .other _

/-! ### Runs -/

theorem view_inv {t : List PcapToFile} {s : Blinking}
    (h : Reach Blinking.step anyStep (· = .start t) s) (i : Nat) : (s.view i).Inv := by
  refine Reach.invariant_from (I := fun s => (s.view i).Inv) ?_ ?_ h
  · rw [view_start]
    constructor <;> simp
  · intro s a s' hinv _ hstep
    exact (view_step hstep i).inv hinv

theorem view_owes {n m i : Nat} {s u : Blinking} (howes : (s.view i).Owes n m)
    (h : Reach Blinking.step anyStep (· = s) u) : (u.view i).Owes n m := by
  refine Reach.invariant_from (I := fun s => (s.view i).Owes n m) howes ?_ h
  intro s a s' howes' _ hstep
  exact (view_step hstep i).owes howes'

/-- **Blink counters never leave an LED on.**  In every run of packets and ticks from
counters at 0, for every class: the counter stays at most 5; the LED is `HIGH` exactly
when the counter is odd, and so it is `LOW` when the counter is 0; and when the class takes
a packet at a counter below 4, then in every state of every continuation in which the
counter is 0, or in which the class had two more ticks, it has made one more `HIGH` tick. -/
theorem blink_leds (t : List PcapToFile) {s : Blinking}
    (h : Reach Blinking.step anyStep (· = .start t) s) (i : Nat) :
    (s.view i).count ≤ 5 ∧
      ((s.view i).led = .high ↔ (s.view i).count % 2 = 1) ∧
      ((s.view i).count = 0 → (s.view i).led = .low) ∧
      ∀ packethdr packetptr s', Takes packethdr packetptr s.table i → (s.view i).count < 4 →
        s.step (.packet packethdr packetptr) = some s' →
        ∀ u, Reach Blinking.step anyStep (· = s') u →
          (u.view i).count = 0 ∨ (s'.view i).ticks + 2 ≤ (u.view i).ticks →
          (s'.view i).highs < (u.view i).highs := by
  obtain ⟨hbound, hphase⟩ := view_inv h i
  refine ⟨hbound, hphase, ?_, ?_⟩
  · intro hzero
    cases hled : (s.view i).led with
    | low => rfl
    | high =>
      have hodd := hphase.mp hled
      omega
  · intro packethdr packetptr s' htakes hlt hstep u hu hend
    have hraised : (s'.view i).count = (s.view i).count + 2 := by
      rw [view_packet htakes hstep i, if_pos ⟨rfl, hlt⟩]
    have howes : (s'.view i).Owes (s'.view i).highs (s'.view i).ticks :=
      .inr ⟨Nat.le_refl _, by omega, by omega⟩
    cases view_owes howes hu with
    | inl hmore => exact hmore
    | inr hleft => omega

/-- The table in use, a packet that is taken for ICMP, and the two ticks of its blink. -/
theorem blink_leds_icmp :
    ∃ s u, (Blinking.start p2f).step (.packet ⟨64⟩ fun _ => some 1) = some s ∧
      Reach Blinking.step anyStep (· = s) u ∧ (u.view 0).count = 0 ∧
      (s.view 0).highs < (u.view 0).highs := by
  have htakes : Takes ⟨64⟩ (fun _ => some 1) (Blinking.start p2f).table 0 :=
    ⟨⟨_, 1, rfl, rfl, by decide⟩, fun j hj => absurd hj (Nat.not_lt_zero j)⟩
  have hrun := @reach_get _ _ Blinking.step anyStep _
    { Blinking.start p2f with table := p2f.modify 0 PcapToFile.charge }
    (List.replicate 6 .tick) rfl
  exact ⟨_, _, rfl, hrun, rfl,
    (blink_leds p2f (.start rfl) 0).2.2.2 _ _ _ htakes (by decide) rfl _ hrun (.inl rfl)⟩

end Raspberries.NetLed
