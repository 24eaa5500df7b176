import Raspberries.NetLed.Blinker

/-!
# What one class shows

`Blinker` says that each class makes steps of a machine of its own.  Here that machine is a
function of two events, a packet that the class takes and a tick, and `classEvents` are the
events of a class in a list of actions: they depend on the handlers and on the number of
ticks, and not on any counter.  `blink_independent` says that a class shows what its own
events make of it, so that no class disturbs another.

From it follow how many blinks a class makes (`blinks_accounted`), that the blinker comes to
all classes equally often (`ticks_even`), and that behind the last packet all LEDs go out
(`leds_settle`).
-/

namespace Raspberries.NetLed

open Transition

/-! ### The machine of a class -/

inductive ClassEvent
  | charge
  | tick
  deriving DecidableEq, Repr

def BlinkClass.apply (c : BlinkClass) : ClassEvent → BlinkClass
  | .charge => if c.count < 4 then { c with count := c.count + 2 } else c
  | .tick =>
    if c.count = 0 then { c with ticks := c.ticks + 1 }
    else if c.count % 2 = 0 then ⟨c.count - 1, .high, c.ticks + 1, c.highs + 1⟩
    else ⟨c.count - 1, .low, c.ticks + 1, c.highs⟩

/-- How many of the packets find a counter below 4. -/
def BlinkClass.accepted : BlinkClass → List ClassEvent → Nat
  | _, [] => 0
  | c, e :: es => (if e = .charge ∧ c.count < 4 then 1 else 0) + (c.apply e).accepted es

/-- Every packet that is accepted is one `HIGH` tick, made already or still to come. -/
theorem highs_foldl (es : List ClassEvent) (c : BlinkClass) :
    (es.foldl BlinkClass.apply c).highs + (es.foldl BlinkClass.apply c).count / 2 =
      c.highs + c.count / 2 + c.accepted es := by
  induction es generalizing c with
  | nil => rfl
  | cons e es ih =>
    rw [List.foldl_cons, ih (c.apply e), BlinkClass.accepted]
    have hone : (c.apply e).highs + (c.apply e).count / 2 =
        c.highs + c.count / 2 + if e = .charge ∧ c.count < 4 then 1 else 0 := by
      cases e with
      | charge =>
        rw [BlinkClass.apply]
        split
        next hlt =>
          simp only [hlt, and_self, if_true]
          omega
        next hlt => simp [hlt]
      | tick =>
        rw [BlinkClass.apply]
        split
        next hzero => simp
        next hne =>
          split
          next heven =>
            simp only [reduceCtorEq, false_and, if_false]
            omega
          next hodd =>
            simp only [reduceCtorEq, false_and, if_false]
            omega
    omega

theorem accepted_le (es : List ClassEvent) (c : BlinkClass) :
    c.accepted es ≤ es.count .charge := by
  induction es generalizing c with
  | nil => exact Nat.le_refl 0
  | cons e es ih =>
    have hrest := ih (c.apply e)
    rw [BlinkClass.accepted, List.count_cons]
    cases e with
    | charge =>
      simp only [true_and, beq_self_eq_true, if_true]
      split <;> omega
    | tick =>
      simp only [reduceCtorEq, false_and, if_false, beq_iff_eq]
      omega

theorem count_foldl_tick (k : Nat) (c : BlinkClass) :
    ((List.replicate k ClassEvent.tick).foldl BlinkClass.apply c).count = c.count - k ∧
    ((List.replicate k ClassEvent.tick).foldl BlinkClass.apply c).ticks = c.ticks + k := by
  induction k generalizing c with
  | zero => exact ⟨rfl, rfl⟩
  | succ k ih =>
    rw [List.replicate_succ, List.foldl_cons]
    obtain ⟨hcount, hticks⟩ := ih (c.apply .tick)
    have hone : (c.apply .tick).count = c.count - 1 ∧ (c.apply .tick).ticks = c.ticks + 1 := by
      rw [BlinkClass.apply]
      split
      next hzero =>
        refine ⟨?_, rfl⟩
        show c.count = c.count - 1
        omega
      next => split <;> exact ⟨rfl, rfl⟩
    omega

/-! ### The events of a class -/

abbrev P2fCb := PcapPkthdr → Mem → Option Int

/-- The first handler that takes a packet, if any; `none` when one reads where it must not. -/
def takenBy (packethdr : PcapPkthdr) (packetptr : Mem) : List P2fCb → Option (Option Nat)
  | [] => some none
  | cb :: cbs =>
    match cb packethdr packetptr with
    | none => none
    | some taken =>
      if taken ≠ 0 then some (some 0)
      else (takenBy packethdr packetptr cbs).map (Option.map (· + 1))

/-- What an action is to class `i` while the blinker is before entry `next`. -/
def eventsOf (cbs : List P2fCb) (i next : Nat) : BlinkAction → List ClassEvent
  | .packet packethdr packetptr =>
    if takenBy packethdr packetptr cbs = some (some i) then [.charge] else []
  | .tick => if next = i then [.tick] else []

def nextOf (n next : Nat) : BlinkAction → Nat
  | .packet _ _ => next
  | .tick => if next < n then next + 1 else 0

def classEvents (cbs : List P2fCb) (i : Nat) : Nat → List BlinkAction → List ClassEvent
  | _, [] => []
  | next, a :: as => eventsOf cbs i next a ++ classEvents cbs i (nextOf cbs.length next a) as

section Packet

variable {packethdr : PcapPkthdr} {packetptr : Mem}

theorem takenBy_cons_zero {cb : P2fCb} {cbs : List P2fCb} :
    takenBy packethdr packetptr (cb :: cbs) = some (some 0) ↔
      ∃ verdict, cb packethdr packetptr = some verdict ∧ verdict ≠ 0 := by
  rw [takenBy]
  cases cb packethdr packetptr with
  | none => simp
  | some verdict =>
    by_cases hzero : verdict = 0
    · simp [hzero]
    · simp [hzero]

theorem takenBy_cons_succ {cb : P2fCb} {cbs : List P2fCb} {i : Nat} :
    takenBy packethdr packetptr (cb :: cbs) = some (some (i + 1)) ↔
      cb packethdr packetptr = some 0 ∧ takenBy packethdr packetptr cbs = some (some i) := by
  rw [takenBy]
  cases cb packethdr packetptr with
  | none => simp
  | some verdict =>
    by_cases hzero : verdict = 0
    · simp [hzero]
    · simp [hzero]

theorem takes_cons_zero {e : PcapToFile} {es : List PcapToFile} :
    Takes packethdr packetptr (e :: es) 0 ↔
      ∃ verdict, e.cb packethdr packetptr = some verdict ∧ verdict ≠ 0 := by
  refine ⟨?_, ?_⟩
  · intro h
    obtain ⟨e', verdict, he, hverdict⟩ := h.taken
    obtain rfl := Option.some.inj he
    exact ⟨verdict, hverdict⟩
  · intro h
    obtain ⟨verdict, hverdict⟩ := h
    exact ⟨⟨e, verdict, rfl, hverdict⟩, fun j hj => absurd hj (Nat.not_lt_zero j)⟩

theorem takenBy_iff (t : List PcapToFile) (i : Nat) :
    takenBy packethdr packetptr (t.map PcapToFile.cb) = some (some i) ↔
      Takes packethdr packetptr t i := by
  induction t generalizing i with
  | nil =>
    refine ⟨fun h => (by cases h), fun h => ?_⟩
    obtain ⟨e, verdict, he, -⟩ := h.taken
    cases he
  | cons e es ih =>
    cases i with
    | zero => rw [List.map_cons, takenBy_cons_zero, takes_cons_zero]
    | succ i => rw [List.map_cons, takenBy_cons_succ, takes_cons_succ, ih]

end Packet

/-! ### One action -/

section Action

variable {s u : Blinking} {a : BlinkAction} {i : Nat}

theorem view_tickEntry_eq {e : PcapToFile} (he : s.table[i]? = some e) :
    (tickEntry s i e).view i = (s.view i).apply .tick := by
  rw [tickEntry, view_of_entry he, BlinkClass.apply]
  by_cases hzero : e.blinkCount = 0
  · simp only [hzero, ne_eq, not_true_eq_false, if_false, if_true]
    simp only [Blinking.view, he, Option.map_some, Option.getD_some, Function.update_self, hzero]
  · have hset : (s.table.set i { e with blinkCount := e.blinkCount - 1 })[i]? =
        some { e with blinkCount := e.blinkCount - 1 } :=
      List.getElem?_set_self (List.getElem?_eq_some_iff.mp he).1
    simp only [hzero, ne_eq, not_false_eq_true, if_true, true_and, if_false]
    rw [view_of_entry hset]
    by_cases heven : e.blinkCount % 2 = 0 <;> simp [heven]

theorem cbs_step (h : s.step a = some u) :
    u.table.map PcapToFile.cb = s.table.map PcapToFile.cb := by
  have hcharge : ∀ e : PcapToFile, e.charge.cb = e.cb := by
    intro e
    rw [PcapToFile.charge]
    split <;> rfl
  cases a with
  | packet packethdr packetptr =>
    obtain ⟨r, hr, rfl⟩ := Option.map_eq_some_iff.mp h
    cases p2fCallbacks_cases hr with
    | inl hsame => rw [hsame]
    | inr hex =>
      obtain ⟨j, hj⟩ := hex
      rw [p2fCallbacks_of_takes hj] at hr
      obtain rfl := Option.some.inj hr
      refine List.ext_getElem? fun k => ?_
      rw [List.getElem?_map, List.getElem?_map, List.getElem?_modify]
      cases s.table[k]? with
      | none => rfl
      | some e =>
        by_cases hk : j = k
        · simp [hk, hcharge]
        · simp [hk]
  | tick =>
    obtain rfl := Option.some.inj h
    rw [blinkerStep]
    split
    next e he =>
      rw [tickEntry]
      split
      next =>
        refine List.ext_getElem? fun k => ?_
        rw [List.getElem?_map, List.getElem?_map, List.getElem?_set]
        by_cases hk : s.next = k
        · subst hk
          rw [if_pos rfl, if_pos (List.getElem?_eq_some_iff.mp he).1, he]
          rfl
        · simp [hk]
      next => rfl
    next => rfl

theorem table_length_step (h : s.step a = some u) : u.table.length = s.table.length := by
  have hmap := congrArg List.length (cbs_step h)
  rwa [List.length_map, List.length_map] at hmap

theorem next_le_step (h : s.step a = some u) (hnext : s.next ≤ s.table.length) :
    u.next ≤ s.table.length := by
  cases a with
  | packet =>
    obtain ⟨r, -, rfl⟩ := Option.map_eq_some_iff.mp h
    exact hnext
  | tick =>
    obtain rfl := Option.some.inj h
    rw [blinkerStep]
    split
    next e he =>
      have hlt : s.next < s.table.length := (List.getElem?_eq_some_iff.mp he).1
      rw [tickEntry]
      split <;> exact hlt
    next => exact Nat.zero_le _

/-- **One action is its events to each class**, and moves the blinker as it says. -/
theorem view_action (h : s.step a = some u) (hi : i < s.table.length) :
    u.view i = (eventsOf (s.table.map PcapToFile.cb) i s.next a).foldl BlinkClass.apply (s.view i) ∧
    u.next = nextOf s.table.length s.next a := by
  cases a with
  | packet packethdr packetptr =>
    obtain ⟨r, hr, rfl⟩ := Option.map_eq_some_iff.mp h
    refine ⟨?_, rfl⟩
    rw [eventsOf]
    by_cases htakes : Takes packethdr packetptr s.table i
    · rw [if_pos ((takenBy_iff s.table i).mpr htakes), view_packet htakes h i]
      simp only [true_and, List.foldl_cons, List.foldl_nil, BlinkClass.apply]
    · rw [if_neg (fun h' => htakes ((takenBy_iff s.table i).mp h')), List.foldl_nil]
      cases p2fCallbacks_cases hr with
      | inl hsame => rw [hsame]
      | inr hex =>
        obtain ⟨j, hj⟩ := hex
        have hne : i ≠ j := fun hij => htakes (hij ▸ hj)
        rw [view_packet hj h i, if_neg (fun h' => hne h'.1)]
  | tick =>
    obtain rfl := Option.some.inj h
    rw [blinkerStep, eventsOf, nextOf]
    split
    next e he =>
      have hlt : s.next < s.table.length := (List.getElem?_eq_some_iff.mp he).1
      rw [if_pos hlt]
      by_cases hnext : s.next = i
      · subst hnext
        rw [if_pos rfl, List.foldl_cons, List.foldl_nil]
        refine ⟨view_tickEntry_eq he, ?_⟩
        rw [tickEntry]
        split <;> rfl
      · rw [if_neg hnext, List.foldl_nil]
        refine ⟨view_tickEntry_of_ne e (Ne.symm hnext), ?_⟩
        rw [tickEntry]
        split <;> rfl
    next he =>
      have hge : ¬ s.next < s.table.length := by
        rw [List.getElem?_eq_none_iff] at he
        omega
      rw [if_neg hge, if_neg (by omega), List.foldl_nil]
      exact ⟨rfl, rfl⟩

end Action

/-! ### Runs -/

section Runs

variable {s u : Blinking} {as : List BlinkAction} {i : Nat}

theorem view_exec (h : exec Blinking.step anyStep s as = some u) (hi : i < s.table.length) :
    u.view i = (classEvents (s.table.map PcapToFile.cb) i s.next as).foldl BlinkClass.apply
      (s.view i) := by
  induction as generalizing s with
  | nil =>
    obtain rfl := Option.some.inj h
    rfl
  | cons a as ih =>
    rw [exec_cons] at h
    obtain ⟨v, hv, hrest⟩ := Option.bind_eq_some_iff.mp h
    obtain ⟨hview, hnext⟩ := view_action hv hi
    have hlength := table_length_step hv
    rw [ih hrest (by omega), cbs_step hv, hview, hnext, classEvents, List.foldl_append,
      List.length_map]

theorem next_le_exec (h : exec Blinking.step anyStep s as = some u)
    (hnext : s.next ≤ s.table.length) : u.next ≤ u.table.length := by
  induction as generalizing s with
  | nil =>
    obtain rfl := Option.some.inj h
    exact hnext
  | cons a as ih =>
    rw [exec_cons] at h
    obtain ⟨v, hv, hrest⟩ := Option.bind_eq_some_iff.mp h
    refine ih hrest ?_
    rw [table_length_step hv]
    exact next_le_step hv hnext

theorem table_length_exec (h : exec Blinking.step anyStep s as = some u) :
    u.table.length = s.table.length := by
  induction as generalizing s with
  | nil =>
    obtain rfl := Option.some.inj h
    rfl
  | cons a as ih =>
    rw [exec_cons] at h
    obtain ⟨v, hv, hrest⟩ := Option.bind_eq_some_iff.mp h
    rw [ih hrest, table_length_step hv]

end Runs

/-! ### How often the blinker comes to a class -/

def BlinkAction.isTick : BlinkAction → Bool
  | .tick => true
  | .packet _ _ => false

/-- How many steps ago a blinker that is before entry `p` of `n` left entry `i`. -/
def since (n i p : Nat) : Nat := if p ≤ i then p + n - i else p - i - 1

theorem since_next {n i p : Nat} (hi : i < n) (hp : p ≤ n) :
    since n i (if p < n then p + 1 else 0) + (if p = i then n + 1 else 0) = since n i p + 1 := by
  unfold since
  by_cases hpi : p = i
  · subst hpi
    rw [if_pos hi, if_neg (by omega), if_pos rfl, if_pos (Nat.le_refl p)]
    omega
  · rw [if_neg hpi]
    by_cases hlt : p < n
    · rw [if_pos hlt]
      by_cases hle : p ≤ i
      · rw [if_pos hle, if_pos (by omega)]
        omega
      · rw [if_neg hle, if_neg (by omega)]
        omega
    · rw [if_neg hlt, if_pos (Nat.zero_le i), if_neg (by omega)]
      omega

section Ticks

variable {s u : Blinking} {as : List BlinkAction} {i : Nat}

theorem ticks_apply (c : BlinkClass) (e : ClassEvent) :
    (c.apply e).ticks = c.ticks + if e = .tick then 1 else 0 := by
  cases e with
  | charge =>
    rw [BlinkClass.apply]
    split <;> rfl
  | tick =>
    rw [BlinkClass.apply]
    split
    · rfl
    · split <;> rfl

theorem ticks_action {a : BlinkAction} (h : s.step a = some u) (hi : i < s.table.length)
    (hnext : s.next ≤ s.table.length) :
    (s.table.length + 1) * (u.view i).ticks + since s.table.length i u.next =
      (s.table.length + 1) * (s.view i).ticks + since s.table.length i s.next +
        a.isTick.toNat := by
  obtain ⟨hview, hnext'⟩ := view_action h hi
  rw [hview, hnext']
  cases a with
  | packet packethdr packetptr =>
    have hticks :
        ((eventsOf (s.table.map PcapToFile.cb) i s.next (.packet packethdr packetptr)).foldl
          BlinkClass.apply (s.view i)).ticks = (s.view i).ticks := by
      rw [eventsOf]
      split
      · exact ticks_apply (s.view i) .charge
      · rfl
    rw [hticks]
    rfl
  | tick =>
    have hsince := since_next hi hnext
    rw [eventsOf, nextOf]
    by_cases hpi : s.next = i
    · rw [if_pos hpi] at hsince ⊢
      rw [List.foldl_cons, List.foldl_nil, ticks_apply, if_pos rfl, Nat.mul_succ]
      show _ + _ = _ + 1
      omega
    · rw [if_neg hpi] at hsince ⊢
      rw [List.foldl_nil]
      show _ + _ = _ + 1
      omega

theorem ticks_exec (h : exec Blinking.step anyStep s as = some u) (hi : i < s.table.length)
    (hnext : s.next ≤ s.table.length) :
    (s.table.length + 1) * (u.view i).ticks + since s.table.length i u.next =
      (s.table.length + 1) * (s.view i).ticks + since s.table.length i s.next +
        as.countP BlinkAction.isTick := by
  induction as generalizing s with
  | nil =>
    obtain rfl := Option.some.inj h
    rfl
  | cons a as ih =>
    rw [exec_cons] at h
    obtain ⟨v, hv, hrest⟩ := Option.bind_eq_some_iff.mp h
    have hlength := table_length_step hv
    have hvnext : v.next ≤ v.table.length := by
      rw [hlength]
      exact next_le_step hv hnext
    have hone := ticks_action hv hi hnext
    have hmany := ih hrest (by omega) hvnext
    rw [hlength] at hmany
    rw [List.countP_cons, hmany, hone]
    cases a with
    | packet => rfl
    | tick =>
      show _ + 1 + _ = _ + (_ + 1)
      omega

theorem since_le {n p : Nat} (hi : i < n) (hp : p ≤ n) : since n i p ≤ n := by
  unfold since
  split <;> omega

theorem classEvents_ticks (cbs : List P2fCb) (i next k : Nat) :
    ∃ m, classEvents cbs i next (List.replicate k .tick) = List.replicate m .tick := by
  induction k generalizing next with
  | zero => exact ⟨0, rfl⟩
  | succ k ih =>
    obtain ⟨m, hm⟩ := ih (nextOf cbs.length next .tick)
    rw [List.replicate_succ, classEvents, hm, eventsOf]
    split
    · exact ⟨m + 1, rfl⟩
    · exact ⟨m, rfl⟩

end Ticks

/-! ### Main results -/

section Main

variable {t : List PcapToFile} {s u : Blinking} {as : List BlinkAction} {i : Nat}

theorem start_cbs (t : List PcapToFile) :
    (Blinking.start t).table.map PcapToFile.cb = t.map PcapToFile.cb := by
  refine List.ext_getElem? fun i => ?_
  rw [Blinking.start, withCounts, List.getElem?_map, List.getElem?_map, List.getElem?_mapIdx]
  cases t[i]? <;> rfl

theorem start_length (t : List PcapToFile) : (Blinking.start t).table.length = t.length := by
  rw [Blinking.start, withCounts, List.length_mapIdx]

/-- **No class disturbs another.**  What class `i` shows after a run from the start is what
its machine makes of its own events: the packets that it takes, and the steps of the blinker
at its entry. -/
theorem blink_independent (h : exec Blinking.step anyStep (.start t) as = some u)
    (hi : i < t.length) :
    u.view i =
      (classEvents (t.map PcapToFile.cb) i 0 as).foldl BlinkClass.apply ⟨0, .low, 0, 0⟩ := by
  rw [view_exec h ((start_length t).symm ▸ hi), start_cbs, view_start]
  rfl

def icmpRun : List BlinkAction := .packet ⟨64⟩ (fun _ => some 1) :: List.replicate 5 .tick

/-- `blink_independent` for the first class of the table in use. -/
theorem blink_independent_icmp :
    ∃ u, exec Blinking.step anyStep (.start p2f) icmpRun = some u ∧
      classEvents (p2f.map PcapToFile.cb) 0 0 icmpRun = [.charge, .tick] ∧
      u.view 0 = [ClassEvent.charge, .tick].foldl BlinkClass.apply ⟨0, .low, 0, 0⟩ :=
  ⟨_, rfl, by decide, @blink_independent p2f _ icmpRun 0 rfl (by decide)⟩

/-- **Every blink is a packet.**  In every run from the start the `HIGH` ticks of a class are
as many as the packets that it took with its counter below 4, but for the one or two that
the counter still holds; and so they are never more than the packets that it took. -/
theorem blinks_accounted (h : exec Blinking.step anyStep (.start t) as = some u)
    (hi : i < t.length) :
    (u.view i).highs + (u.view i).count / 2 =
        BlinkClass.accepted ⟨0, .low, 0, 0⟩ (classEvents (t.map PcapToFile.cb) i 0 as) ∧
      (u.view i).count / 2 ≤ 2 ∧
      (u.view i).highs ≤ (classEvents (t.map PcapToFile.cb) i 0 as).count .charge := by
  have hview := view_exec h ((start_length t).symm ▸ hi)
  rw [start_cbs, view_start] at hview
  have hsum := highs_foldl (classEvents (t.map PcapToFile.cb) i 0 as) ⟨0, .low, 0, 0⟩
  have hbound := (view_inv (reach_of_exec as h) i).bound
  have htaken := accepted_le (classEvents (t.map PcapToFile.cb) i 0 as) ⟨0, .low, 0, 0⟩
  have hhighs : (u.view i).highs + (u.view i).count / 2 =
      BlinkClass.accepted ⟨0, .low, 0, 0⟩ (classEvents (t.map PcapToFile.cb) i 0 as) := by
    rw [hview]
    refine hsum.trans ?_
    simp
  refine ⟨hhighs, ?_, ?_⟩ <;> omega

/-- `blinks_accounted` for the first class of the table in use. -/
theorem blinks_accounted_icmp :
    ∃ u, exec Blinking.step anyStep (.start p2f) icmpRun = some u ∧ (u.view 0).highs = 1 ∧
      (u.view 0).highs + (u.view 0).count / 2 =
        BlinkClass.accepted ⟨0, .low, 0, 0⟩ (classEvents (p2f.map PcapToFile.cb) 0 0 icmpRun) :=
  ⟨_, rfl, rfl, (@blinks_accounted p2f _ icmpRun 0 rfl (by decide)).1⟩

/-- **The blinker is fair.**  After `k` steps of the blinker among any packets, class `i` of
`n` has had `(k + n - i) / (n + 1)` ticks. -/
theorem ticks_even (h : exec Blinking.step anyStep (.start t) as = some u) (hi : i < t.length) :
    (u.view i).ticks = (as.countP BlinkAction.isTick + (t.length - i)) / (t.length + 1) := by
  have hlength := start_length t
  have hcount := ticks_exec h (hlength.symm ▸ hi) (Nat.zero_le _)
  have hnext : u.next ≤ u.table.length := next_le_exec h (Nat.zero_le _)
  rw [table_length_exec h, hlength] at hnext
  rw [hlength, view_start] at hcount
  have hstart : since t.length i (Blinking.start t).next = t.length - i := by
    show since t.length i 0 = t.length - i
    rw [since, if_pos (Nat.zero_le i), Nat.zero_add]
  have hle := since_le hi hnext
  rw [hstart] at hcount
  refine (Nat.div_eq_of_lt_le ?_ ?_).symm
  · rw [Nat.mul_comm]
    simp only [Nat.mul_zero, Nat.zero_add] at hcount
    omega
  · rw [Nat.mul_comm, Nat.mul_succ]
    simp only [Nat.mul_zero, Nat.zero_add] at hcount
    omega

/-- `ticks_even` for the last class of the table in use. -/
theorem ticks_even_icmp :
    ∃ u, exec Blinking.step anyStep (.start p2f) icmpRun = some u ∧ (u.view 3).ticks = 1 :=
  ⟨_, rfl, @ticks_even p2f _ icmpRun 3 rfl (by decide)⟩

/-- **Behind the last packet all LEDs go out.**  From every reachable state, after five rounds
of the blinker without a packet all counters are 0 and all LEDs `LOW`. -/
theorem leds_settle (hs : Reach Blinking.step anyStep (· = .start t) s) {k : Nat}
    (hk : 5 * (t.length + 1) ≤ k)
    (h : exec Blinking.step anyStep s (List.replicate k .tick) = some u) (hi : i < t.length) :
    (u.view i).count = 0 ∧ (u.view i).led = .low := by
  have htable : s.table.length = t.length ∧ s.next ≤ t.length := by
    apply hs.invariant_from
    · exact ⟨start_length t, Nat.zero_le _⟩
    · intro v a w hv _ hst
      rw [table_length_step hst]
      exact ⟨hv.1, hv.1 ▸ next_le_step hst (hv.1.symm ▸ hv.2)⟩
  obtain ⟨hlength, hnext⟩ := htable
  have hunext : u.next ≤ u.table.length := next_le_exec h (hlength.symm ▸ hnext)
  rw [table_length_exec h, hlength] at hunext
  have hcount := ticks_exec h (hlength.symm ▸ hi) (hlength.symm ▸ hnext)
  obtain ⟨m, hm⟩ := classEvents_ticks (s.table.map PcapToFile.cb) i s.next k
  have hview := view_exec h (hlength.symm ▸ hi)
  rw [hm] at hview
  obtain ⟨hdown, hticks⟩ := count_foldl_tick m (s.view i)
  rw [← hview] at hdown hticks
  rw [hlength, hticks, Nat.mul_add, List.countP_replicate] at hcount
  have hle := since_le hi hunext
  -- five rounds bring the blinker to the entry five times
  have hfive : 4 * (t.length + 1) < m * (t.length + 1) := by
    rw [Nat.mul_comm m]
    simp only [BlinkAction.isTick, if_true] at hcount
    omega
  have hm5 : 4 < m := Nat.lt_of_mul_lt_mul_right hfive
  have hzero : (u.view i).count = 0 := by
    have hbound := (view_inv hs i).bound
    omega
  refine ⟨hzero, ?_⟩
  have hphase := (view_inv (hs.trans (reach_of_exec _ h)) i).phase
  cases hled : (u.view i).led with
  | low => rfl
  | high =>
    have hodd := hphase.mp hled
    omega

/-- `leds_settle` for the first class of the table in use, from a charged counter. -/
theorem leds_settle_icmp :
    ∃ s u, exec Blinking.step anyStep (.start p2f) icmpRun = some s ∧ (s.view 0).count = 1 ∧
      exec Blinking.step anyStep s (List.replicate 25 .tick) = some u ∧
      (u.view 0).led = .low :=
  ⟨_, _, rfl, rfl, rfl,
    (@leds_settle p2f _ _ 0 (reach_of_exec icmpRun rfl) 25 (by decide) rfl (by decide)).2⟩

end Main

end Raspberries.NetLed
