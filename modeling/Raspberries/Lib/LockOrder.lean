import Mathlib.Data.List.Nodup
import Mathlib.Logic.Relation
import Mathlib.Tactic.Common

/-!
# Locks in a fixed order

Parties that wait for each other in a circle cannot be, if there is a rank on the locks
and whoever waits holds only locks of a lower rank (`no_circle`).

That a piece of straight-line code keeps to the rank is checked along its operations.
`Op.mask` is for a party that a signal may interrupt: the code of a handler may come in
front of what is left wherever the mask is open, and is checked there once and for all
(`checked_interrupt`).
-/

namespace LockOrder

variable {P L : Type*}

/-! ### Waiting in a circle -/

def WaitsFor (waits holds : P → L → Prop) (p q : P) : Prop := ∃ l, waits p l ∧ holds q l

/-- Whoever waits for a lock holds only locks of a lower rank. -/
def InOrder (rank : L → Nat) (waits holds : P → L → Prop) : Prop :=
  ∀ p l l', waits p l → holds p l' → rank l' < rank l

variable {waits holds : P → L → Prop} {rank : L → Nat}

theorem rank_le_of_path (h : InOrder rank waits holds) {p q : P}
    (hpath : Relation.TransGen (WaitsFor waits holds) p q) :
    ∃ l l', waits p l ∧ holds q l' ∧ rank l ≤ rank l' := by
  induction hpath with
  | single hpq =>
    obtain ⟨l, hw, hh⟩ := hpq
    exact ⟨l, l, hw, hh, Nat.le_refl _⟩
  | tail _ hqr ih =>
    obtain ⟨l, l', hw, hh, hle⟩ := ih
    obtain ⟨l'', hw', hh'⟩ := hqr
    have hlt := h _ l'' l' hw' hh
    exact ⟨l, l'', hw, hh', by omega⟩

/-- **Nobody waits in a circle.** -/
theorem no_circle (h : InOrder rank waits holds) (p : P) :
    ¬ Relation.TransGen (WaitsFor waits holds) p p := by
  intro hpath
  obtain ⟨l, l', hw, hh, hle⟩ := rank_le_of_path h hpath
  have hlt := h p l l' hw hh
  omega

/-! ### Code -/

/-- An operation of a party: a lock or an unlock, a call that takes some of these locks one
after the other and gives each back, or a change of the signal mask. -/
inductive Op (L : Type*)
  | lock (l : L)
  | unlock (l : L)
  | visit (ls : List L)
  | mask (b : Bool)
  deriving DecidableEq, Repr

structure View (L : Type*) where
  held : List L
  masked : Bool

/-- The operation keeps to the rank. -/
def Op.Ok (rank : L → Nat) (v : View L) : Op L → Prop
  | .lock l => ∀ l' ∈ v.held, rank l' < rank l
  | .unlock l => l ∈ v.held
  | .visit ls => ∀ l ∈ ls, v.masked = true ∧ ∀ l' ∈ v.held, rank l' < rank l
  | .mask _ => True

def Op.after [DecidableEq L] (v : View L) : Op L → View L
  | .lock l => { v with held := l :: v.held }
  | .unlock l => { v with held := v.held.erase l }
  | .visit _ => v
  | .mask b => { v with masked := b }

/-- The operations keep to the rank, and while a signal may come nothing is held. -/
def Follows [DecidableEq L] (rank : L → Nat) : View L → List (Op L) → Prop
  | _, [] => True
  | v, o :: os =>
    (v.masked = false → v.held = []) ∧ o.Ok rank v ∧ Follows rank (o.after v) os

/-- The same to the end, where nothing is held and no signal may come. -/
def Checked [DecidableEq L] (rank : L → Nat) (v : View L) (os : List (Op L)) : Prop :=
  Follows rank v os ∧ os.foldl Op.after v = ⟨[], true⟩

section Code

variable [DecidableEq L] {v : View L} {o : Op L} {os os' : List (Op L)}

theorem checked_nil : Checked rank v [] ↔ v = ⟨[], true⟩ := by
  simp [Checked, Follows]

theorem checked_cons : Checked rank v (o :: os) ↔
    (v.masked = false → v.held = []) ∧ o.Ok rank v ∧ Checked rank (o.after v) os := by
  rw [Checked, Follows, Checked, List.foldl_cons, and_assoc, and_assoc]

theorem checked_append (h : Follows rank v os) :
    Checked rank v (os ++ os') ↔ Checked rank (os.foldl Op.after v) os' := by
  induction os generalizing v with
  | nil => exact Iff.rfl
  | cons o os ih =>
    obtain ⟨hopen, hok, hrest⟩ := h
    rw [List.cons_append, checked_cons, ih hrest, List.foldl_cons]
    exact ⟨fun h => h.2.2, fun h => ⟨hopen, hok, h⟩⟩

theorem Checked.held_eq_nil (h : Checked rank v os) (hopen : v.masked = false) : v.held = [] := by
  cases os with
  | nil =>
    rw [checked_nil] at h
    rw [h]
  | cons o os => exact (checked_cons.mp h).1 hopen

/-- A call may be carried out as a list of calls that take no other locks. -/
theorem Checked.expand {ls : List L} (h : Checked rank v (.visit ls :: os'))
    (hos : ∀ o ∈ os, ∃ ls', ls' ⊆ ls ∧ o = .visit ls') : Checked rank v (os ++ os') := by
  obtain ⟨hopen, hok, hrest⟩ := checked_cons.mp h
  induction os with
  | nil => exact hrest
  | cons o os ih =>
    obtain ⟨ls', hsub, rfl⟩ := hos o List.mem_cons_self
    rw [List.cons_append, checked_cons]
    exact ⟨hopen, fun l hl => hok l (hsub hl), ih fun o ho => hos o (List.mem_cons_of_mem _ ho)⟩

/-- **A handler may come in between** where the mask is open, if it is checked for itself
and leaves the mask open. -/
theorem checked_interrupt (hhandler : Follows rank ⟨[], true⟩ os)
    (hreturn : os.foldl Op.after ⟨[], true⟩ = ⟨[], false⟩) (h : Checked rank v os')
    (hopen : v.masked = false) : Checked rank { v with masked := true } (os ++ os') := by
  have hheld := h.held_eq_nil hopen
  obtain ⟨held, masked⟩ := v
  obtain rfl : held = [] := hheld
  obtain rfl : masked = false := hopen
  rw [checked_append hhandler, hreturn]
  exact h

theorem Op.Ok.nodup (h : o.Ok rank v) (hnodup : v.held.Nodup) : (o.after v).held.Nodup := by
  cases o with
  | lock l => exact List.nodup_cons.mpr ⟨fun hl => Nat.lt_irrefl _ (h l hl), hnodup⟩
  | unlock l => exact hnodup.erase l
  | visit ls => exact hnodup
  | mask b => exact hnodup

end Code

end LockOrder
