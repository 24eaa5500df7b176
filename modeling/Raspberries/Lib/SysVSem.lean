import Mathlib.Tactic.Common

/-!
# A System V semaphore under a key

The kernel has at most one set under a key; the set has an identifier, one semaphore
and the process that did the last `semop` on it (`GETPID`).  A caller names the set by
the identifier it has, `none` for the `-1` of a failed `semget`; the call fails when that
is not the identifier of the set.  It is assumed to fail for no other reason: the callers
have the permissions, and no signal interrupts a `semop` that blocks.

`Mutex` is the use of the semaphore as a lock: it is `1` only while nobody is inside, and
at most one party is.  There is a rule for every operation, and each says under which
condition the operation keeps the use.
-/

namespace SysVSem

structure SemSet where
  id : Nat
  value : Nat
  sempid : Nat
  deriving DecidableEq, Repr

/-- The set under the key, if there is one. -/
abbrev Kernel := Option SemSet

/-- The identifier is that of the set. -/
def Names (id : Option Nat) (k : Kernel) : Prop := ∃ set, k = some set ∧ id = some set.id

instance (id : Option Nat) (k : Kernel) : Decidable (Names id k) :=
  match k with
  | none => isFalse nofun
  | some set => decidable_of_iff (id = some set.id)
      ⟨fun h => ⟨set, rfl, h⟩, fun ⟨_, hset, h⟩ => Option.some.inj hset ▸ h⟩

/-- `semop` with `-1`: `none` while it blocks, and then whether it has succeeded. -/
def acquire (id : Option Nat) (me : Nat) (k : Kernel) : Option (Bool × Kernel) :=
  match k with
  | none => some (false, none)
  | some set =>
    if id = some set.id then
      if 0 < set.value then some (true, some { set with value := set.value - 1, sempid := me })
      else none
    else some (false, some set)

/-- `semop` with `+1`. -/
def release (id : Option Nat) (me : Nat) (k : Kernel) : Bool × Kernel :=
  match k with
  | none => (false, none)
  | some set =>
    if id = some set.id then (true, some { set with value := set.value + 1, sempid := me })
    else (false, some set)

/-- `semctl` with `IPC_RMID`. -/
def remove (id : Option Nat) (k : Kernel) : Kernel :=
  match k with
  | none => none
  | some set => if id = some set.id then none else some set

/-- `semctl` with `GETPID`, which gives `-1` for another identifier. -/
def getpid (id : Option Nat) (k : Kernel) : Int :=
  match k with
  | none => -1
  | some set => if id = some set.id then set.sempid else -1

/-- `semget` without a flag. -/
def get (k : Kernel) : Option Nat := k.map SemSet.id

/-- `semget` with `IPC_CREAT`; a new set gets the identifier `new`. -/
def create (new : Nat) (k : Kernel) : Nat × Kernel :=
  match k with
  | none => (new, some ⟨new, 0, 0⟩)
  | some set => (set.id, some set)

/-- `semget` with `IPC_CREAT | IPC_EXCL`; `none` for `EEXIST`. -/
def createExcl (new : Nat) (k : Kernel) : Option (Nat × Kernel) :=
  match k with
  | none => some (new, some ⟨new, 0, 0⟩)
  | some _ => none

theorem Names.acquire {id id' : Option Nat} {me : Nat} {ok : Bool} {k k' : Kernel}
    (h : Names id k) (hr : acquire id' me k = some (ok, k')) : Names id k' := by
  obtain ⟨set, rfl, hid⟩ := h
  rw [SysVSem.acquire] at hr
  split at hr
  · split at hr
    · obtain ⟨-, rfl⟩ := Prod.mk.inj (Option.some.inj hr)
      exact ⟨_, rfl, hid⟩
    · cases hr
  · obtain ⟨-, rfl⟩ := Prod.mk.inj (Option.some.inj hr)
    exact ⟨_, rfl, hid⟩

theorem Names.release {id id' : Option Nat} {me : Nat} {k : Kernel} (h : Names id k) :
    Names id (release id' me k).2 := by
  obtain ⟨set, rfl, hid⟩ := h
  rw [SysVSem.release]
  split
  · exact ⟨_, rfl, hid⟩
  · exact ⟨_, rfl, hid⟩

/-! ### The semaphore as a lock -/

/-- The semaphore is used as a lock by the parties of `P`. -/
structure Mutex {P : Type*} (k : Kernel) (inside : P → Prop) : Prop where
  le_one : ∀ set, k = some set → set.value ≤ 1
  free : ∀ set, k = some set → set.value = 1 → ∀ p, ¬ inside p
  one : ∀ p q, inside p → inside q → p = q

namespace Mutex

variable {P : Type*} {k k' : Kernel} {inside inside' : P → Prop}

theorem leave (h : Mutex k inside) (hle : ∀ q, inside' q → inside q) : Mutex k inside' where
  le_one := h.le_one
  free set hk hv q hq := h.free set hk hv q (hle q hq)
  one q r hq hr := h.one q r (hle q hq) (hle r hr)

theorem of_none (h : Mutex k inside) : Mutex none inside where
  le_one _ hk := nomatch hk
  free _ hk := nomatch hk
  one := h.one

theorem remove (h : Mutex k inside) (id : Option Nat) : Mutex (remove id k) inside := by
  cases k with
  | none => exact h
  | some set =>
    rw [SysVSem.remove]
    split
    · exact h.of_none
    · exact h

theorem new (h : Mutex none inside) (id : Nat) : Mutex (some ⟨id, 0, 0⟩) inside where
  le_one set hk := by
    obtain rfl := Option.some.inj hk
    exact Nat.zero_le 1
  free set hk hv := by
    obtain rfl := Option.some.inj hk
    cases hv
  one := h.one

theorem create (h : Mutex k inside) (new : Nat) : Mutex (create new k).2 inside := by
  cases k with
  | none => exact h.new new
  | some set => exact h

theorem createExcl (h : Mutex k inside) {new : Nat} {r : Nat × Kernel}
    (hr : createExcl new k = some r) : Mutex r.2 inside := by
  cases k with
  | none =>
    obtain rfl := Option.some.inj hr
    exact h.new new
  | some set => cases hr

theorem acquire (p : P) (h : Mutex k inside) {id : Option Nat} {me : Nat} {ok : Bool}
    (hid : Names id k) (hr : acquire id me k = some (ok, k'))
    (hin : ∀ q, inside' q → q = p ∨ inside q) : Mutex k' inside' := by
  obtain ⟨set, rfl, rfl⟩ := hid
  rw [SysVSem.acquire, if_pos rfl] at hr
  split at hr
  next hpos =>
    obtain ⟨-, rfl⟩ := Prod.mk.inj (Option.some.inj hr)
    have hle := h.le_one set rfl
    have hnone := h.free set rfl (by omega)
    have honly : ∀ q, inside' q → q = p := fun q hq => (hin q hq).resolve_right (hnone q)
    refine ⟨?_, ?_, ?_⟩
    · intro set' hk
      obtain rfl := Option.some.inj hk
      show set.value - 1 ≤ 1
      omega
    · intro set' hk hv
      obtain rfl := Option.some.inj hk
      have hv' : set.value - 1 = 1 := hv
      omega
    · intro q r hq hr
      rw [honly q hq, honly r hr]
  next => cases hr

theorem release {p : P} (h : Mutex k inside) {id : Option Nat} {me : Nat} (hp : inside p)
    (hin : ∀ q, inside' q → q ≠ p ∧ inside q) : Mutex (release id me k).2 inside' := by
  have hnone : ∀ q, ¬ inside' q := fun q hq => (hin q hq).1 (h.one q p (hin q hq).2 hp)
  have hsame := h.leave fun q hq => (hin q hq).2
  cases k with
  | none => exact hsame
  | some set =>
    rw [SysVSem.release]
    split
    · have hle := h.le_one set rfl
      have hheld : set.value ≠ 1 := fun hv => h.free set rfl hv p hp
      refine ⟨fun set' hk => ?_, fun _ _ _ q => hnone q, fun q r hq _ => absurd hq (hnone q)⟩
      obtain rfl := Option.some.inj hk
      show set.value + 1 ≤ 1
      omega
    · exact hsame

/-- The first release, on a semaphore that is `0` and with nobody inside. -/
theorem post (h : Mutex k inside) {id : Option Nat} {me : Nat}
    (hzero : ∀ set, k = some set → set.value = 0) (hnone : ∀ q, ¬ inside q) :
    Mutex (SysVSem.release id me k).2 inside := by
  cases k with
  | none => exact h
  | some set =>
    rw [SysVSem.release]
    split
    · refine ⟨fun set' hk => ?_, fun _ _ _ q => hnone q, h.one⟩
      obtain rfl := Option.some.inj hk
      have hv := hzero set rfl
      show set.value + 1 ≤ 1
      omega
    · exact h

end Mutex

end SysVSem
