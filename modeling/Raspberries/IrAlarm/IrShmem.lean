import Raspberries.Lib.Bytes

/-!
# The shared memory objects of `irshmem.c`

The segment is a memory of bytes; addresses are offsets from `shmptr`.  Object `i`
starts at `(int *) shmptr + p_off`, where `p_off` is the sum of the sizes before it, so
at four times that many bytes.
-/

namespace Raspberries.IrAlarm

open Bytes

inductive ShmObject
  | byte
  | int16
  | int32
  | int64
  deriving DecidableEq, Repr

/-- The value of the enumerator, which is the width in bytes. -/
def ShmObject.size : ShmObject → Nat
  | .byte => 1
  | .int16 => 2
  | .int32 => 4
  | .int64 => 8

def irsmData : List ShmObject :=
  [.int32, .byte, .byte, .byte, .byte, .int32, .int32, .int32, .int32, .int32, .byte]

def irsmDesc : List String :=
  ["MAINLOOP", "ACTIVE", "SPEAKER", "SENDXMPP", "RASPICAM", "STATUSLED-ON", "STATUSLED-OFF",
    "IR-MINRECVD", "IR-MINALRMS", "IR-RESETALRMS", "ALARM-STATE"]

/-- `shmem[i].p_off` after `irmem_init`. -/
def pOff (initial : List ShmObject) (i : Nat) : Nat := ((initial.take i).map ShmObject.size).sum

/-- `irmem_getptr`, with `none` for the null pointer. -/
def irmemGetptr (initial : List ShmObject) (id : Nat) : Option Nat :=
  if id ≥ initial.length then none else some (4 * pOff initial id)

def irmemType (initial : List ShmObject) (id : Nat) : Option ShmObject := initial[id]?

/-! ### The objects do not overlap -/

theorem pOff_zero (initial : List ShmObject) : pOff initial 0 = 0 := rfl

theorem pOff_succ_cons (type : ShmObject) (initial : List ShmObject) (i : Nat) :
    pOff (type :: initial) (i + 1) = type.size + pOff initial i := rfl

theorem pOff_add_size_le {initial : List ShmObject} {i j : Nat} {type : ShmObject}
    (h : irmemType initial i = some type) (hij : i < j) :
    pOff initial i + type.size ≤ pOff initial j := by
  induction initial generalizing i j with
  | nil => cases h
  | cons first initial ih =>
    obtain ⟨j, rfl⟩ : ∃ k, j = k + 1 := ⟨j - 1, by omega⟩
    rw [pOff_succ_cons]
    cases i with
    | zero =>
      obtain rfl : first = type := Option.some.inj h
      rw [pOff_zero]
      omega
    | succ i =>
      have hle := @ih i j h (by omega)
      rw [pOff_succ_cons]
      omega

/-- The content of object `id`, with the width of its type. -/
def content (seg : Memory) (id : Nat) : Nat :=
  match irmemType irsmData id, irmemGetptr irsmData id with
  | some type, some ptr => readLE seg ptr type.size
  | _, _ => 0

section Content

variable {seg : Memory} {id : Nat} {type : ShmObject}

theorem irmemGetptr_of_type {initial : List ShmObject} (h : irmemType initial id = some type) :
    irmemGetptr initial id = some (4 * pOff initial id) := by
  have hlt : id < initial.length := (List.getElem?_eq_some_iff.mp h).1
  rw [irmemGetptr, if_neg (by omega)]

theorem content_of_type (h : irmemType irsmData id = some type) :
    content seg id = readLE seg (4 * pOff irsmData id) type.size := by
  rw [content, h, irmemGetptr_of_type h]

theorem content_writeLE_self (h : irmemType irsmData id = some type) (v : Nat) :
    content (writeLE seg (4 * pOff irsmData id) type.size v) id = v % 256 ^ type.size := by
  rw [content_of_type h, readLE_writeLE_self]

theorem content_writeLE_of_ne (h : irmemType irsmData id = some type) {id' : Nat} (hne : id' ≠ id)
    (v : Nat) : content (writeLE seg (4 * pOff irsmData id) type.size v) id' = content seg id' := by
  cases htype : irmemType irsmData id' with
  | none => rw [content, content, htype]
  | some type' =>
    rw [content_of_type htype, content_of_type htype]
    apply readLE_writeLE_of_disjoint
    rcases Nat.lt_or_gt_of_ne hne with hlt | hgt
    · have hle := pOff_add_size_le htype hlt
      omega
    · have hle := pOff_add_size_le h hgt
      omega

end Content

end Raspberries.IrAlarm
