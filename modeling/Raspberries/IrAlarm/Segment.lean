import Raspberries.IrAlarm.IrAlarmCtl

/-!
# The segment of `irmem_init`

`irmem_init` runs over the table of sizes once: the running sum is the offset of each
object, and at the end the size it asks `shmget` for.  The second loop then adds the
offset to an `int *`, so object `i` starts at four times the bytes before it, in a segment
that was asked for in bytes.

`objects_inside_iff` says which objects lie in the segment.  `shmat` maps whole pages, so an
object behind the segment can be used as long as it is not behind the last page; with one
that is, `do_set` and `do_get` end in a SIGSEGV (`far_object_faults`).
`objects_separate_iff` says that otherwise what is stored in one object is kept until it is
stored again.
-/

namespace Raspberries.IrAlarm

open Bytes

/-- `struct irshmem_data`; `none` is the null pointer that `calloc` leaves. -/
structure IrshmemData where
  pOff : Nat
  ptr : Option Nat
  deriving DecidableEq, Repr

/-- `irsm_result`, as far as `irmem_init` returns it. -/
inductive IrsmResult
  | ok
  | rdonly
  | ninit
  deriving DecidableEq, Repr

/-- `IPC_CREAT | 0660`. -/
def imemDefault : Nat := 0o1000 ||| 0o660
def imemExists : Nat := 0o600
def imemFallbck : Nat := 0o400

/-- The first loop: the entries of `shmem`, and `cur_offset` behind it. -/
def setOffsets : List ShmObject → Nat → List IrshmemData × Nat
  | [], curOffset => ([], curOffset)
  | type :: initial, curOffset =>
    let (shmem, siz) := setOffsets initial (curOffset + type.size)
    (⟨curOffset, none⟩ :: shmem, siz)

def setPtrs (shmem : List IrshmemData) : List IrshmemData :=
  shmem.map fun d => { d with ptr := some (4 * d.pOff) }

/-- What `irmem_init` returns and leaves in `shmem`, and the size and the flags of every
`shmget` it has made. -/
structure InitRun where
  ret : IrsmResult
  shmem : List IrshmemData
  requests : List (Nat × Nat)
  deriving DecidableEq, Repr

def attach (shmat : Bool → Bool) (ret : IrsmResult) (shmem : List IrshmemData)
    (requests : List (Nat × Nat)) : InitRun :=
  if shmat (ret = .rdonly) then ⟨ret, setPtrs shmem, requests⟩ else ⟨.ninit, shmem, requests⟩

/-- `irmem_init`.  `shmget siz flags` and `shmat rdonly` say which system calls succeed. -/
def irmemInit (initial : List ShmObject) (create : Int) (shmget : Nat → Nat → Bool)
    (shmat : Bool → Bool) : InitRun :=
  let (shmem, curOffset) := setOffsets initial 0
  let flags := if create = 0 then imemExists else imemDefault
  if shmget curOffset flags then attach shmat .ok shmem [(curOffset, flags)]
  else if shmget curOffset imemFallbck then
    attach shmat .rdonly shmem [(curOffset, flags), (curOffset, imemFallbck)]
  else ⟨.ninit, shmem, [(curOffset, flags), (curOffset, imemFallbck)]⟩

/-- `irmem_getptr` on the table it has left. -/
def InitRun.getptr (r : InitRun) (id : Nat) : Option Nat := r.shmem[id]?.bind IrshmemData.ptr

/-! ### The table -/

def tableSize (initial : List ShmObject) : Nat := (initial.map ShmObject.size).sum

def bytesBehind (initial : List ShmObject) (i : Nat) : Nat := tableSize (initial.drop (i + 1))

theorem ShmObject.size_pos (type : ShmObject) : 0 < type.size := by
  cases type <;> decide

theorem tableSize_cons (type : ShmObject) (initial : List ShmObject) :
    tableSize (type :: initial) = type.size + tableSize initial := rfl

theorem setOffsets_siz (initial : List ShmObject) (curOffset : Nat) :
    (setOffsets initial curOffset).2 = curOffset + tableSize initial := by
  induction initial generalizing curOffset with
  | nil => rfl
  | cons type initial ih =>
    have hstep : (setOffsets (type :: initial) curOffset).2 =
        (setOffsets initial (curOffset + type.size)).2 := rfl
    rw [hstep, ih, tableSize_cons]
    omega

theorem setOffsets_getElem? {initial : List ShmObject} {i : Nat} (curOffset : Nat) :
    (setOffsets initial curOffset).1[i]? =
      (irmemType initial i).map fun _ => ⟨curOffset + pOff initial i, none⟩ := by
  induction initial generalizing curOffset i with
  | nil => rfl
  | cons type initial ih =>
    have hstep : (setOffsets (type :: initial) curOffset).1 =
        ⟨curOffset, none⟩ :: (setOffsets initial (curOffset + type.size)).1 := rfl
    rw [hstep]
    cases i with
    | zero => rfl
    | succ i =>
      rw [List.getElem?_cons_succ, ih, pOff_succ_cons, Nat.add_assoc]
      rfl

/-- The bytes before an object, its own and the ones behind it are all there are. -/
theorem pOff_add_bytesBehind {initial : List ShmObject} {i : Nat} {type : ShmObject}
    (h : irmemType initial i = some type) :
    pOff initial i + type.size + bytesBehind initial i = tableSize initial := by
  induction initial generalizing i with
  | nil => cases h
  | cons first initial ih =>
    cases i with
    | zero =>
      obtain rfl : first = type := Option.some.inj h
      have hbehind : bytesBehind (first :: initial) 0 = tableSize initial := rfl
      rw [pOff_zero, hbehind, tableSize_cons, Nat.zero_add]
    | succ i =>
      have htail := @ih i h
      have hbehind : bytesBehind (first :: initial) (i + 1) = bytesBehind initial i := rfl
      rw [pOff_succ_cons, hbehind, tableSize_cons]
      omega

section Init

variable {initial : List ShmObject} {create : Int} {shmget : Nat → Nat → Bool}
  {shmat : Bool → Bool}

theorem attach_of_ok {ret : IrsmResult} {shmem : List IrshmemData} {requests : List (Nat × Nat)}
    (hok : (attach shmat ret shmem requests).ret ≠ .ninit) :
    attach shmat ret shmem requests = ⟨ret, setPtrs shmem, requests⟩ := by
  rw [attach] at hok ⊢
  split at hok
  next hat => exact if_pos hat
  next => exact absurd rfl hok

/-- A run that succeeds has set the pointers, and every size it asked for is the sum. -/
theorem irmemInit_of_ok (hok : (irmemInit initial create shmget shmat).ret ≠ .ninit) :
    (irmemInit initial create shmget shmat).shmem = setPtrs (setOffsets initial 0).1 ∧
      (irmemInit initial create shmget shmat).requests ≠ [] ∧
      ∀ request ∈ (irmemInit initial create shmget shmat).requests,
        request.1 = tableSize initial := by
  have hsiz : (setOffsets initial 0).2 = tableSize initial := by
    rw [setOffsets_siz, Nat.zero_add]
  generalize hflags : (if create = 0 then imemExists else imemDefault) = flags
  simp only [irmemInit, hsiz, hflags] at hok ⊢
  by_cases hget : shmget (tableSize initial) flags
  · rw [if_pos hget] at hok ⊢
    rw [attach_of_ok hok]
    simp
  · rw [if_neg hget] at hok ⊢
    by_cases hfall : shmget (tableSize initial) imemFallbck
    · rw [if_pos hfall] at hok ⊢
      rw [attach_of_ok hok]
      simp
    · rw [if_neg hfall] at hok
      exact absurd rfl hok

/-- The pointers after a run that succeeds. -/
theorem getptr_irmemInit (hok : (irmemInit initial create shmget shmat).ret ≠ .ninit) (id : Nat) :
    (irmemInit initial create shmget shmat).getptr id = irmemGetptr initial id := by
  have hentry : (setOffsets initial 0).1[id]? =
      (irmemType initial id).map fun _ => ⟨0 + pOff initial id, none⟩ := setOffsets_getElem? 0
  rw [InitRun.getptr, (irmemInit_of_ok hok).1, setPtrs, List.getElem?_map, hentry]
  cases htype : irmemType initial id with
  | none =>
    have hge : id ≥ initial.length := List.getElem?_eq_none_iff.mp htype
    rw [irmemGetptr, if_pos hge]
    rfl
  | some type =>
    rw [irmemGetptr_of_type htype, Nat.zero_add]
    rfl

end Init

/-! ### Which objects lie in the segment -/

/-- The bytes from `ptr` on lie in a segment of `n` bytes. -/
def InSegment (n ptr size : Nat) : Prop := ∀ a, ptr ≤ a → a < ptr + size → a < n

theorem inSegment_iff {n ptr size : Nat} (h : 0 < size) :
    InSegment n ptr size ↔ ptr + size ≤ n := by
  refine ⟨?_, ?_⟩
  · intro hin
    have hlast := hin (ptr + size - 1) (by omega) (by omega)
    omega
  · intro hle a _ hlt
    omega

/-- Object `i` lies in every segment the run has asked for. -/
def ObjectInside (initial : List ShmObject) (r : InitRun) (i : Nat) : Prop :=
  ∀ type ptr, irmemType initial i = some type → r.getptr i = some ptr →
    ∀ request ∈ r.requests, InSegment request.1 ptr type.size

section Inside

variable {initial : List ShmObject} {create : Int} {shmget : Nat → Nat → Bool}
  {shmat : Bool → Bool}

/-- An object lies in the segment if the objects behind it have three times the bytes of
those before it. -/
theorem object_inside_iff_behind (hok : (irmemInit initial create shmget shmat).ret ≠ .ninit)
    {i : Nat} (hi : i < initial.length) :
    ObjectInside initial (irmemInit initial create shmget shmat) i ↔
      3 * pOff initial i ≤ bytesBehind initial i := by
  have htype : irmemType initial i = some (initial.get ⟨i, hi⟩) := List.getElem?_eq_getElem hi
  have hptr := getptr_irmemInit hok i
  rw [irmemGetptr_of_type htype] at hptr
  obtain ⟨-, hne, hrequest⟩ := irmemInit_of_ok hok
  have hsum := pOff_add_bytesBehind htype
  have hpos := (initial.get ⟨i, hi⟩).size_pos
  refine ⟨?_, ?_⟩
  · intro hin
    obtain ⟨request, hmem⟩ := List.exists_mem_of_ne_nil _ hne
    have hle := (inSegment_iff hpos).mp (hin _ _ htype hptr request hmem)
    rw [hrequest request hmem] at hle
    omega
  · intro hle type ptr htype' hptr' request hmem
    obtain rfl := Option.some.inj (htype.symm.trans htype')
    obtain rfl := Option.some.inj (hptr.symm.trans hptr')
    rw [inSegment_iff hpos, hrequest request hmem]
    omega

theorem last_outside (h : 2 ≤ initial.length) :
    ¬ 3 * pOff initial (initial.length - 1) ≤ bytesBehind initial (initial.length - 1) := by
  have hbehind : bytesBehind initial (initial.length - 1) = 0 := by
    rw [bytesBehind, List.drop_eq_nil_of_le (by omega)]
    rfl
  have hfirst : irmemType initial 0 = some (initial.get ⟨0, by omega⟩) :=
    List.getElem?_eq_getElem (by omega)
  have hle := pOff_add_size_le hfirst (show 0 < initial.length - 1 by omega)
  have hpos := (initial.get ⟨0, by omega⟩).size_pos
  omega

/-- **Which objects lie in the segment.**  Those before which there are at most a third
as many bytes as behind them; so all objects of a table do only if there is just one. -/
theorem objects_inside_iff (hok : (irmemInit initial create shmget shmat).ret ≠ .ninit) :
    (∀ i, i < initial.length →
      (ObjectInside initial (irmemInit initial create shmget shmat) i ↔
        3 * pOff initial i ≤ bytesBehind initial i)) ∧
    (initial ≠ [] →
      ((∀ i, i < initial.length →
        ObjectInside initial (irmemInit initial create shmget shmat) i) ↔
          initial.length = 1)) := by
  refine ⟨fun i hi => object_inside_iff_behind hok hi, ?_⟩
  intro hne
  have hlen := List.length_pos_iff.mpr hne
  refine ⟨?_, ?_⟩
  · intro hall
    by_cases hone : initial.length = 1
    · exact hone
    · have hlast := (object_inside_iff_behind hok (by omega)).mp
        (hall (initial.length - 1) (by omega))
      exact absurd hlast (last_outside (by omega))
  · intro hone i hi
    obtain rfl : i = 0 := by omega
    apply (object_inside_iff_behind hok hi).mpr
    exact Nat.zero_le _

end Inside

def daemonInit : InitRun := irmemInit irsmData 1 (fun _ _ => true) (fun _ => true)

theorem objects_inside_irsmData :
    (∀ i, i < irsmData.length →
      (ObjectInside irsmData daemonInit i ↔ 3 * pOff irsmData i ≤ bytesBehind irsmData i)) ∧
    (irsmData ≠ [] →
      ((∀ i, i < irsmData.length → ObjectInside irsmData daemonInit i) ↔
        irsmData.length = 1)) :=
  objects_inside_iff (by decide)

/-- The state of the alarm is 83 bytes behind the end of the segment of 29 bytes. -/
theorem alarm_object_outside :
    ¬ ∀ (initial : List ShmObject) (i : Nat), initial ≠ [] → i < initial.length →
      ObjectInside initial (irmemInit initial 1 (fun _ _ => true) (fun _ => true)) i := by
  intro h
  have hinside := h irsmData shmAlarm (by decide) (by decide) .byte 112 (by decide) (by decide)
    (29, imemDefault) (by decide)
  exact absurd (hinside 112 (by decide) (by decide)) (by decide)

/-! ### What is stored and read -/

/-- The bytes that `shmat` maps for a segment of `siz` bytes, which are whole pages. -/
def mappedBytes (page siz : Nat) : Nat := (siz + page - 1) / page * page

/-- The bytes behind `shmptr`; the last `shmget` is the one that has succeeded. -/
def InitRun.mapped (r : InitRun) (page : Nat) : Nat :=
  mappedBytes page ((r.requests.getLast?.map Prod.fst).getD 0)

/-- The bytes that are accessed for object `id` at `ptr` are mapped. -/
def accessible (mapped : Nat) (initial : List ShmObject) (id ptr : Nat) : Bool :=
  (irmemType initial id).all fun type => ptr + type.size ≤ mapped

/-- A call of `do_set`: the number, and the address of the `unsigned long` that holds it in
the memory of the process. -/
structure SetCall where
  id : Nat
  value : Nat
  valuep : Nat
  stack : Memory

section Mapped

variable (mapped : Nat) (initial : List ShmObject)

/-- `do_get`; `none` for the SIGSEGV of an access that is not mapped. -/
def doGetVia (id ptr : Nat) (seg : Memory) : Option Shown :=
  if accessible mapped initial id ptr then some (doGet initial id ptr seg) else none

/-- `do_set` with its three arguments: it loads through `valuep` with the object's type. -/
def doSetVia (id ptr valuep : Nat) (stack seg : Memory) : Option (Memory × Shown) :=
  if accessible mapped initial id ptr then
    match irmemType initial id with
    | some type =>
      let seg := writeLE seg ptr type.size (readLE stack valuep type.size)
      some (seg, doGet initial id ptr seg)
    | none => some (seg, doGet initial id ptr seg)
  else none

end Mapped

/-- The call by the shell or the command line, which give up on a null pointer; an
`unsigned long` has `ulong` bytes. -/
def SetCall.run (ulong page : Nat) (initial : List ShmObject) (r : InitRun) (seg : Memory)
    (c : SetCall) : Option Memory :=
  match r.getptr c.id with
  | some ptr =>
    (doSetVia (r.mapped page) initial c.id ptr c.valuep (writeLE c.stack c.valuep ulong c.value)
      seg).map Prod.fst
  | none => some seg

def lastSet (id : Nat) : List SetCall → Option Nat
  | [] => none
  | c :: calls => (lastSet id calls).or (if c.id = id then some c.value else none)

/-- The objects are apart: behind the calls each shows the last number set for it, as far as
it has room for it, or what it had before; a call leaves the bytes of every other object
alone; and an id at or beyond the end of the table has a null pointer, with which the
segment is left alone. -/
structure ObjectsSeparate (ulong page : Nat) (initial : List ShmObject) (r : InitRun)
    (calls : List SetCall) (seg : Memory) : Prop where
  shown : ∀ i type ptr, irmemType initial i = some type → r.getptr i = some ptr →
    ∃ seg', calls.foldlM (SetCall.run ulong page initial r) seg = some seg' ∧
      (doGetVia (r.mapped page) initial i ptr seg').map Shown.value =
        some (match lastSet i calls with
          | some value => some (value % 2 ^ (8 * type.size))
          | none => (doGet initial i ptr seg).value)
  frame : ∀ (c : SetCall) seg' j type ptr, c.run ulong page initial r seg = some seg' →
    j ≠ c.id → irmemType initial j = some type → r.getptr j = some ptr →
    ∀ a, ptr ≤ a → a < ptr + type.size → seg' a = seg a
  outside : ∀ c : SetCall, c.id ≥ initial.length →
    r.getptr c.id = none ∧ c.run ulong page initial r seg = some seg

/-- Every object of the table ends in the pages that are mapped for all of them. -/
def ObjectsMapped (page : Nat) (initial : List ShmObject) : Prop :=
  ∀ i type, irmemType initial i = some type →
    4 * pOff initial i + type.size ≤ mappedBytes page (tableSize initial)

section Sequence

variable {ulong page : Nat} {initial : List ShmObject} {create : Int}
  {shmget : Nat → Nat → Bool} {shmat : Bool → Bool}

theorem accessible_of_type {mapped id ptr : Nat} {type : ShmObject}
    (h : irmemType initial id = some type) :
    accessible mapped initial id ptr = true ↔ ptr + type.size ≤ mapped := by
  rw [accessible, h, Option.all_some, decide_eq_true_iff]

/-- The load through `valuep` finds the last bytes of the number, which are all that is
stored. -/
theorem doSetVia_of_type (hwidth : ∀ type ∈ initial, type.size ≤ ulong)
    {mapped id ptr valuep value : Nat} {stack seg : Memory} {type : ShmObject}
    (h : irmemType initial id = some type) :
    (doSetVia mapped initial id ptr valuep (writeLE stack valuep ulong value) seg).map Prod.fst =
      if ptr + type.size ≤ mapped then some (writeLE seg ptr type.size value) else none := by
  have hle := hwidth type (List.mem_of_getElem? h)
  simp only [doSetVia, h, readLE_writeLE_of_le hle, writeLE_mod, accessible_of_type h]
  split
  next => rfl
  next => rfl

/-- What is mapped behind a run that succeeds. -/
theorem mapped_irmemInit (hok : (irmemInit initial create shmget shmat).ret ≠ .ninit) :
    (irmemInit initial create shmget shmat).mapped page =
      mappedBytes page (tableSize initial) := by
  obtain ⟨-, hne, hrequest⟩ := irmemInit_of_ok hok
  rw [InitRun.mapped, List.getLast?_eq_some_getLast hne, Option.map_some, Option.getD_some,
    hrequest _ (List.getLast_mem hne)]

theorem SetCall.run_of_type (hwidth : ∀ type ∈ initial, type.size ≤ ulong)
    (hok : (irmemInit initial create shmget shmat).ret ≠ .ninit) (seg : Memory) {c : SetCall}
    {type : ShmObject} (h : irmemType initial c.id = some type) :
    c.run ulong page initial (irmemInit initial create shmget shmat) seg =
      if 4 * pOff initial c.id + type.size ≤ mappedBytes page (tableSize initial) then
        some (writeLE seg (4 * pOff initial c.id) type.size c.value)
      else none := by
  simp only [SetCall.run, getptr_irmemInit hok, irmemGetptr_of_type h, doSetVia_of_type hwidth h,
    mapped_irmemInit hok]

theorem SetCall.run_of_ge (hok : (irmemInit initial create shmget shmat).ret ≠ .ninit)
    (seg : Memory) {c : SetCall} (h : c.id ≥ initial.length) :
    c.run ulong page initial (irmemInit initial create shmget shmat) seg = some seg := by
  have hnull : irmemGetptr initial c.id = none := if_pos h
  simp only [SetCall.run, getptr_irmemInit hok, hnull]

theorem SetCall.run_eq_some (hwidth : ∀ type ∈ initial, type.size ≤ ulong)
    (hok : (irmemInit initial create shmget shmat).ret ≠ .ninit) {seg seg' : Memory} {c : SetCall}
    (h : c.run ulong page initial (irmemInit initial create shmget shmat) seg = some seg') :
    (irmemType initial c.id = none ∧ seg' = seg) ∨
      ∃ type, irmemType initial c.id = some type ∧
        seg' = writeLE seg (4 * pOff initial c.id) type.size c.value := by
  cases hid : irmemType initial c.id with
  | none =>
    have hout : c.id ≥ initial.length := List.getElem?_eq_none_iff.mp hid
    rw [SetCall.run_of_ge hok seg hout] at h
    exact Or.inl ⟨rfl, (Option.some.inj h).symm⟩
  | some type =>
    rw [SetCall.run_of_type hwidth hok seg hid] at h
    obtain ⟨-, h⟩ := Option.ite_none_right_eq_some.mp h
    exact Or.inr ⟨type, rfl, (Option.some.inj h).symm⟩

theorem SetCall.run_other (hwidth : ∀ type ∈ initial, type.size ≤ ulong)
    (hok : (irmemInit initial create shmget shmat).ret ≠ .ninit) {seg seg' : Memory} {c : SetCall}
    (h : c.run ulong page initial (irmemInit initial create shmget shmat) seg = some seg')
    {j : Nat} {type : ShmObject} (hj : irmemType initial j = some type) (hne : j ≠ c.id) {a : Nat}
    (hge : 4 * pOff initial j ≤ a) (hlt : a < 4 * pOff initial j + type.size) :
    seg' a = seg a := by
  rcases SetCall.run_eq_some hwidth hok h with ⟨-, rfl⟩ | ⟨type', hid, rfl⟩
  · rfl
  · rcases Nat.lt_or_gt_of_ne hne with hbefore | hbehind
    · have hle := pOff_add_size_le hj hbefore
      exact writeLE_of_lt (by omega) _ _ _
    · have hle := pOff_add_size_le hid hbehind
      exact writeLE_of_ge (by omega) _ _

theorem SetCall.readLE_run (hwidth : ∀ type ∈ initial, type.size ≤ ulong)
    (hok : (irmemInit initial create shmget shmat).ret ≠ .ninit) {seg seg' : Memory} {c : SetCall}
    (h : c.run ulong page initial (irmemInit initial create shmget shmat) seg = some seg')
    {i : Nat} {type : ShmObject} (hi : irmemType initial i = some type) :
    readLE seg' (4 * pOff initial i) type.size =
      if c.id = i then c.value % 256 ^ type.size
      else readLE seg (4 * pOff initial i) type.size := by
  split
  next hid =>
    subst hid
    rcases SetCall.run_eq_some hwidth hok h with ⟨hnone, -⟩ | ⟨type', htype, rfl⟩
    · cases hi.symm.trans hnone
    · obtain rfl := Option.some.inj (hi.symm.trans htype)
      exact readLE_writeLE_self ..
  next hid =>
    apply readLE_congr
    intro a hge hlt
    exact SetCall.run_other hwidth hok h hi (Ne.symm hid) hge hlt

/-- What is read behind any number of calls. -/
theorem readLE_foldlM_run (hwidth : ∀ type ∈ initial, type.size ≤ ulong)
    (hok : (irmemInit initial create shmget shmat).ret ≠ .ninit) {calls : List SetCall}
    {seg seg' : Memory} (h : calls.foldlM (SetCall.run ulong page initial
      (irmemInit initial create shmget shmat)) seg = some seg')
    {i : Nat} {type : ShmObject} (hi : irmemType initial i = some type) :
    readLE seg' (4 * pOff initial i) type.size =
      match lastSet i calls with
      | some value => value % 256 ^ type.size
      | none => readLE seg (4 * pOff initial i) type.size := by
  induction calls generalizing seg with
  | nil =>
    obtain rfl := Option.some.inj h
    rfl
  | cons c calls ih =>
    rw [List.foldlM_cons] at h
    obtain ⟨between, hc, hrest⟩ := Option.bind_eq_some_iff.mp h
    rw [ih hrest, lastSet]
    cases lastSet i calls with
    | some value => rfl
    | none =>
      rw [SetCall.readLE_run hwidth hok hc hi, Option.none_or]
      by_cases hid : c.id = i
      · rw [if_pos hid, if_pos hid]
      · rw [if_neg hid, if_neg hid]

/-- Where all objects are mapped, no call ends in a SIGSEGV. -/
theorem ObjectsMapped.foldlM_run (h : ObjectsMapped page initial)
    (hwidth : ∀ type ∈ initial, type.size ≤ ulong)
    (hok : (irmemInit initial create shmget shmat).ret ≠ .ninit) (calls : List SetCall)
    (seg : Memory) : ∃ seg', calls.foldlM (SetCall.run ulong page initial
      (irmemInit initial create shmget shmat)) seg = some seg' := by
  induction calls generalizing seg with
  | nil => exact ⟨seg, rfl⟩
  | cons c calls ih =>
    have hrun : ∃ between, c.run ulong page initial (irmemInit initial create shmget shmat) seg =
        some between := by
      cases hid : irmemType initial c.id with
      | none => exact ⟨seg, SetCall.run_of_ge hok seg (List.getElem?_eq_none_iff.mp hid)⟩
      | some type => exact ⟨_, (SetCall.run_of_type hwidth hok seg hid).trans (if_pos (h _ _ hid))⟩
    obtain ⟨between, hrun⟩ := hrun
    obtain ⟨seg', hseg'⟩ := ih between
    exact ⟨seg', by rw [List.foldlM_cons, hrun]; exact hseg'⟩

theorem ObjectsSeparate.objectsMapped {calls : List SetCall} {seg : Memory}
    (hok : (irmemInit initial create shmget shmat).ret ≠ .ninit)
    (h : ObjectsSeparate ulong page initial (irmemInit initial create shmget shmat) calls seg) :
    ObjectsMapped page initial := by
  intro i type hi
  obtain ⟨seg', -, hshown⟩ := h.shown i type (4 * pOff initial i) hi
    ((getptr_irmemInit hok i).trans (irmemGetptr_of_type hi))
  obtain ⟨shown, hget, -⟩ := Option.map_eq_some_iff.mp hshown
  obtain ⟨hmapped, -⟩ := Option.ite_none_right_eq_some.mp hget
  rwa [mapped_irmemInit hok, accessible_of_type hi] at hmapped

/-- **When the objects do not interfere.**  Behind any sequence of calls exactly if every
object of the table ends in the pages that are mapped. -/
theorem objects_separate_iff (hwidth : ∀ type ∈ initial, type.size ≤ ulong)
    (hok : (irmemInit initial create shmget shmat).ret = .ok) (page : Nat) (calls : List SetCall)
    (seg : Memory) :
    ObjectsSeparate ulong page initial (irmemInit initial create shmget shmat) calls seg ↔
      ObjectsMapped page initial := by
  have hne : (irmemInit initial create shmget shmat).ret ≠ .ninit := by
    rw [hok]
    decide
  have hptr : ∀ {i type ptr}, irmemType initial i = some type →
      (irmemInit initial create shmget shmat).getptr i = some ptr → 4 * pOff initial i = ptr :=
    fun hi hptr => Option.some.inj ((irmemGetptr_of_type hi).symm.trans
      ((getptr_irmemInit hne _).symm.trans hptr))
  refine ⟨ObjectsSeparate.objectsMapped hne, fun hmapped => ⟨?_, ?_, ?_⟩⟩
  · intro i type ptr hi hget
    obtain rfl := hptr hi hget
    obtain ⟨seg', hrun⟩ := hmapped.foldlM_run hwidth hne calls seg
    have hacc : accessible ((irmemInit initial create shmget shmat).mapped page) initial i
        (4 * pOff initial i) = true := by
      rw [mapped_irmemInit hne]
      exact (accessible_of_type hi).mpr (hmapped i type hi)
    have hpow : (256 : Nat) ^ type.size = 2 ^ (8 * type.size) := by rw [Nat.pow_mul]
    refine ⟨seg', hrun, ?_⟩
    simp only [doGetVia, hacc, if_true, Option.map_some, doGet, hi,
      readLE_foldlM_run hwidth hne hrun hi, hpow]
    cases lastSet i calls with
    | some value => rfl
    | none => rfl
  · intro c seg' j type ptr hrun hj htype hget a hge hlt
    obtain rfl := hptr htype hget
    exact SetCall.run_other hwidth hne hrun htype hj hge hlt
  · intro c hge
    exact ⟨(getptr_irmemInit hne c.id).trans (if_pos hge), SetCall.run_of_ge hne seg hge⟩

end Sequence

def pageSize : Nat := 4096

def exampleCalls : List SetCall := [⟨8, 4660, 16, fun _ => 0⟩, ⟨1, 511, 16, fun _ => 0⟩]

theorem objectsMapped_irsmData : ObjectsMapped pageSize irsmData := by
  have hall : ∀ i < irsmData.length, ∀ type ∈ irmemType irsmData i,
      4 * pOff irsmData i + type.size ≤ mappedBytes pageSize (tableSize irsmData) := by decide
  intro i type hi
  exact hall i (List.getElem?_eq_some_iff.mp hi).1 type hi

theorem objects_separate_irsmData :
    ObjectsSeparate 4 pageSize irsmData daemonInit exampleCalls fun _ => 0 :=
  (objects_separate_iff (by decide) (by decide) pageSize exampleCalls fun _ => 0).mpr
    objectsMapped_irsmData

theorem tableSize_replicate (n : Nat) (type : ShmObject) :
    tableSize (List.replicate n type) = n * type.size := by
  rw [tableSize, List.map_replicate, List.sum_replicate_nat]

theorem pOff_replicate {n i : Nat} (type : ShmObject) (h : i ≤ n) :
    pOff (List.replicate n type) i = i * type.size := by
  rw [pOff, List.take_replicate, List.map_replicate, List.sum_replicate_nat, Nat.min_eq_left h]

/-- Every system call succeeds. -/
theorem ret_irmemInit (initial : List ShmObject) (create : Int) :
    (irmemInit initial create (fun _ _ => true) fun _ => true).ret = .ok := rfl

/-- The last of 257 `INT32`s starts with byte 4096, and 1028 bytes are one page. -/
theorem far_object_faults :
    ¬ ∀ (initial : List ShmObject) (calls : List SetCall) (seg : Memory),
      (∀ type ∈ initial, type.size ≤ 4) →
      ObjectsSeparate 4 pageSize initial
        (irmemInit initial 1 (fun _ _ => true) fun _ => true) calls seg := by
  intro h
  have hsizes : ∀ type ∈ List.replicate 257 ShmObject.int32, type.size ≤ 4 := by
    intro type htype
    rw [List.eq_of_mem_replicate htype]
    exact Nat.le_refl 4
  have hlast : irmemType (List.replicate 257 .int32) 256 = some .int32 :=
    List.getElem?_replicate_of_lt (by decide)
  have hok : (irmemInit (List.replicate 257 .int32) 1 (fun _ _ => true) fun _ => true).ret ≠
      .ninit := by
    rw [ret_irmemInit]
    exact IrsmResult.noConfusion
  have hmapped := (h _ [⟨256, 5, 16, fun _ => 0⟩] (fun _ => 0) hsizes).objectsMapped hok 256 _ hlast
  rw [pOff_replicate _ (by decide), tableSize_replicate] at hmapped
  exact absurd hmapped (by decide)

end Raspberries.IrAlarm
