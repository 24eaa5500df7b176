import Raspberries.IrAlarm.LockSys

/-!
# The order of the locks in the code

The locks are taken in the order semaphore, `mtx_bsy`, `mtx_status`, `mtx_alarm`.
`CodeOk` says that what a thread has left keeps to it, with the locks it holds and its
mask; every function does, from nothing held on, and so does what is left behind each
instruction.
-/

namespace Raspberries.IrAlarm

open LockOrder

def Lock.rank : Lock → Nat
  | .sem => 0
  | .mtxBsy _ => 1
  | .mtx .status => 2
  | .mtx .alarm => 3

/-- What an instruction does to the locks and to the mask. -/
def Instr.op : Instr → Op Lock
  | .sigBlock => .mask true
  | .sigUnblock | .sigreturn => .mask false
  | .acquire => .lock .sem
  | .release => .unlock .sem
  | .lock m => .lock (.mtx m)
  | .unlock m => .unlock (.mtx m)
  | .suspend w | .event (.setdata w _) | .event (.resume w) => .visit [.mtxBsy w]
  | .event (.doAlarmAction _) | .event (.undoAlarmAction _) => .visit []
  | .work .switch => .visit [.mtxBsy .alarm, .mtxBsy .status]
  | .work (.alarmThread _) => .visit [.mtxBsy .alarm]
  | .work _ | .callbackReturn => .visit []

/-! ### What a thread has left -/

/-- The rest of what thread `p` executes keeps to the order.  Only the main thread opens
its mask, and a callback ends with its return. -/
structure CodeOk (p : Tid) (v : View Lock) (code : List Instr) : Prop where
  checked : Checked Lock.rank v (code.map Instr.op)
  nodup : v.held.Nodup
  masked : p ≠ .main → v.masked = true ∧ ∀ i ∈ code, i.op ≠ .mask false
  last : .callbackReturn ∉ code.dropLast

section CodeOk

variable {p : Tid} {v : View Lock} {i : Instr} {rest : List Instr}

theorem CodeOk.ok (h : CodeOk p v (i :: rest)) : i.op.Ok Lock.rank v :=
  (checked_cons.mp h.checked).2.1

theorem CodeOk.next (h : CodeOk p v (i :: rest)) : CodeOk p (i.op.after v) rest where
  checked := (checked_cons.mp h.checked).2.2
  nodup := h.ok.nodup h.nodup
  masked hp := by
    obtain ⟨hmasked, hcode⟩ := h.masked hp
    refine ⟨?_, fun j hj => hcode j (List.mem_cons_of_mem _ hj)⟩
    have hi := hcode i List.mem_cons_self
    cases hop : i.op with
    | mask b =>
      cases b with
      | true => rfl
      | false => exact absurd hop hi
    | _ => exact hmasked
  last hmem := by
    cases rest with
    | nil => cases hmem
    | cons j rest => exact h.last (List.mem_cons_of_mem _ hmem)

theorem Work.run_op {M : Nat} {doXmpp : Bool} {now : Int} {vars : LockVars} {k : Work}
    {ls : List Lock} (hk : (Instr.work k).op = .visit ls) :
    ∀ i ∈ (k.run M doXmpp now vars).2, (∃ ls', ls' ⊆ ls ∧ i.op = .visit ls') ∧
      i ≠ .callbackReturn := by
  cases k with
  | switch =>
    obtain rfl : [Lock.mtxBsy .alarm, .mtxBsy .status] = ls := Op.visit.inj hk
    intro i hi
    obtain ⟨e, -, rfl⟩ := List.mem_map.mp hi
    refine ⟨?_, (by simp)⟩
    cases e with
    | doAlarmAction r | undoAlarmAction r => exact ⟨[], List.nil_subset _, rfl⟩
    | setdata w data | resume w =>
      refine ⟨[.mtxBsy w], ?_, rfl⟩
      cases w <;> simp
  | alarmThread data =>
    obtain rfl : [Lock.mtxBsy .alarm] = ls := Op.visit.inj hk
    intro i hi
    obtain ⟨e, -, rfl⟩ := List.mem_map.mp hi
    refine ⟨?_, (by cases e <;> rintro ⟨⟩)⟩
    cases e with
    | digitalWrite pin value | usleep us => exact ⟨[], List.nil_subset _, rfl⟩
    | suspend => exact ⟨[.mtxBsy .alarm], List.Subset.refl _, rfl⟩
  | statusLed data =>
    intro i hi
    obtain ⟨e, -, rfl⟩ := List.mem_map.mp hi
    exact ⟨⟨[], List.nil_subset _, rfl⟩, (by simp)⟩
  | status e =>
    intro i hi
    cases e <;> cases hi
  | _ =>
    intro i hi
    cases hi

theorem CodeOk.work {k : Work} {M : Nat} {doXmpp : Bool} {now : Int} {vars : LockVars}
    (h : CodeOk p v (.work k :: rest)) :
    CodeOk p v ((k.run M doXmpp now vars).2 ++ rest) := by
  obtain ⟨ls, hk⟩ : ∃ ls, (Instr.work k).op = .visit ls := by
    cases k <;> exact ⟨_, rfl⟩
  have hrun := @Work.run_op M doXmpp now vars k ls hk
  refine ⟨?_, h.nodup, ?_, ?_⟩
  · have hchecked := h.checked
    rw [List.map_cons, hk] at hchecked
    rw [List.map_append]
    refine hchecked.expand ?_
    intro o ho
    obtain ⟨i, hi, rfl⟩ := List.mem_map.mp ho
    exact (hrun i hi).1
  · intro hp
    obtain ⟨hmasked, hcode⟩ := h.masked hp
    refine ⟨hmasked, ?_⟩
    intro i hi
    cases List.mem_append.mp hi with
    | inl hi =>
      obtain ⟨ls', -, hop⟩ := (hrun i hi).1
      rw [hop]
      rintro ⟨⟩
    | inr hi => exact hcode i (List.mem_cons_of_mem _ hi)
  · intro hmem
    cases rest with
    | nil =>
      rw [List.append_nil] at hmem
      exact (hrun _ (List.dropLast_subset _ hmem)).2 rfl
    | cons j rest =>
      rw [List.dropLast_append_of_ne_nil (List.cons_ne_nil j rest)] at hmem
      cases List.mem_append.mp hmem with
      | inl hmem => exact (hrun _ hmem).2 rfl
      | inr hmem => exact h.next.last hmem

theorem CodeOk.handler {code : List Instr} (h : CodeOk .main v code) (hopen : v.masked = false) :
    CodeOk .main { v with masked := true } (sighandler ++ code) := by
  refine ⟨?_, h.nodup, fun hp => absurd rfl hp, ?_⟩
  · rw [List.map_append]
    refine checked_interrupt ?_ rfl h.checked hopen
    simp [sighandler, Instr.op, Follows, Op.Ok, Op.after, Lock.rank]
  · intro hmem
    cases code with
    | nil => exact absurd hmem (by decide)
    | cons j rest =>
      rw [List.dropLast_append_of_ne_nil (List.cons_ne_nil j rest)] at hmem
      cases List.mem_append.mp hmem with
      | inl hmem => exact absurd hmem (by decide)
      | inr hmem => exact h.last hmem

/-- Every function keeps to the order. -/
theorem codeOk_loopCode : CodeOk .main ⟨[], true⟩ loopCode where
  checked := by simp [loopCode, Instr.op, Checked, Follows, Op.Ok, Op.after, Lock.rank]
  nodup := List.nodup_nil
  masked hp := absurd rfl hp
  last := by decide

theorem codeOk_irFlank : CodeOk .flank ⟨[], true⟩ irFlank where
  checked := by simp [irFlank, Instr.op, Checked, Follows, Op.Ok, Op.after, Lock.rank]
  nodup := List.nodup_nil
  masked _ := ⟨rfl, by decide⟩
  last := by decide

theorem codeOk_callback (id : Int) : CodeOk .xmpp ⟨[], true⟩ (irxmppThrdCallback id) := by
  rw [irxmppThrdCallback]
  split
  · refine ⟨?_, List.nodup_nil, fun _ => ⟨rfl, by decide⟩, by decide⟩
    simp [Instr.op, Checked, Follows, Op.Ok, Op.after, Lock.rank]
  · split
    · refine ⟨?_, List.nodup_nil, fun _ => ⟨rfl, by decide⟩, by decide⟩
      simp [Instr.op, Checked, Follows, Op.Ok, Op.after, Lock.rank]
    · exact ⟨checked_nil.mpr rfl, List.nodup_nil, fun _ => ⟨rfl, by decide⟩, by decide⟩

theorem codeOk_worker (data : AlrmState) (w : Worker) :
    CodeOk (.worker w) ⟨[], true⟩ (workerCallback data w) := by
  cases w with
  | status | alarm =>
    refine ⟨?_, List.nodup_nil, fun _ => ⟨rfl, ?_⟩, ?_⟩
    · simp [workerCallback, Instr.op, Checked, Follows, Op.Ok, Op.after, Lock.rank]
    · simp [workerCallback, Instr.op]
    · simp [workerCallback]

end CodeOk

end Raspberries.IrAlarm
