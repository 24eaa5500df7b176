import Raspberries.IrAlarm.ShellGrammar

/-!
# The shell mode of `iralarmctl`

`do_shell` obeys one command after the other until its input ends.  It does not know how
the segment is attached: the first store to a read-only one ends the process.  The daemon
hears of nothing.

`shellRun_scene` says what is in the segment behind any number of commands, and
`shellRun_attempted` when one of them has tried to store.
-/

namespace Raspberries.IrAlarm

open Bytes CString

/-- The command with the strings that `str2int` finds in the rows of `g_args`. -/
def ShellCmd.handedOver (behind : List Char) : ShellCmd → ShellCmd
  | .get args => .get (args.map (handed behind))
  | .set args => .set (args.map (handed behind))
  | cmd => cmd

/-- The commands of `do_shell`; `behind` is the memory behind the rows, turn by turn. -/
def shellTurns (behind : Nat → List Char) (chunks : List (List Char)) : List ShellCmd :=
  (doShell chunks).mapIdx fun turn cmd => cmd.handedOver (behind turn)

/-- They are obeyed, unless a store ends the process; the prompt is printed behind each. -/
def shellRun (W : Nat) (rdonly : Bool) : CtlScene → List ShellCmd → CtlRun
  | s, [] => ⟨s, false, []⟩
  | s, cmd :: cmds =>
    let r := cmd.run W rdonly s
    if rdonly && r.attempted then r
    else
      let r' := shellRun W rdonly r.scene cmds
      ⟨r'.scene, r.attempted || r'.attempted, r.output ++ .text "> " :: r'.output⟩

/-- The number and the value that a command stores. -/
def ShellCmd.stores (W : Nat) : ShellCmd → Option (Nat × Nat)
  | .set (some [arg, arg']) =>
    match str2int W arg, str2int W arg' with
    | some id, some value => if id < irsmData.length then some (id, value) else none
    | _, _ => none
  | _ => none

/-- The segment behind `do_set`. -/
def storedIn (seg : Memory) (store : Nat × Nat) : Memory :=
  (doSet irsmData store.1 (4 * pOff irsmData store.1) store.2 seg).1

section Run

variable {W : Nat} {rdonly : Bool} {s : CtlScene}

/-- Commands that store nothing. -/
theorem run_of_stores_none {cmd : ShellCmd} (h : cmd.stores W = none) :
    (cmd.run W rdonly s).attempted = false ∧ (cmd.run W rdonly s).scene = s := by
  cases cmd with
  | all | help | unknown => exact ⟨rfl, rfl⟩
  | get args =>
    rcases args with _ | _ | ⟨arg, _ | ⟨arg', args⟩⟩
    · exact ⟨rfl, rfl⟩
    · exact ⟨rfl, rfl⟩
    · simp only [ShellCmd.run]
      cases str2int W arg with
      | none => exact ⟨rfl, rfl⟩
      | some id => cases hptr : irmemGetptr irsmData id <;> simp only [hptr, and_self]
    · exact ⟨rfl, rfl⟩
  | set args =>
    rcases args with _ | _ | ⟨arg, _ | ⟨arg', _ | ⟨arg'', args⟩⟩⟩
    · exact ⟨rfl, rfl⟩
    · exact ⟨rfl, rfl⟩
    · exact ⟨rfl, rfl⟩
    · simp only [ShellCmd.run, ShellCmd.stores] at h ⊢
      cases hid : str2int W arg with
      | none => exact ⟨rfl, rfl⟩
      | some id =>
        cases hvalue : str2int W arg' with
        | none => exact ⟨rfl, rfl⟩
        | some value =>
          have hge : id ≥ irsmData.length := by
            simpa [hid, hvalue] using h
          have hnull : irmemGetptr irsmData id = none := if_pos hge
          simp only [hnull, and_self]
    · exact ⟨rfl, rfl⟩

/-- A command that stores. -/
theorem run_of_stores {cmd : ShellCmd} {store : Nat × Nat} (h : cmd.stores W = some store) :
    cmd.run W rdonly s = s.doSet rdonly store.1 (4 * pOff irsmData store.1) store.2 := by
  cases cmd with
  | all | help | unknown | get args => cases h
  | set args =>
    rcases args with _ | _ | ⟨arg, _ | ⟨arg', _ | ⟨arg'', args⟩⟩⟩
    · cases h
    · cases h
    · cases h
    · simp only [ShellCmd.run, ShellCmd.stores] at h ⊢
      cases hid : str2int W arg with
      | none =>
        rw [hid] at h
        cases h
      | some id =>
        cases hvalue : str2int W arg' with
        | none =>
          rw [hid, hvalue] at h
          cases h
        | some value =>
          simp only [hid, hvalue] at h
          obtain ⟨hlt, heq⟩ := Option.ite_none_right_eq_some.mp h
          obtain rfl := Option.some.inj heq
          have hptr : irmemGetptr irsmData id = some (4 * pOff irsmData id) :=
            if_neg (Nat.not_le.mpr hlt)
          simp only [hptr]
    · cases h

/-- **What the commands leave** in the segment, and nothing else: their stores one after the
other if it is attached read-write. -/
theorem shellRun_scene (cmds : List ShellCmd) (s : CtlScene) :
    (shellRun W rdonly s cmds).scene =
      if rdonly then s
      else { s with seg := (cmds.filterMap (ShellCmd.stores W)).foldl storedIn s.seg } := by
  induction cmds generalizing s with
  | nil =>
    cases rdonly with
    | true => rfl
    | false => rfl
  | cons cmd cmds ih =>
    cases hstores : cmd.stores W with
    | none =>
      obtain ⟨hattempted, hscene⟩ := @run_of_stores_none W rdonly s cmd hstores
      rw [shellRun, hattempted, Bool.and_false, if_neg Bool.false_ne_true, hscene]
      simp only [ih s, List.filterMap_cons, hstores]
    | some store =>
      rw [shellRun, run_of_stores hstores, List.filterMap_cons, hstores]
      cases rdonly with
      | true => rfl
      | false =>
        have hstored : (s.doSet false store.1 (4 * pOff irsmData store.1) store.2).scene =
            { s with seg := storedIn s.seg store } := rfl
        simp only [Bool.false_and, Bool.false_eq_true, if_false, hstored, ih, List.foldl_cons]

/-- A store is tried exactly if some command says so. -/
theorem shellRun_attempted (cmds : List ShellCmd) (s : CtlScene) :
    (shellRun W rdonly s cmds).attempted = cmds.any fun cmd => (cmd.stores W).isSome := by
  induction cmds generalizing s with
  | nil => rfl
  | cons cmd cmds ih =>
    cases hstores : cmd.stores W with
    | none =>
      obtain ⟨hattempted, hscene⟩ := @run_of_stores_none W rdonly s cmd hstores
      rw [shellRun, hattempted, Bool.and_false, if_neg Bool.false_ne_true, hscene, List.any_cons,
        hstores]
      exact ih s
    | some store =>
      rw [shellRun, run_of_stores hstores, List.any_cons, hstores]
      cases rdonly with
      | true => rfl
      | false => rfl

end Run

end Raspberries.IrAlarm
