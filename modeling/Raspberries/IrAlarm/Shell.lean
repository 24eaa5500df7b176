import Raspberries.IrAlarm.Publish
import Raspberries.IrAlarm.SemSys

/-!
# Two ways to set a value

`iralarmctl -s ID -v VALUE` refuses when the segment is attached read-only, and sends a
SIGHUP behind its `do_set`.  The command `SET ID VALUE` of the shell mode parses the same
two texts and calls the same `do_set`, but tests nothing and signals nobody: the daemon
goes on with its old variables (`shell_set_not_loaded`), and a store to a read-only segment
ends the process.

`set_paths_agree_iff` says when the two agree.
-/

namespace Raspberries.IrAlarm

open Bytes CString

/-- What the two ways work on: the segment, the variables of the daemon, and whether a
SIGHUP is pending for it. -/
structure CtlScene where
  seg : Memory
  settings : Settings
  pending : Bool

/-- What an `iralarmctl` prints; of a text with the program's name, the rest. -/
inductive CtlOutput
  | shown (r : Shown)
  | text (s : String)
  deriving DecidableEq, Repr

/-- The end of a command; `attempted` says whether it has tried to store. -/
structure CtlRun where
  scene : CtlScene
  attempted : Bool
  output : List CtlOutput

def CtlScene.fails (s : CtlScene) (msg : String) : CtlRun := ⟨s, false, [.text msg]⟩

/-- `do_set` in a process whose segment is attached like this; a store to a read-only
segment raises SIGSEGV. -/
def CtlScene.doSet (s : CtlScene) (rdonly : Bool) (id ptr value : Nat) : CtlRun :=
  if rdonly then ⟨s, true, []⟩
  else
    let (seg, r) := IrAlarm.doSet irsmData id ptr value s.seg
    ⟨{ s with seg := seg }, true, [.shown r]⟩

/-- What `kill` does for the user of the process: whether it may signal the daemon, and the
text of `errno` for any other `pid`. -/
structure KillRights where
  daemon : Bool
  other : Int → Option String

/-- `kill(pid, SIGHUP)`, as far as it concerns the daemon, with the text of `errno` if it
fails; `-1` is every process the user may signal, and `0` the process group of the caller, in
which the daemon is not. -/
def CtlScene.kill (may : KillRights) (s : CtlScene) (pid : Int) : CtlScene × Option String :=
  if pid = irdPid then
    if may.daemon then ({ s with pending := true }, none) else (s, some "Operation not permitted")
  else if pid = -1 then ({ s with pending := s.pending || may.daemon }, may.other pid)
  else (s, may.other pid)

/-- The handler runs if a SIGHUP is pending. -/
def CtlScene.settle (doXmpp : Bool) (s : CtlScene) : CtlScene :=
  if s.pending then
    { s with settings := reload doXmpp s.seg s.settings, pending := false }
  else s

/-! ### The option `-s ID -v VALUE` -/

/-- The text for a `kill` that fails, behind which `main` goes on. -/
def killFailed (error : String) : String := ": Could not SIGHUP iralarmd: " ++ error ++ "\n"

/-- `main` with `-s` and `-v`, where the daemon's semaphore and segment exist and
`GETPID` gives `pid`. -/
def mainSet (W : Nat) (rdonly : Bool) (may : KillRights) (pid : Int) (optID optValue : List Char)
    (s : CtlScene) : CtlRun :=
  match str2int W optID, str2int W optValue with
  | some shmi, some value =>
    match irmemGetptr irsmData shmi with
    | none => s.fails ": irmem_getptr(ID) failed\n"
    | some ptr =>
      if rdonly then s.fails ": can not write to shared memory segment (readonly)\n"
      else
        let r := s.doSet rdonly shmi ptr value
        let (scene, error) := r.scene.kill may pid
        ⟨scene, r.attempted, r.output ++ (error.map fun e => .text (killFailed e)).toList⟩
  | _, _ => s.fails ": argument is not numeric\n"

/-! ### The shell -/

def shellArglen : Nat := 128
def shellCmdlen : Nat := 255

/-- The arguments behind the first token; `none` for `-1`.  An argument of `SHELL_ARGLEN`
characters would have no terminator. -/
def getargs : Nat → List Char → Option (List (List Char))
  | 0, _ => none
  | nargs + 1, s =>
    match strtok ' ' s with
    | none => none
    | some (arg, s) =>
      if nargs = 0 then
        match strtok ' ' s with
        | none => some [arg.take shellArglen]
        | some _ => none
      else (getargs nargs s).map (arg.take shellArglen :: ·)

def shellGetarg (buf : List Char) (nargs : Nat) : Option (List (List Char)) :=
  match strtok ' ' buf with
  | none => none
  | some (_, s) => getargs nargs s

def chomp (buf : List Char) : List Char :=
  if buf.getLast? = some '\n' then buf.dropLast else buf

/-- One turn of the loop of `do_shell`, on what is there to read. -/
def shellCommand (W : Nat) (rdonly : Bool) (input : List Char) (s : CtlScene) : CtlRun :=
  let buf := chomp (input.take shellCmdlen)
  if strcasestr buf "GET".toList = some 0 then
    match shellGetarg buf 1 with
    | some [arg] =>
      match str2int W arg with
      | some id =>
        match irmemGetptr irsmData id with
        | some ptr => ⟨s, false, [.shown (doGet irsmData id ptr s.seg)]⟩
        | none => ⟨s, false, []⟩
      | none => ⟨s, false, []⟩
    | _ => ⟨s, false, []⟩
  else if strcasestr buf "SET".toList = some 0 then
    match shellGetarg buf 2 with
    | some [arg, arg'] =>
      match str2int W arg, str2int W arg' with
      | some id, some value =>
        match irmemGetptr irsmData id with
        | some ptr => s.doSet rdonly id ptr value
        | none => ⟨s, false, []⟩
      | _, _ => ⟨s, false, []⟩
    | _ => ⟨s, false, []⟩
  else if strcasestr buf "SHOW".toList = some 0 then
    ⟨s, false, (List.range irsmDesc.length).filterMap fun id =>
      (irmemGetptr irsmData id).map fun ptr => .shown (doGet irsmData id ptr s.seg)⟩
  else if strcasestr buf "HELP".toList = some 0 then s.fails "GET, SET, SHOW, HELP\n"
  else s.fails "UNKNOWN CMD; TYPE 'HELP' FOR MORE INFORMATION\n"

def setLine (id value : List Char) : List Char :=
  "SET".toList ++ ' ' :: (id ++ ' ' :: (value ++ ['\n']))

/-- A text that is one argument of the shell. -/
structure IsArg (s : List Char) : Prop where
  ne_nil : s ≠ []
  blank : ' ' ∉ s
  short : s.length < shellArglen

/-- The two ways leave the same contents and the same variables, and none of them tries
to store to a read-only segment. -/
structure SetPathsAgree (W : Nat) (doXmpp rdonly : Bool) (may : KillRights) (pid : Int)
    (id value : List Char) (s : CtlScene) : Prop where
  seg : (mainSet W rdonly may pid id value s).scene.seg =
    (shellCommand W rdonly (setLine id value) s).scene.seg
  settings : ((mainSet W rdonly may pid id value s).scene.settle doXmpp).settings =
    ((shellCommand W rdonly (setLine id value) s).scene.settle doXmpp).settings
  refused : rdonly = true → (mainSet W rdonly may pid id value s).attempted = false ∧
    (shellCommand W rdonly (setLine id value) s).attempted = false

/-- The variables already are what the objects say when object `id` has this value. -/
def InForce (doXmpp : Bool) (s : CtlScene) (id : Nat) (type : ShmObject) (value : Nat) : Prop :=
  ∀ i ∈ reloadedIds doXmpp, s.settings.get i =
    some (loaded i (if i = id then value % 256 ^ type.size else content s.seg i))

/-! ### The line -/

theorem IsArg.take {s : List Char} (h : IsArg s) : s.take shellArglen = s :=
  List.take_of_length_le (Nat.le_of_lt h.short)

theorem shellGetarg_set {id value : List Char} (hid : IsArg id) (hvalue : IsArg value) :
    shellGetarg ("SET".toList ++ ' ' :: (id ++ ' ' :: value)) 2 = some [id, value] := by
  have hset : strtok ' ' ("SET".toList ++ ' ' :: (id ++ ' ' :: value)) =
      some ("SET".toList, id ++ ' ' :: value) :=
    strtok_word (by decide) (by decide) (Or.inr rfl)
  have hfirst : strtok ' ' (id ++ ' ' :: value) = some (id, value) :=
    strtok_word hid.ne_nil hid.blank (Or.inr rfl)
  have hsecond : strtok ' ' value = some (value, []) := by
    have hword := strtok_word hvalue.ne_nil hvalue.blank (t := []) (Or.inl rfl)
    rwa [List.append_nil] at hword
  have hend : strtok ' ' [] = none := rfl
  rw [shellGetarg, hset]
  simp [getargs, hfirst, hsecond, hend, hid.take, hvalue.take]

theorem shellCommand_set {W : Nat} (rdonly : Bool) {id value : List Char} {n v ptr : Nat}
    (hid : IsArg id) (hvalue : IsArg value) (hline : (setLine id value).length ≤ shellCmdlen)
    (hn : str2int W id = some n) (hv : str2int W value = some v)
    (hptr : irmemGetptr irsmData n = some ptr) (s : CtlScene) :
    shellCommand W rdonly (setLine id value) s = s.doSet rdonly n ptr v := by
  have hassoc : setLine id value = "SET".toList ++ ' ' :: (id ++ ' ' :: value) ++ ['\n'] := by
    simp [setLine]
  have hbuf : chomp ((setLine id value).take shellCmdlen) =
      "SET".toList ++ ' ' :: (id ++ ' ' :: value) := by
    rw [List.take_of_length_le hline, hassoc, chomp, List.getLast?_concat, if_pos rfl,
      List.dropLast_concat]
  have hget : strcasestr ("SET".toList ++ ' ' :: (id ++ ' ' :: value)) "GET".toList ≠ some 0 := by
    rw [Ne, strcasestr_eq_zero]
    simp
  have hset : strcasestr ("SET".toList ++ ' ' :: (id ++ ' ' :: value)) "SET".toList = some 0 := by
    rw [strcasestr_eq_zero, List.map_append]
    exact List.prefix_append _ _
  rw [shellCommand, hbuf]
  simp only [if_neg hget, if_pos hset, shellGetarg_set hid hvalue, hn, hv, hptr]

/-! ### The two ways -/

/-- A reload changes nothing exactly if every variable is what its object says. -/
theorem reload_eq_iff {doXmpp : Bool} {seg : Memory} {c : Settings} :
    reload doXmpp seg c = c ↔
      ∀ i ∈ reloadedIds doXmpp, c.get i = some (loaded i (content seg i)) := by
  refine ⟨?_, ?_⟩
  · intro h i hi
    rw [← get_reload hi seg c, h]
  · intro h
    apply Settings.ext_get
    intro i hlt
    by_cases hi : i ∈ reloadedIds doXmpp
    · rw [get_reload hi, h i hi]
    · exact get_reload_of_notMem hlt hi seg c

theorem content_doSet {type : ShmObject} {n ptr v : Nat} {seg : Memory}
    (htype : irmemType irsmData n = some type) (hptr : irmemGetptr irsmData n = some ptr)
    (i : Nat) : content (doSet irsmData n ptr v seg).1 i =
      if i = n then v % 256 ^ type.size else content seg i := by
  obtain rfl := Option.some.inj ((irmemGetptr_of_type htype).symm.trans hptr)
  have hset : (doSet irsmData n (4 * pOff irsmData n) v seg).1 =
      writeLE seg (4 * pOff irsmData n) type.size v := by
    simp only [doSet, htype]
  rw [hset]
  split
  next hi =>
    subst hi
    exact content_writeLE_self htype v
  next hi => exact content_writeLE_of_ne htype hi v

theorem CtlScene.kill_pending (may : KillRights) (s : CtlScene) (pid : Int) :
    (s.kill may pid).1 = { s with
      pending := s.pending || (may.daemon && (pid = irdPid || pid = -1)) } := by
  obtain ⟨seg, c, pending⟩ := s
  rw [CtlScene.kill]
  by_cases hdaemon : pid = irdPid
  · cases hmay : may.daemon <;> simp [hdaemon]
  · by_cases hall : pid = -1 <;> simp [hdaemon, hall]

/-- **When the two ways agree.**  Exactly on a segment that is attached read-write, and
there if a SIGHUP is pending anyway, or the one of `-s` does not reach the daemon, which is
another process or not the user's to signal, or the variables of the daemon already are
what the objects then say. -/
theorem set_paths_agree_iff {W : Nat} (doXmpp rdonly : Bool) (may : KillRights) (pid : Int)
    {id value : List Char} {n v : Nat} {type : ShmObject} (hid : IsArg id) (hvalue : IsArg value)
    (hline : (setLine id value).length ≤ shellCmdlen) (hn : str2int W id = some n)
    (htype : irmemType irsmData n = some type) (hv : str2int W value = some v) (s : CtlScene) :
    SetPathsAgree W doXmpp rdonly may pid id value s ↔
      rdonly = false ∧
        (s.pending = true ∨ may.daemon = false ∨ ¬ (pid = irdPid ∨ pid = -1) ∨
          InForce doXmpp s n type v) := by
  have hptr : irmemGetptr irsmData n = some (4 * pOff irsmData n) := irmemGetptr_of_type htype
  have hshell := shellCommand_set rdonly hid hvalue hline hn hv hptr s
  cases rdonly with
  | true =>
    -- the shell tries to store
    refine iff_of_false ?_ fun h => Bool.noConfusion h.1
    intro h
    have htried := (h.refused rfl).2
    rw [hshell] at htried
    cases htried
  | false =>
    obtain ⟨seg, c, pending⟩ := s
    have hmain : (mainSet W false may pid id value ⟨seg, c, pending⟩).scene =
        (CtlScene.kill may
          ⟨(doSet irsmData n (4 * pOff irsmData n) v seg).1, c, pending⟩ pid).1 := by
      simp only [mainSet, hn, hv, hptr, CtlScene.doSet, Bool.false_eq_true, if_false]
    have hforce : InForce doXmpp ⟨seg, c, pending⟩ n type v ↔
        reload doXmpp (doSet irsmData n (4 * pOff irsmData n) v seg).1 c = c := by
      rw [reload_eq_iff, InForce]
      simp only [content_doSet htype hptr]
    have hsettings : SetPathsAgree W doXmpp false may pid id value ⟨seg, c, pending⟩ ↔
        ((mainSet W false may pid id value ⟨seg, c, pending⟩).scene.settle doXmpp).settings =
          ((shellCommand W false (setLine id value) ⟨seg, c, pending⟩).scene.settle
            doXmpp).settings := by
      refine ⟨SetPathsAgree.settings, fun h => ⟨?_, h, (by simp)⟩⟩
      rw [hmain, hshell, CtlScene.kill_pending]
      rfl
    rw [hsettings, hmain, hshell, hforce, CtlScene.kill_pending]
    cases pending with
    | true => exact iff_of_true rfl ⟨rfl, Or.inl rfl⟩
    | false =>
      cases hmay : may.daemon with
      | false => simp [CtlScene.doSet, CtlScene.settle]
      | true =>
        by_cases hpid : pid = irdPid ∨ pid = -1
        · -- only the option reloads
          simp [CtlScene.doSet, CtlScene.settle, hpid]
        · simp [CtlScene.doSet, CtlScene.settle, hpid]

def freshScene : CtlScene where
  seg := publish (.initial true) .none fun _ => 0
  settings := .initial true
  pending := false

theorem isArg_digit (c : Char) (h : c ≠ ' ') : IsArg [c] where
  ne_nil := List.cons_ne_nil _ _
  blank hmem := h (List.mem_singleton.mp hmem).symm
  short := by
    show 1 < shellArglen
    decide

def rootRights : KillRights := ⟨true, fun _ => none⟩

/-- `IR-MINALRMS` is set to what it is. -/
theorem set_paths_agree_same :
    SetPathsAgree 32 true false rootRights irdPid "8".toList "2".toList freshScene := by
  refine (set_paths_agree_iff true false rootRights irdPid (isArg_digit '8' (by decide))
    (isArg_digit '2' (by decide)) (by decide) (n := 8) (v := 2) rfl rfl rfl freshScene).mpr ?_
  refine ⟨rfl, Or.inr (Or.inr (Or.inr ?_))⟩
  show ∀ i ∈ reloadedIds true, freshScene.settings.get i =
    some (loaded i (if i = 8 then 2 % 256 ^ ShmObject.int32.size else content freshScene.seg i))
  decide

/-- After `SET 8 5` in the shell the daemon goes on with `2`. -/
theorem shell_set_not_loaded :
    ¬ ∀ (rdonly : Bool) (id value : List Char) (n v : Nat) (type : ShmObject) (s : CtlScene),
      IsArg id → IsArg value → (setLine id value).length ≤ shellCmdlen →
      str2int 32 id = some n → irmemType irsmData n = some type → str2int 32 value = some v →
      SetPathsAgree 32 true rdonly rootRights irdPid id value s := by
  intro h
  have hagree := h false "8".toList "5".toList 8 5 .int32 freshScene
    (isArg_digit '8' (by decide)) (isArg_digit '5' (by decide)) (by decide) rfl rfl rfl
  exact absurd hagree.settings (by decide)

end Raspberries.IrAlarm
