import Raspberries.IrAlarm.Segment
import Raspberries.IrAlarm.ShellMode
import Raspberries.Lib.Getopt

/-!
# The command line of `iralarmctl`

`main` goes through the options and keeps one place for the mode, one for the number of an
object and one for a value, so that a later option replaces an earlier one and `-g` and
`-s` share their number.  Behind that come the tests of the semaphore and of the segment.

`ctl_stores_iff` says for which command lines the option `-s` stores, and that a signal is
sent then and only then; for which `do_shell` runs, whose commands store without one; and
that every other command line changes nothing.
-/

namespace Raspberries.IrAlarm

open Bytes CString Getopt

inductive CtlOpt
  | none
  | get
  | set
  | all
  | shell
  deriving DecidableEq, Repr

/-- What the loop over the options leaves. -/
structure CtlArgs where
  copt : CtlOpt
  shmi : Nat
  value : Nat
  valueSet : Bool
  valueInval : Bool
  deriving DecidableEq, Repr

def CtlArgs.start : CtlArgs := ⟨.none, 0, 0, false, false⟩

def ctlOptstring : List Char := "ag:s:v:e".toList

def myBasename (path : List Char) : List Char :=
  (path.reverse.takeWhile (· ≠ '/')).reverse

/-- The name under which the program is a login shell. -/
def isCtlShell (argv0 : List Char) : Bool :=
  (strstr (myBasename argv0) "shell".toList).isSome || argv0 = "-su".toList

/-- `value_inval |= str2int(optarg, &dst)`, where `store` is the assignment. -/
def CtlArgs.number (W : Nat) (optarg : List Char) (store : Nat → CtlArgs → CtlArgs)
    (a : CtlArgs) : CtlArgs :=
  match str2int W optarg with
  | some val => store val a
  | none => { a with valueInval := true }

/-- One option; `none` for `usage` and `exit`. -/
def CtlArgs.option (W : Nat) (a : CtlArgs) : Opt → Option CtlArgs
  | .flag c =>
    if c = 'a' then some { a with copt := .all }
    else if c = 'e' then some { a with copt := .shell }
    else none
  | .arg c optarg =>
    if c = 'g' then
      some ({ a with copt := .get }.number W optarg fun val a => { a with shmi := val })
    else if c = 's' then
      some ({ a with copt := .set }.number W optarg fun val a => { a with shmi := val })
    else if c = 'v' then
      some { a.number W optarg fun val a => { a with value := val } with valueSet := true }
    else none
  | .error => none

def ctlArgs (W : Nat) (argv0 : List Char) (args : List (List Char)) : Option CtlArgs :=
  if isCtlShell argv0 then some { CtlArgs.start with copt := .shell }
  else if args = [] then none
  else (getopt ctlOptstring args).foldlM (CtlArgs.option W) .start

/-- What is printed to `stderr`, or to `stdout` by `initFailed`. -/
inductive CtlError
  | usage
  | notNumeric
  | noSemaphore
  | initFailed
  | noSegment
  | getptr
  | readonly
  | noValue
  | kill (errno : String)
  deriving DecidableEq, Repr

/-- What the process finds: whether the exclusive `semget` fails with `EEXIST`, which
`shmget` and `shmat` succeed, whether `irmem_exists` finds the segment, its own `pid` and
whether it has been started with SIGHUP ignored, what `GETPID` gives and `kill` can do, and
for `do_shell` what each `read` gives until the input ends, and the memory behind the rows of
arguments at each turn. -/
structure CtlEnv where
  semaphore : Bool
  shmget : Nat → Nat → Bool
  shmat : Bool → Bool
  segment : Bool
  pid : Int
  ignoresHup : Bool
  irdPid : Int
  may : KillRights
  input : List (List Char)
  behind : Nat → List Char

def CtlEnv.init (env : CtlEnv) : InitRun := irmemInit irsmData 0 env.shmget env.shmat

def CtlEnv.rdonly (env : CtlEnv) : Bool := env.init.ret = .rdonly

/-- The SIGHUP ends the process that sends it: for `0` it goes to its own process group. -/
def CtlEnv.endsItself (env : CtlEnv) : Bool :=
  !env.ignoresHup && (env.irdPid = 0 || env.irdPid = env.pid)

/-- What the process does: its exit status, `none` if a signal ends it, the scene it
leaves, what it prints, whether it removes the semaphore it has created, and the `pid`s it
has called `kill` for. -/
structure CtlExit where
  status : Option Nat
  scene : CtlScene
  output : List CtlOutput
  error : Option CtlError
  rmid : Bool
  kills : List Int

/-- A run that ends with `exit(1)` and has changed nothing. -/
def CtlExit.gaveUp (s : CtlScene) (error : CtlError) : CtlExit :=
  ⟨some 1, s, [], some error, false, []⟩

def CtlExit.unchanged (s : CtlScene) (output : List CtlOutput) (error : Option CtlError) :
    CtlExit :=
  ⟨some 0, s, output, error, false, []⟩

def doAll (initial : List ShmObject) (r : InitRun) (seg : Memory) : List Shown :=
  (List.range irsmDesc.length).filterMap fun id =>
    (r.getptr id).map fun ptr => doGet initial id ptr seg

/-- `do_set` and `kill`, which may fail. -/
def ctlSet (env : CtlEnv) (id ptr value : Nat) (s : CtlScene) : CtlExit :=
  let (seg, shown) := doSet irsmData id ptr value s.seg
  let (scene, errno) := { s with seg := seg }.kill env.may env.irdPid
  ⟨if env.endsItself then none else some 0, scene, [.shown shown],
    if env.endsItself then none else errno.map .kill, false, [env.irdPid]⟩

/-- `do_shell`, with its first prompt. -/
def ctlShell (W : Nat) (env : CtlEnv) (s : CtlScene) : CtlExit :=
  let r := shellRun W env.rdonly s (shellTurns env.behind env.input)
  ⟨if env.rdonly && r.attempted then none else some 0, r.scene, .text "> " :: r.output, none,
    false, []⟩

/-- What is done with a segment that is there. -/
def ctlWork (W : Nat) (a : CtlArgs) (env : CtlEnv) (s : CtlScene) : CtlExit :=
  match env.init.getptr a.shmi with
  | none => .unchanged s [] (some .getptr)
  | some ptr =>
    match a.copt with
    | .none => .unchanged s [] none
    | .all => .unchanged s ((doAll irsmData env.init s.seg).map .shown) none
    | .get => .unchanged s [.shown (doGet irsmData a.shmi ptr s.seg)] none
    | .set =>
      if env.rdonly then .gaveUp s .readonly
      else if a.valueSet = false then .unchanged s [] (some .noValue)
      else ctlSet env a.shmi ptr a.value s
    | .shell => ctlShell W env s

/-- `main`, with an `unsigned long` of `W` bits. -/
def ctlMain (W : Nat) (argv0 : List Char) (args : List (List Char)) (env : CtlEnv)
    (s : CtlScene) : CtlExit :=
  match ctlArgs W argv0 args with
  | none => .gaveUp s .usage
  | some a =>
    if a.valueInval then .gaveUp s .notNumeric
    else if env.semaphore = false then { CtlExit.gaveUp s .noSemaphore with rmid := true }
    else if env.init.ret = .ninit then .gaveUp s .initFailed
    else if env.segment = false then .gaveUp s .noSegment
    else ctlWork W a env s

/-! ### What the options say -/

def ctlMode : Opt → Option CtlOpt
  | .flag c => if c = 'a' then some .all else if c = 'e' then some .shell else none
  | .arg c _ => if c = 'g' then some .get else if c = 's' then some .set else none
  | .error => none

def ctlId : Opt → Option (List Char)
  | .arg c optarg => if c = 'g' ∨ c = 's' then some optarg else none
  | _ => none

def ctlValue : Opt → Option (List Char)
  | .arg c optarg => if c = 'v' then some optarg else none
  | _ => none

def ctlInvalid (W : Nat) (opt : Opt) : Bool :=
  ((ctlId opt).or (ctlValue opt)).any fun text => (str2int W text).isNone

/-- What the options of a command line come to. -/
def saidArgs (W : Nat) (opts : List Opt) : CtlArgs where
  copt := (lastOf ctlMode opts).getD .none
  shmi := (lastOf (fun opt => (ctlId opt).bind (str2int W)) opts).getD 0
  value := (lastOf (fun opt => (ctlValue opt).bind (str2int W)) opts).getD 0
  valueSet := (lastOf ctlValue opts).isSome
  valueInval := opts.any (ctlInvalid W)

section Options

variable {W : Nat}

theorem option_known {args : List (List Char)} {opts : List Opt}
    (h : Spells ctlOptstring args opts) {opt : Opt} (hopt : opt ∈ opts) :
    opt = .flag 'a' ∨ opt = .flag 'e' ∨ ∃ optarg, opt = .arg 'g' optarg ∨ opt = .arg 's' optarg ∨
      opt = .arg 'v' optarg := by
  have htable : optionTable ctlOptstring = [('a', false), ('g', true), (':', false), ('s', true),
      (':', false), ('v', true), (':', false), ('e', false)] := by decide
  rcases takesArg_of_spells h opt hopt with ⟨c, rfl, hc⟩ | ⟨c, optarg, rfl, hc⟩
  · obtain ⟨hmem, hcolon⟩ := mem_optionTable hc
    rw [htable] at hmem
    simp only [List.mem_cons, Prod.mk.injEq, List.not_mem_nil, hcolon, and_true,
      reduceCtorEq, and_false, false_or, or_false] at hmem
    rcases hmem with rfl | rfl
    · exact .inl rfl
    · exact .inr (.inl rfl)
  · obtain ⟨hmem, -⟩ := mem_optionTable hc
    rw [htable] at hmem
    simp only [List.mem_cons, Prod.mk.injEq, List.not_mem_nil, and_true, reduceCtorEq, and_false,
      false_or, or_false] at hmem
    rcases hmem with rfl | rfl | rfl
    · exact .inr (.inr ⟨optarg, .inl rfl⟩)
    · exact .inr (.inr ⟨optarg, .inr (.inl rfl)⟩)
    · exact .inr (.inr ⟨optarg, .inr (.inr rfl)⟩)

theorem option_saidArgs {args : List (List Char)} {opts opts' : List Opt}
    (h : Spells ctlOptstring args opts') {opt : Opt} (hopt : opt ∈ opts') :
    (saidArgs W opts).option W opt = some (saidArgs W (opts ++ [opt])) := by
  simp only [saidArgs, lastOf_concat, List.any_append, List.any_cons, List.any_nil, Bool.or_false]
  rcases option_known h hopt with rfl | rfl | ⟨optarg, rfl | rfl | rfl⟩
  · simp [CtlArgs.option, ctlMode, ctlId, ctlValue, ctlInvalid]
  · simp [CtlArgs.option, ctlMode, ctlId, ctlValue, ctlInvalid]
  · cases hnum : str2int W optarg <;>
      simp [CtlArgs.option, CtlArgs.number, ctlMode, ctlId, ctlValue, ctlInvalid, hnum]
  · cases hnum : str2int W optarg <;>
      simp [CtlArgs.option, CtlArgs.number, ctlMode, ctlId, ctlValue, ctlInvalid, hnum]
  · cases hnum : str2int W optarg <;>
      simp [CtlArgs.option, CtlArgs.number, ctlMode, ctlId, ctlValue, ctlInvalid, hnum]

theorem foldlM_saidArgs {args : List (List Char)} {opts : List Opt}
    (h : Spells ctlOptstring args opts) :
    opts.foldlM (CtlArgs.option W) .start = some (saidArgs W opts) := by
  have hfront : ∀ front : List Opt, (∀ opt ∈ front, opt ∈ opts) →
      front.foldlM (CtlArgs.option W) .start = some (saidArgs W front) := by
    intro front hmem
    induction front using List.reverseRecOn with
    | nil => rfl
    | append_singleton front opt ih =>
      have hbefore := ih fun opt' hopt' => hmem opt' (List.mem_append_left _ hopt')
      have hlast : opt ∈ opts := hmem opt (List.mem_append_right _ List.mem_cons_self)
      rw [List.foldlM_append, hbefore, Option.bind_eq_bind, Option.bind_some, List.foldlM_cons,
        option_saidArgs h hlast]
      rfl
  exact hfront opts fun _ hopt => hopt

theorem foldlM_error {opts : List Opt} (h : Opt.error ∈ opts) (a : CtlArgs) :
    opts.foldlM (CtlArgs.option W) a = none := by
  induction opts generalizing a with
  | nil => cases h
  | cons opt opts ih =>
    rw [List.foldlM_cons]
    cases hopt : a.option W opt with
    | none => rfl
    | some a' =>
      refine ih ?_ a'
      cases List.mem_cons.mp h with
      | inl heq =>
        subst heq
        cases hopt
      | inr hmem => exact hmem

end Options

/-! ### What is stored -/

/-- The semaphore and a segment are there. -/
structure Attached (env : CtlEnv) : Prop where
  semaphore : env.semaphore = true
  init : env.init.ret ≠ .ninit
  segment : env.segment = true

/-- The command line asks to store the value, and the process can. -/
structure Stores (W : Nat) (argv0 : List Char) (args : List (List Char)) (env : CtlEnv)
    (id value : Nat) : Prop where
  name : isCtlShell argv0 = false
  options : ∃ opts, Spells ctlOptstring args opts ∧ (∀ opt ∈ opts, ctlInvalid W opt = false) ∧
    lastOf ctlMode opts = some .set ∧
    (lastOf ctlId opts).bind (str2int W) = some id ∧
    (lastOf ctlValue opts).bind (str2int W) = some value
  attached : Attached env
  writable : env.rdonly = false
  object : id < irsmData.length

/-- The program is a login shell, or the command line asks for one; the number of an object
must be right although it is not used. -/
structure OpensShell (W : Nat) (argv0 : List Char) (args : List (List Char)) (env : CtlEnv) :
    Prop where
  asked : isCtlShell argv0 = true ∨ ∃ opts, Spells ctlOptstring args opts ∧
    (∀ opt ∈ opts, ctlInvalid W opt = false) ∧ lastOf ctlMode opts = some .shell ∧
    ((lastOf ctlId opts).bind (str2int W)).getD 0 < irsmData.length
  attached : Attached env

theorem lastOf_bind {W : Nat} {text : Opt → Option (List Char)} {opts : List Opt}
    (h : ∀ opt ∈ opts, ∀ t, text opt = some t → str2int W t ≠ none) :
    lastOf (fun opt => (text opt).bind (str2int W)) opts =
      (lastOf text opts).bind (str2int W) := by
  induction opts using List.reverseRecOn with
  | nil => rfl
  | append_singleton opts opt ih =>
    have hbefore := ih fun opt' hopt' => h opt' (List.mem_append_left _ hopt')
    rw [lastOf_concat, lastOf_concat, hbefore]
    cases htext : text opt with
    | none => rfl
    | some t =>
      obtain ⟨n, hn⟩ := Option.ne_none_iff_exists'.mp
        (h opt (List.mem_append_right _ List.mem_cons_self) t htext)
      simp [hn]

theorem str2int_of_valid {W : Nat} {opt : Opt} (h : ctlInvalid W opt = false) :
    (∀ t, ctlId opt = some t → str2int W t ≠ none) ∧
      ∀ t, ctlValue opt = some t → str2int W t ≠ none := by
  rw [ctlInvalid] at h
  refine ⟨?_, ?_⟩
  · intro t ht hnone
    rw [ht, Option.some_or, Option.any_some, hnone] at h
    cases h
  · intro t ht hnone
    have hid : ctlId opt = none := by
      cases opt with
      | flag c | error => rfl
      | arg c optarg =>
        by_cases hv : c = 'v'
        · subst hv
          rfl
        · rw [ctlValue, if_neg hv] at ht
          cases ht
    rw [hid, ht, Option.none_or, Option.any_some, hnone] at h
    cases h

theorem lastOf_ctlId {opts : List Opt} (h : lastOf ctlMode opts = some .set) :
    ∃ t, lastOf ctlId opts = some t := by
  induction opts using List.reverseRecOn with
  | nil => cases h
  | append_singleton opts opt ih =>
    rw [lastOf_concat] at h ⊢
    cases hid : ctlId opt with
    | some t => exact ⟨t, rfl⟩
    | none =>
      cases hmode : ctlMode opt with
      | none =>
        rw [hmode, Option.none_or] at h
        rw [Option.none_or]
        exact ih h
      | some mode =>
        rw [hmode, Option.some_or] at h
        obtain rfl := Option.some.inj h
        -- the option is `-s`, which has a text
        cases opt with
        | error => cases hmode
        | flag c =>
          rw [ctlMode] at hmode
          split at hmode
          next => cases hmode
          next => split at hmode <;> cases hmode
        | arg c optarg =>
          rw [ctlMode] at hmode
          split at hmode
          next => cases hmode
          next =>
            split at hmode
            next hs =>
              rw [ctlId, if_pos (.inr hs)] at hid
              cases hid
            next => cases hmode

section Main

variable {W : Nat} {argv0 : List Char} {args : List (List Char)} {env : CtlEnv}

/-- What is done with the segment: nothing, a store with its signal, or `do_shell`. -/
theorem ctlWork_cases (W : Nat) (a : CtlArgs) (env : CtlEnv) (s : CtlScene) :
    ((ctlWork W a env s).scene = s ∧ (ctlWork W a env s).kills = []) ∨
      ∃ ptr, env.init.getptr a.shmi = some ptr ∧
        ((a.copt = .set ∧ env.rdonly = false ∧ a.valueSet = true ∧
            ctlWork W a env s = ctlSet env a.shmi ptr a.value s) ∨
          (a.copt = .shell ∧ ctlWork W a env s = ctlShell W env s)) := by
  cases hptr : env.init.getptr a.shmi with
  | none =>
    have hrun : ctlWork W a env s = .unchanged s [] (some .getptr) := by
      simp only [ctlWork, hptr]
    rw [hrun]
    exact .inl ⟨rfl, rfl⟩
  | some ptr =>
    cases hmode : a.copt with
    | none | get | all =>
      refine .inl ?_
      simp only [ctlWork, hptr, hmode]
      exact ⟨rfl, rfl⟩
    | shell =>
      refine .inr ⟨ptr, rfl, .inr ⟨rfl, ?_⟩⟩
      simp only [ctlWork, hptr, hmode]
    | set =>
      cases hro : env.rdonly with
      | true =>
        have hrun : ctlWork W a env s = .gaveUp s .readonly := by
          simp only [ctlWork, hptr, hmode, hro, if_true]
        rw [hrun]
        exact .inl ⟨rfl, rfl⟩
      | false =>
        cases hset : a.valueSet with
        | false =>
          have hrun : ctlWork W a env s = .unchanged s [] (some .noValue) := by
            simp only [ctlWork, hptr, hmode, hro, hset, Bool.false_eq_true, if_false, if_true]
          rw [hrun]
          exact .inl ⟨rfl, rfl⟩
        | true =>
          refine .inr ⟨ptr, rfl, .inl ⟨rfl, rfl, rfl, ?_⟩⟩
          simp only [ctlWork, hptr, hmode, hro, hset, Bool.false_eq_true, Bool.true_eq_false,
            if_false]

/-- The tests in front of the work. -/
theorem ctlMain_cases (W : Nat) (argv0 : List Char) (args : List (List Char)) (env : CtlEnv)
    (s : CtlScene) :
    ((ctlMain W argv0 args env s).scene = s ∧ (ctlMain W argv0 args env s).kills = []) ∨
      ∃ a, ctlArgs W argv0 args = some a ∧ a.valueInval = false ∧ Attached env ∧
        ctlMain W argv0 args env s = ctlWork W a env s := by
  cases hargs : ctlArgs W argv0 args with
  | none =>
    have hrun : ctlMain W argv0 args env s = .gaveUp s .usage := by
      simp only [ctlMain, hargs]
    rw [hrun]
    exact .inl ⟨rfl, rfl⟩
  | some a =>
    by_cases hgo : a.valueInval = false ∧ env.semaphore = true ∧ env.init.ret ≠ .ninit ∧
        env.segment = true
    · obtain ⟨hinval, hsem, hinit, hseg⟩ := hgo
      refine .inr ⟨a, rfl, hinval, ⟨hsem, hinit, hseg⟩, ?_⟩
      simp only [ctlMain, hargs, hinval, hsem, hinit, hseg, Bool.false_eq_true,
        Bool.true_eq_false, if_false]
    · -- each test that fails leaves everything as it was
      refine .inl ?_
      simp only [ctlMain, hargs]
      split
      next => exact ⟨rfl, rfl⟩
      next hinval =>
        split
        next => exact ⟨rfl, rfl⟩
        next hsem =>
          split
          next => exact ⟨rfl, rfl⟩
          next hinit =>
            split
            next => exact ⟨rfl, rfl⟩
            next hseg =>
              exact absurd ⟨by simpa using hinval, by simpa using hsem, hinit,
                by simpa using hseg⟩ hgo

theorem ctlMain_of_attached {a : CtlArgs} (hargs : ctlArgs W argv0 args = some a)
    (hinval : a.valueInval = false) (h : Attached env) (s : CtlScene) :
    ctlMain W argv0 args env s = ctlWork W a env s := by
  simp only [ctlMain, hargs, hinval, h.semaphore, h.init, h.segment, Bool.false_eq_true,
    Bool.true_eq_false, if_false]

theorem ctlArgs_of_spells {opts : List Opt} (hname : isCtlShell argv0 = false)
    (h : Spells ctlOptstring args opts) (hne : args ≠ []) :
    ctlArgs W argv0 args = some (saidArgs W opts) := by
  rw [ctlArgs, hname, if_neg (by simp), if_neg hne, getopt_of_spells h, foldlM_saidArgs h]

theorem spells_of_ctlArgs {a : CtlArgs} (h : ctlArgs W argv0 args = some a) :
    (isCtlShell argv0 = true ∧ a = { CtlArgs.start with copt := .shell }) ∨
      (isCtlShell argv0 = false ∧ ∃ opts, Spells ctlOptstring args opts ∧
        a = saidArgs W opts) := by
  rw [ctlArgs] at h
  split at h
  next hname => exact .inl ⟨hname, (Option.some.inj h).symm⟩
  next hname =>
    split at h
    next => cases h
    next =>
      have herror : Opt.error ∉ getopt ctlOptstring args := by
        intro hmem
        rw [foldlM_error hmem] at h
        cases h
      have hspells := spells_of_getopt herror
      rw [foldlM_saidArgs hspells] at h
      exact .inr ⟨Bool.eq_false_iff.mpr hname, _, hspells, (Option.some.inj h).symm⟩

theorem getptr_eq_some {id ptr : Nat} (h : Attached env) :
    env.init.getptr id = some ptr ↔ id < irsmData.length ∧ ptr = 4 * pOff irsmData id := by
  rw [CtlEnv.init, getptr_irmemInit h.init, irmemGetptr]
  split
  next hge =>
    refine ⟨fun h => (by cases h), fun h => ?_⟩
    omega
  next hlt =>
    refine ⟨?_, ?_⟩
    · intro h
      exact ⟨by omega, (Option.some.inj h).symm⟩
    · intro h
      rw [h.2]

/-- The options are all valid exactly if none is marked as a text without a number. -/
theorem valueInval_saidArgs {opts : List Opt} :
    (saidArgs W opts).valueInval = false ↔ ∀ opt ∈ opts, ctlInvalid W opt = false := by
  rw [saidArgs, List.any_eq_false]
  refine forall₂_congr fun opt _ => ?_
  rw [Bool.not_eq_true]

theorem copt_saidArgs {opts : List Opt} {mode : CtlOpt} (hmode : mode ≠ .none) :
    (saidArgs W opts).copt = mode ↔ lastOf ctlMode opts = some mode := by
  rw [saidArgs]
  cases lastOf ctlMode opts with
  | none => exact ⟨fun h => absurd h.symm hmode, fun h => (by cases h)⟩
  | some mode' => exact (Option.some_inj).symm

theorem shmi_saidArgs {opts : List Opt} (hvalid : ∀ opt ∈ opts, ctlInvalid W opt = false) :
    (saidArgs W opts).shmi = ((lastOf ctlId opts).bind (str2int W)).getD 0 := by
  rw [saidArgs, lastOf_bind fun opt hopt => (str2int_of_valid (hvalid opt hopt)).1]

theorem value_saidArgs {opts : List Opt} (hvalid : ∀ opt ∈ opts, ctlInvalid W opt = false) :
    (saidArgs W opts).value = ((lastOf ctlValue opts).bind (str2int W)).getD 0 := by
  rw [saidArgs, lastOf_bind fun opt hopt => (str2int_of_valid (hvalid opt hopt)).2]

theorem args_ne_of_mode {opts : List Opt} {mode : CtlOpt} (h : Spells ctlOptstring args opts)
    (hmode : lastOf ctlMode opts = some mode) : args ≠ [] := by
  rintro rfl
  cases h
  cases hmode

theorem Stores.run {id value : Nat} (h : Stores W argv0 args env id value) (s : CtlScene) :
    ctlMain W argv0 args env s = ctlSet env id (4 * pOff irsmData id) value s := by
  obtain ⟨opts, hspells, hvalid, hmode, hid, hvalue⟩ := h.options
  have hargs : ctlArgs W argv0 args = some (saidArgs W opts) :=
    ctlArgs_of_spells h.name hspells (args_ne_of_mode hspells hmode)
  have hcopt : (saidArgs W opts).copt = .set := (copt_saidArgs (by decide)).mpr hmode
  have hshmi : (saidArgs W opts).shmi = id := by rw [shmi_saidArgs hvalid, hid]; rfl
  have hval : (saidArgs W opts).value = value := by rw [value_saidArgs hvalid, hvalue]; rfl
  have hset : (saidArgs W opts).valueSet = true := by
    obtain ⟨t, ht, -⟩ := Option.bind_eq_some_iff.mp hvalue
    rw [saidArgs, ht]
    rfl
  have hptr := (getptr_eq_some h.attached).mpr ⟨h.object, rfl⟩
  rw [ctlMain_of_attached hargs (valueInval_saidArgs.mpr hvalid) h.attached]
  simp only [ctlWork, hshmi, hptr, hcopt, h.writable, hset, hval, Bool.false_eq_true,
    Bool.true_eq_false, if_false]

theorem OpensShell.run (h : OpensShell W argv0 args env) (s : CtlScene) :
    ctlMain W argv0 args env s = ctlShell W env s := by
  have hwork : ∀ a, a.copt = .shell → a.shmi < irsmData.length →
      ctlWork W a env s = ctlShell W env s := by
    intro a hcopt hlt
    have hptr := (getptr_eq_some h.attached).mpr ⟨hlt, rfl⟩
    simp only [ctlWork, hptr, hcopt]
  cases hname : isCtlShell argv0 with
  | true =>
    have hargs : ctlArgs W argv0 args = some { CtlArgs.start with copt := .shell } := by
      rw [ctlArgs, hname, if_pos rfl]
    rw [ctlMain_of_attached hargs rfl h.attached]
    exact hwork _ rfl (by decide)
  | false =>
    obtain ⟨opts, hspells, hvalid, hmode, hlt⟩ :=
      h.asked.resolve_left (Bool.eq_false_iff.mp hname)
    have hargs := @ctlArgs_of_spells W _ _ _ hname hspells (args_ne_of_mode hspells hmode)
    rw [ctlMain_of_attached hargs (valueInval_saidArgs.mpr hvalid) h.attached]
    refine hwork _ ((copt_saidArgs (by decide)).mpr hmode) ?_
    rwa [shmi_saidArgs hvalid]

theorem stores_of_copt {opts : List Opt} {ptr : Nat} (hname : isCtlShell argv0 = false)
    (hspells : Spells ctlOptstring args opts) (hinval : (saidArgs W opts).valueInval = false)
    (h : Attached env) (hcopt : (saidArgs W opts).copt = .set) (hro : env.rdonly = false)
    (hset : (saidArgs W opts).valueSet = true)
    (hptr : env.init.getptr (saidArgs W opts).shmi = some ptr) :
    ∃ id value, Stores W argv0 args env id value := by
  have hvalid := valueInval_saidArgs.mp hinval
  have hmode : lastOf ctlMode opts = some .set := (copt_saidArgs (by decide)).mp hcopt
  obtain ⟨t, ht⟩ := lastOf_ctlId hmode
  obtain ⟨t', ht'⟩ := Option.isSome_iff_exists.mp hset
  obtain ⟨opt, hopt, hoptid⟩ := exists_of_lastOf ht
  obtain ⟨opt', hopt', hoptvalue⟩ := exists_of_lastOf ht'
  obtain ⟨id, hid⟩ := Option.ne_none_iff_exists'.mp
    ((str2int_of_valid (hvalid opt hopt)).1 t hoptid)
  obtain ⟨value, hvalue⟩ := Option.ne_none_iff_exists'.mp
    ((str2int_of_valid (hvalid opt' hopt')).2 t' hoptvalue)
  have hlast : (lastOf ctlId opts).bind (str2int W) = some id := by rw [ht, Option.bind_some, hid]
  have hlast' : (lastOf ctlValue opts).bind (str2int W) = some value := by
    rw [ht', Option.bind_some, hvalue]
  rw [shmi_saidArgs hvalid, hlast, Option.getD_some] at hptr
  exact ⟨id, value, hname, ⟨opts, hspells, hvalid, hmode, hlast, hlast'⟩, h, hro,
    ((getptr_eq_some h).mp hptr).1⟩

/-- **When `iralarmctl` stores.**  With `-s` exactly if the options are known and complete,
every text of `-g`, `-s` and `-v` is a number, the last mode is `-s` and there is a `-v`,
and the semaphore, a writable segment and the object are there: it stores the value of the
last `-v` in the object of the last `-s` or `-g` and calls `kill` once, for the process of
`GETPID`; whether that fails changes nothing but the message, unless the signal goes to the
process itself.  The shell stores what its commands say, if it can, and signals nobody.
Every other command line leaves the segment and the daemon alone. -/
theorem ctl_stores_iff (W : Nat) (argv0 : List Char) (args : List (List Char)) (env : CtlEnv)
    (s : CtlScene) :
    (∀ id value, Stores W argv0 args env id value →
      let (scene, errno) :=
        CtlScene.kill env.may { s with seg := storedIn s.seg (id, value) } env.irdPid
      ctlMain W argv0 args env s = ⟨if env.endsItself then none else some 0, scene,
        [.shown (doSet irsmData id (4 * pOff irsmData id) value s.seg).2],
        if env.endsItself then none else errno.map .kill, false, [env.irdPid]⟩) ∧
    (OpensShell W argv0 args env →
      let turns := shellTurns env.behind env.input
      (ctlMain W argv0 args env s).scene = (if env.rdonly then s
        else { s with seg := (turns.filterMap (ShellCmd.stores W)).foldl storedIn s.seg }) ∧
      ((ctlMain W argv0 args env s).status = none ↔
        env.rdonly = true ∧ ∃ cmd ∈ turns, (cmd.stores W).isSome = true) ∧
      (ctlMain W argv0 args env s).kills = []) ∧
    ((∀ id value, ¬ Stores W argv0 args env id value) → ¬ OpensShell W argv0 args env →
      (ctlMain W argv0 args env s).scene = s ∧ (ctlMain W argv0 args env s).kills = []) := by
  refine ⟨fun id value h => h.run s, ?_, ?_⟩
  · intro h
    rw [h.run s]
    refine ⟨shellRun_scene _ s, ?_, rfl⟩
    show (if (env.rdonly && (shellRun W env.rdonly s (shellTurns env.behind env.input)).attempted)
      then (none : Option Nat) else some 0) = none ↔ _
    rw [shellRun_attempted]
    simp [Option.isSome_iff_ne_none]
  · intro hno hnoshell
    rcases ctlMain_cases W argv0 args env s with hsame | ⟨a, hargs, hinval, hattached, hrun⟩
    · exact hsame
    · rw [hrun]
      rcases ctlWork_cases W a env s with
        hsame | ⟨ptr, hptr, ⟨hcopt, hro, hset, -⟩ | ⟨hcopt, -⟩⟩
      · exact hsame
      · rcases spells_of_ctlArgs hargs with ⟨-, rfl⟩ | ⟨hname, opts, hspells, rfl⟩
        · cases hcopt
        · obtain ⟨id, value, hstores⟩ :=
            stores_of_copt hname hspells hinval hattached hcopt hro hset hptr
          exact absurd hstores (hno id value)
      · refine absurd ⟨?_, hattached⟩ hnoshell
        rcases spells_of_ctlArgs hargs with ⟨hname, -⟩ | ⟨-, opts, hspells, rfl⟩
        · exact .inl hname
        · have hvalid := valueInval_saidArgs.mp hinval
          rw [shmi_saidArgs hvalid] at hptr
          exact .inr ⟨opts, hspells, hvalid, (copt_saidArgs (by decide)).mp hcopt,
            ((getptr_eq_some hattached).mp hptr).1⟩

/-- On the plain line `-s ID -v VALUE` the program leaves what `mainSet` does, and calls
`kill` when `mainSet` does. -/
theorem ctlMain_mainSet (h : Attached env) (hname : isCtlShell argv0 = false)
    (optID optValue : List Char) (s : CtlScene) :
    let run := ctlMain W argv0 [['-', 's'], optID, ['-', 'v'], optValue] env s
    let run' := mainSet W env.rdonly env.may env.irdPid optID optValue s
    run.scene = run'.scene ∧ (run.kills = [] ↔ run'.attempted = false) := by
  have hspells : Spells ctlOptstring [['-', 's'], optID, ['-', 'v'], optValue]
      [.arg 's' optID, .arg 'v' optValue] :=
    .separate (by decide) (.separate (by decide) .nil)
  have hargs := @ctlArgs_of_spells W _ _ _ hname hspells (by simp)
  have hptr : ∀ id, env.init.getptr id = irmemGetptr irsmData id := getptr_irmemInit h.init
  simp only [ctlMain, hargs, h.semaphore, h.init, h.segment, Bool.true_eq_false, if_false]
  cases hid : str2int W optID with
  | none =>
    simp [saidArgs, ctlInvalid, ctlId, ctlValue, hid, CtlExit.gaveUp, mainSet, CtlScene.fails]
  | some id =>
    cases hvalue : str2int W optValue with
    | none =>
      simp [saidArgs, ctlInvalid, ctlId, ctlValue, hid, hvalue, CtlExit.gaveUp, mainSet,
        CtlScene.fails]
    | some value =>
      have hsaid : saidArgs W [.arg 's' optID, .arg 'v' optValue] =
          ⟨.set, id, value, true, false⟩ := by
        simp [saidArgs, lastOf, ctlMode, ctlInvalid, ctlId, ctlValue, hid, hvalue]
      simp only [hsaid, Bool.false_eq_true, if_false, ctlWork, hptr, mainSet, hid, hvalue]
      cases irmemGetptr irsmData id with
      | none => exact ⟨rfl, iff_of_true rfl rfl⟩
      | some ptr =>
        cases env.rdonly with
        | true => exact ⟨rfl, iff_of_true rfl rfl⟩
        | false => exact ⟨rfl, iff_of_false (by simp [ctlSet]) (by simp [CtlScene.doSet])⟩

end Main

/-- A number is joined to its letter or is the next word, and words between are passed over. -/
example : getopt ctlOptstring ["-g4".toList, "x".toList, "-s".toList, "8".toList, "-av1".toList] =
    [.arg 'g' ['4'], .arg 's' ['8'], .flag 'a', .arg 'v' ['1']] := by decide

end Raspberries.IrAlarm
