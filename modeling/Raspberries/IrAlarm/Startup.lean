import Raspberries.IrAlarm.ConnectWait
import Raspberries.Lib.CString
import Raspberries.Lib.Getopt

/-!
# The start of the daemon

`main` of `iralarmd.c` from its options to the wait for the XMPP connection, in the build
with XMPP that runs in the background: the loop over the options, the test that the XMPP
options are complete, the registers of the GPIO, the fork and the change of user, the
password file and `irxmpp_startThread`.

`irpio_init` returns nothing.  If it could not map the registers, the first access of
`irpio_setpwm` faults, and the handler of SIGSEGV returns to the same access.

`daemon_waits_iff` says which starts come to that wait and with which account.  The test of
the options lets through more than that: `missing_arguments_iff` says which starts it ends.
-/

namespace Raspberries.IrAlarm

open CString Getopt

/-! ### The options -/

/-- What the loop over the options leaves; `xmpp_opts` has a bit for each of the options
`-x`, `-j`, `-s` and `-p`. -/
structure DaemonArgs where
  chuser : Option (List Char)
  trustedJid : Option (List Char)
  jid : Option (List Char)
  host : Option (List Char)
  port : Nat
  passwdFile : Option (List Char)
  xmppOpts : BitVec 8
  deriving DecidableEq, Repr

def DaemonArgs.start : DaemonArgs := ⟨none, none, none, none, 0, none, 0#8⟩

def daemonOptstring : List Char := "hu:x:j:s:p:w:".toList

/-- `strtoul` of the argument of `-p`, cut to an `unsigned short`; `none` without a digit. -/
def portOf (W : Nat) (optarg : List Char) : Option Nat :=
  let (tmpval, consumed) := strtoul W optarg
  if consumed = 0 then none else some (tmpval % 2 ^ 16)

def DaemonArgs.option (W bufsiz : Nat) (a : DaemonArgs) : Opt → Option DaemonArgs
  | .arg c optarg =>
    if c = 'u' then some { a with chuser := some optarg }
    else if c = 'x' then
      some { a with trustedJid := some (optarg.take bufsiz), xmppOpts := a.xmppOpts ||| 0x1#8 }
    else if c = 'j' then some { a with jid := some optarg, xmppOpts := a.xmppOpts ||| 0x2#8 }
    else if c = 's' then
      some { a with host := some (optarg.take bufsiz), xmppOpts := a.xmppOpts ||| 0x4#8 }
    else if c = 'p' then
      some { a with port := (portOf W optarg).getD a.port, xmppOpts := a.xmppOpts ||| 0x8#8 }
    else if c = 'w' then some { a with passwdFile := a.passwdFile.or (some optarg) }
    else none
  | .flag _ | .error => none

/-! ### The password file -/

def iralarmPasswdfile : List Char := "/etc/irxmppasswd".toList

def errOk : Int := 0
def errCfgMode : Int := -5
def errSyserr : Int := -6
def errPath : Int := -7

def sIfmt : Nat := 0o170000
def sIfreg : Nat := 0o100000
def sIrusr : Nat := 0o400

def frbddnBits : List Nat := [0o4000, 0o2000, 0o40, 0o20, 0o10, 0o4, 0o2, 0o1]

/-- `irxmpp_check_passwd_file`; `stat` is the `st_mode` of a file that is there. -/
def irxmppCheckPasswdFile (passwdFile : Option (List Char)) (stat : List Char → Option Nat) : Int :=
  match passwdFile with
  | none => errPath
  | some path =>
    match stat path with
    | none => errSyserr
    | some stMode =>
      if stMode &&& sIfmt = sIfreg ∧ stMode &&& sIrusr ≠ 0 then
        if frbddnBits.any fun bit => decide (stMode &&& bit ≠ 0) then errCfgMode else errOk
      else errCfgMode

/-- The password in a text: `fread` stops at the size of the buffer, and `strstr` finds a
line end only before the end of the string. -/
def passwordOf (bufsiz : Nat) (text : List Char) : List Char :=
  before '\n' (before (Char.ofNat 0) (text.take (bufsiz - 1)))

/-- `irxmpp_read_passwd_file`, with the password it sets. -/
def irxmppReadPasswdFile (bufsiz : Nat) (passwdFile : Option (List Char))
    (file : List Char → Option (List Char)) : Int × Option (List Char) :=
  match passwdFile with
  | none => (errPath, none)
  | some path =>
    match file path with
    | none => (errSyserr, none)
    | some text => (errOk, some (passwordOf bufsiz text))

/-! ### `main` -/

/-- What the process finds: whether it is `root`, whether `/dev/mem` can be opened and mapped,
whether the clock of the PWM stops when it is told to, whether `fork` and `setsid` succeed,
for a user whether `getpwnam` finds one and the three calls then succeed, the modes and the
texts of files, and what `pthread_create` returns. -/
structure DaemonEnv where
  root : Bool
  devMem : Bool
  clockStops : Bool
  fork : Bool
  setsid : Bool
  becomes : List Char → Bool
  stat : List Char → Option Nat
  file : List Char → Option (List Char)
  ret : Nat

structure Account where
  host : Option (List Char)
  port : Nat
  jid : Option (List Char)
  pass : Option (List Char)
  trustedJid : Option (List Char)
  deriving DecidableEq, Repr

inductive DaemonError
  | usage
  | missingXmpp
  | notRoot
  | daemonize
  | checkPasswd (ret : Int)
  | readPasswd (ret : Int)
  | startThread (ret : Int)
  deriving DecidableEq, Repr

/-- The process ends with a status, faults for ever, waits for ever for the clock of the
PWM, or comes to `irxmpp_thread_connect_wait`. -/
inductive DaemonStart
  | exits (status : Nat) (error : DaemonError)
  | faults
  | spins
  | waits (account : Account)
  deriving DecidableEq, Repr

/-- The test behind the loop over the options. -/
def xmppIncomplete (xmppOpts : BitVec 8) : Bool :=
  decide (xmppOpts < 0x7#8) && decide (xmppOpts ≠ 0#8)

/-- `daemonize`: the status it ends with, or `none` for the child that goes on. -/
def daemonize (chuser : Option (List Char)) (env : DaemonEnv) : Option Nat :=
  if env.fork = false then some 1
  else if env.setsid = false then some 2
  else match chuser with
    | none => none
    | some user => if env.becomes user then none else some 2

def daemonXmpp (bufsiz : Nat) (a : DaemonArgs) (env : DaemonEnv) : DaemonStart :=
  let passwdFile := a.passwdFile.or (some iralarmPasswdfile)
  let checked := irxmppCheckPasswdFile passwdFile env.stat
  if checked ≠ errOk then .exits 1 (.checkPasswd checked)
  else
    let (read, pass) := irxmppReadPasswdFile bufsiz passwdFile env.file
    if read ≠ errOk then .exits 1 (.readPasswd read)
    else
      let started := irxmppStartThread
        ⟨a.host.isSome, a.jid.isSome, pass.isSome, a.trustedJid.isSome⟩ env.ret
      if started ≠ 0 then .exits 1 (.startThread started)
      else .waits ⟨a.host, a.port, a.jid, pass, a.trustedJid⟩

/-- `main`, with an `unsigned long` of `W` bits. -/
def daemonMain (W bufsiz : Nat) (args : List (List Char)) (env : DaemonEnv) : DaemonStart :=
  match (getopt daemonOptstring args).foldlM (DaemonArgs.option W bufsiz) .start with
  | none => .exits 1 .usage
  | some a =>
    if xmppIncomplete a.xmppOpts then .exits 1 .missingXmpp
    else if env.root = false then .exits 1 .notRoot
    -- `irpio_init` and `irpio_setpwm`
    else if env.devMem = false then .faults
    else if env.clockStops = false then .spins
    else match daemonize a.chuser env with
      | some status => .exits status .daemonize
      | none => daemonXmpp bufsiz a env

/-! ### What the options say -/

def textOf (letter : Char) : Opt → Option (List Char)
  | .arg c optarg => if c = letter then some optarg else none
  | _ => none

/-- A bit for each of the options `-x`, `-j`, `-s` and `-p` that are there. -/
def optBits (x j s p : Bool) : BitVec 8 :=
  (if x then 0x1#8 else 0#8) ||| (if j then 0x2#8 else 0#8) ||| (if s then 0x4#8 else 0#8) |||
    (if p then 0x8#8 else 0#8)

/-- What the options of a command line come to. -/
def saidDaemonArgs (W bufsiz : Nat) (opts : List Opt) : DaemonArgs where
  chuser := lastOf (textOf 'u') opts
  trustedJid := (lastOf (textOf 'x') opts).map (List.take bufsiz)
  jid := lastOf (textOf 'j') opts
  host := (lastOf (textOf 's') opts).map (List.take bufsiz)
  port := (lastOf (fun opt => (textOf 'p' opt).bind (portOf W)) opts).getD 0
  passwdFile := opts.findSome? (textOf 'w')
  xmppOpts := optBits (lastOf (textOf 'x') opts).isSome (lastOf (textOf 'j') opts).isSome
    (lastOf (textOf 's') opts).isSome (lastOf (textOf 'p') opts).isSome

theorem optBits_or (x j s p : Bool) :
    optBits x j s p ||| 0x1#8 = optBits true j s p ∧
      optBits x j s p ||| 0x2#8 = optBits x true s p ∧
      optBits x j s p ||| 0x4#8 = optBits x j true p ∧
      optBits x j s p ||| 0x8#8 = optBits x j s true := by
  revert x j s p
  decide

/-- The test ends a start that has some of the first three options and not all, and not the
fourth. -/
theorem xmppIncomplete_optBits (x j s p : Bool) :
    xmppIncomplete (optBits x j s p) = ((x || j || s) && !(x && j && s) && !p) := by
  revert x j s p
  decide

section Options

variable {W bufsiz : Nat} {args : List (List Char)} {opts : List Opt}

theorem daemonOption_known (h : Spells daemonOptstring args opts) {opt : Opt} (hopt : opt ∈ opts) :
    opt = .flag 'h' ∨ ∃ c optarg, opt = .arg c optarg ∧ c ∈ ['u', 'x', 'j', 's', 'p', 'w'] := by
  have htable : optionTable daemonOptstring = [('h', false), ('u', true), (':', false), ('x', true),
      (':', false), ('j', true), (':', false), ('s', true), (':', false), ('p', true),
      (':', false), ('w', true), (':', false)] := by decide
  rcases takesArg_of_spells h opt hopt with ⟨c, rfl, hc⟩ | ⟨c, optarg, rfl, hc⟩
  · obtain ⟨hmem, hcolon⟩ := mem_optionTable hc
    rw [htable] at hmem
    simp [hcolon] at hmem
    exact .inl (by rw [hmem])
  · obtain ⟨hmem, -⟩ := mem_optionTable hc
    rw [htable] at hmem
    refine .inr ⟨c, optarg, rfl, ?_⟩
    simpa using hmem

theorem option_saidDaemonArgs {c : Char} (hc : c ∈ ['u', 'x', 'j', 's', 'p', 'w'])
    (optarg : List Char) (opts : List Opt) :
    (saidDaemonArgs W bufsiz opts).option W bufsiz (.arg c optarg) =
      some (saidDaemonArgs W bufsiz (opts ++ [.arg c optarg])) := by
  simp only [saidDaemonArgs, lastOf_concat, List.findSome?_append, List.findSome?_singleton]
  simp only [List.mem_cons, List.not_mem_nil, or_false] at hc
  obtain ⟨hx, hj, hs, hp⟩ := optBits_or (lastOf (textOf 'x') opts).isSome
    (lastOf (textOf 'j') opts).isSome (lastOf (textOf 's') opts).isSome
    (lastOf (textOf 'p') opts).isSome
  rcases hc with rfl | rfl | rfl | rfl | rfl | rfl
  · simp [DaemonArgs.option, textOf]
  · simp [DaemonArgs.option, textOf, hx]
  · simp [DaemonArgs.option, textOf, hj]
  · simp [DaemonArgs.option, textOf, hs]
  · cases hport : portOf W optarg <;> simp [DaemonArgs.option, textOf, hp, hport]
  · simp [DaemonArgs.option, textOf]

theorem foldlM_saidDaemonArgs (h : Spells daemonOptstring args opts) (hhelp : .flag 'h' ∉ opts) :
    opts.foldlM (DaemonArgs.option W bufsiz) .start = some (saidDaemonArgs W bufsiz opts) := by
  have hfront : ∀ front : List Opt, (∀ opt ∈ front, opt ∈ opts) →
      front.foldlM (DaemonArgs.option W bufsiz) .start = some (saidDaemonArgs W bufsiz front) := by
    intro front hmem
    induction front using List.reverseRecOn with
    | nil => rfl
    | append_singleton front opt ih =>
      have hbefore := ih fun opt' hopt' => hmem opt' (List.mem_append_left _ hopt')
      have hlast : opt ∈ opts := hmem opt (List.mem_append_right _ List.mem_cons_self)
      rw [List.foldlM_append, hbefore, Option.bind_eq_bind, Option.bind_some, List.foldlM_cons]
      rcases daemonOption_known h hlast with rfl | ⟨c, optarg, rfl, hc⟩
      · exact absurd hlast hhelp
      · rw [option_saidDaemonArgs hc]
        rfl
  exact hfront opts fun _ hopt => hopt

theorem foldlM_usage (h : Opt.error ∈ opts ∨ Opt.flag 'h' ∈ opts) (a : DaemonArgs) :
    opts.foldlM (DaemonArgs.option W bufsiz) a = none := by
  induction opts generalizing a with
  | nil =>
    cases h with
    | inl h => cases h
    | inr h => cases h
  | cons opt opts ih =>
    rw [List.foldlM_cons]
    cases hopt : a.option W bufsiz opt with
    | none => rfl
    | some a' =>
      refine ih ?_ a'
      rcases h with h | h
      · refine .inl ((List.mem_cons.mp h).resolve_left ?_)
        rintro rfl
        cases hopt
      · refine .inr ((List.mem_cons.mp h).resolve_left ?_)
        rintro rfl
        cases hopt

/-- The loop over the options comes to its end with what they say, or it ends the program. -/
theorem foldlM_eq_some {a : DaemonArgs} :
    (getopt daemonOptstring args).foldlM (DaemonArgs.option W bufsiz) .start = some a ↔
      ∃ opts, Spells daemonOptstring args opts ∧ .flag 'h' ∉ opts ∧
        a = saidDaemonArgs W bufsiz opts := by
  refine ⟨?_, ?_⟩
  · intro h
    have herror : Opt.error ∉ getopt daemonOptstring args := by
      intro hmem
      cases (foldlM_usage (.inl hmem) .start).symm.trans h
    have hhelp : Opt.flag 'h' ∉ getopt daemonOptstring args := by
      intro hmem
      cases (foldlM_usage (.inr hmem) .start).symm.trans h
    have hspells := spells_of_getopt herror
    rw [foldlM_saidDaemonArgs hspells hhelp] at h
    exact ⟨_, hspells, hhelp, (Option.some.inj h).symm⟩
  · intro h
    obtain ⟨opts, hspells, hhelp, rfl⟩ := h
    rw [getopt_of_spells hspells, foldlM_saidDaemonArgs hspells hhelp]

end Options

/-! ### Which starts come to the wait -/

/-- A regular file that its owner may read and that nobody else may touch. -/
structure OwnerOnly (stMode : Nat) : Prop where
  regular : stMode &&& sIfmt = sIfreg
  readable : stMode &&& sIrusr ≠ 0
  closed : ∀ bit ∈ frbddnBits, stMode &&& bit = 0

theorem checkPasswdFile_ok {path : List Char} {stat : List Char → Option Nat} :
    irxmppCheckPasswdFile (some path) stat = errOk ↔ ∃ m, stat path = some m ∧ OwnerOnly m := by
  have hcode : errCfgMode ≠ errOk ∧ errSyserr ≠ errOk := by decide
  rw [irxmppCheckPasswdFile]
  cases hstat : stat path with
  | none =>
    refine ⟨fun h => absurd h hcode.2, ?_⟩
    intro h
    obtain ⟨m, hm, -⟩ := h
    cases hm
  | some m =>
    simp only [Option.some.injEq, exists_eq_left']
    by_cases hfile : m &&& sIfmt = sIfreg ∧ m &&& sIrusr ≠ 0
    · rw [if_pos hfile]
      by_cases hbits : (frbddnBits.any fun bit => decide (m &&& bit ≠ 0)) = true
      · rw [if_pos hbits]
        obtain ⟨bit, hbit, hset⟩ := List.any_eq_true.mp hbits
        refine ⟨fun h => absurd h hcode.1, ?_⟩
        intro h
        exact absurd (h.closed bit hbit) (of_decide_eq_true hset)
      · rw [if_neg hbits]
        refine iff_of_true rfl ⟨hfile.1, hfile.2, ?_⟩
        intro bit hbit
        by_contra hset
        exact hbits (List.any_eq_true.mpr ⟨bit, hbit, decide_eq_true hset⟩)
    · rw [if_neg hfile]
      refine ⟨fun h => absurd h hcode.1, ?_⟩
      intro h
      exact absurd ⟨h.regular, h.readable⟩ hfile

/-- The options name the account and a password file that only its owner can touch and that
can be read, the registers are there, and the process can become a daemon of the user and
start a thread. -/
structure Starts (W bufsiz : Nat) (args : List (List Char)) (env : DaemonEnv)
    (account : Account) : Prop where
  options : ∃ opts host jid trustedJid path text m,
    Spells daemonOptstring args opts ∧ .flag 'h' ∉ opts ∧
    lastOf (textOf 's') opts = some host ∧ lastOf (textOf 'j') opts = some jid ∧
    lastOf (textOf 'x') opts = some trustedJid ∧
    path = (opts.findSome? (textOf 'w')).getD iralarmPasswdfile ∧
    env.stat path = some m ∧ OwnerOnly m ∧ env.file path = some text ∧
    daemonize (lastOf (textOf 'u') opts) env = none ∧
    account =
      ⟨some (host.take bufsiz), (lastOf (fun opt => (textOf 'p' opt).bind (portOf W)) opts).getD 0,
        some jid, some (passwordOf bufsiz text), some (trustedJid.take bufsiz)⟩
  root : env.root = true
  devMem : env.devMem = true
  clock : env.clockStops = true
  thread : env.ret = 0

theorem startThread_eq_zero {host jid pass trustedJid : Bool} {ret : Nat} :
    irxmppStartThread ⟨host, jid, pass, trustedJid⟩ ret = 0 ↔
      host = true ∧ jid = true ∧ pass = true ∧ trustedJid = true ∧ ret = 0 := by
  cases host <;> cases jid <;> cases pass <;> cases trustedJid <;>
    simp [irxmppStartThread, errNhost, errNjid, errNpass, errNtrusted]

theorem daemonXmpp_waits {bufsiz : Nat} {a : DaemonArgs} {env : DaemonEnv} {account : Account} :
    daemonXmpp bufsiz a env = .waits account ↔
      ∃ path m text, path = a.passwdFile.getD iralarmPasswdfile ∧ env.stat path = some m ∧
        OwnerOnly m ∧ env.file path = some text ∧ a.host.isSome ∧ a.jid.isSome ∧
        a.trustedJid.isSome ∧ env.ret = 0 ∧
        account = ⟨a.host, a.port, a.jid, some (passwordOf bufsiz text), a.trustedJid⟩ := by
  have hpath : a.passwdFile.or (some iralarmPasswdfile) =
      some (a.passwdFile.getD iralarmPasswdfile) := by
    cases a.passwdFile with
    | none => rfl
    | some path => rfl
  have hcode : errSyserr ≠ errOk := by decide
  rw [daemonXmpp, hpath]
  by_cases hcheck : irxmppCheckPasswdFile (some (a.passwdFile.getD iralarmPasswdfile)) env.stat =
      errOk
  · obtain ⟨m, hstat, hmode⟩ := checkPasswdFile_ok.mp hcheck
    cases hfile : env.file (a.passwdFile.getD iralarmPasswdfile) with
    | none =>
      have hread : irxmppReadPasswdFile bufsiz (some (a.passwdFile.getD iralarmPasswdfile))
          env.file = (errSyserr, none) := by
        rw [irxmppReadPasswdFile, hfile]
      simp only [hcheck, hread, ne_eq, not_true_eq_false, if_false, hcode, not_false_eq_true,
        if_true, reduceCtorEq, false_iff]
      intro h
      obtain ⟨path, m, text, rfl, -, -, htext, -⟩ := h
      cases hfile.symm.trans htext
    | some text =>
      have hread : irxmppReadPasswdFile bufsiz (some (a.passwdFile.getD iralarmPasswdfile))
          env.file = (errOk, some (passwordOf bufsiz text)) := by
        rw [irxmppReadPasswdFile, hfile]
      simp only [hcheck, hread, ne_eq, not_true_eq_false, if_false, Option.isSome_some]
      by_cases hstart : irxmppStartThread ⟨a.host.isSome, a.jid.isSome, true,
          a.trustedJid.isSome⟩ env.ret = 0
      · obtain ⟨hhost, hjid, -, htrusted, hret⟩ := startThread_eq_zero.mp hstart
        simp only [hstart, not_true_eq_false, if_false, DaemonStart.waits.injEq]
        refine ⟨?_, ?_⟩
        · intro h
          exact ⟨_, m, text, rfl, hstat, hmode, hfile, hhost, hjid, htrusted, hret, h.symm⟩
        · intro h
          obtain ⟨path, m', text', rfl, -, -, htext, -, -, -, -, haccount⟩ := h
          obtain rfl := Option.some.inj (hfile.symm.trans htext)
          exact haccount.symm
      · simp only [hstart, not_false_eq_true, if_true, reduceCtorEq, false_iff]
        intro h
        obtain ⟨path, m', text', -, -, -, -, hhost, hjid, htrusted, hret, -⟩ := h
        exact hstart (startThread_eq_zero.mpr ⟨hhost, hjid, rfl, htrusted, hret⟩)
  · have hnone : ¬ ∃ m, env.stat (a.passwdFile.getD iralarmPasswdfile) = some m ∧ OwnerOnly m :=
      fun h => hcheck (checkPasswdFile_ok.mpr h)
    simp only [ne_eq, hcheck, not_false_eq_true, if_true, reduceCtorEq, false_iff]
    intro h
    obtain ⟨path, m, text, rfl, hstat, hmode, -⟩ := h
    exact hnone ⟨m, hstat, hmode⟩

theorem daemonMain_waits {W bufsiz : Nat} {args : List (List Char)} {env : DaemonEnv}
    {account : Account} :
    daemonMain W bufsiz args env = .waits account ↔
      ∃ opts, Spells daemonOptstring args opts ∧ .flag 'h' ∉ opts ∧
        xmppIncomplete (saidDaemonArgs W bufsiz opts).xmppOpts = false ∧ env.root = true ∧
        env.devMem = true ∧ env.clockStops = true ∧
        daemonize (saidDaemonArgs W bufsiz opts).chuser env = none ∧
        daemonXmpp bufsiz (saidDaemonArgs W bufsiz opts) env = .waits account := by
  rw [daemonMain]
  cases hargs : (getopt daemonOptstring args).foldlM (DaemonArgs.option W bufsiz) .start with
  | none =>
    simp only [reduceCtorEq, false_iff]
    intro h
    obtain ⟨opts, hspells, hhelp, -⟩ := h
    cases hargs.symm.trans (foldlM_eq_some.mpr ⟨opts, hspells, hhelp, rfl⟩)
  | some a =>
    obtain ⟨opts, hspells, hhelp, rfl⟩ := foldlM_eq_some.mp hargs
    -- the words spell these options and no others
    have honly : ∀ opts', Spells daemonOptstring args opts' → opts' = opts := by
      intro opts' hspells'
      exact (getopt_of_spells hspells').symm.trans (getopt_of_spells hspells)
    refine ⟨?_, ?_⟩
    · intro h
      refine ⟨opts, hspells, hhelp, ?_⟩
      dsimp only at h
      split at h
      next => cases h
      next hcomplete =>
        split at h
        next => cases h
        next hroot =>
          split at h
          next => cases h
          next hmem =>
            split at h
            next => cases h
            next hclock =>
              split at h
              next => cases h
              next hdaemon =>
                exact ⟨by simpa using hcomplete, by simpa using hroot, by simpa using hmem,
                  by simpa using hclock, hdaemon, h⟩
    · intro h
      obtain ⟨opts', hspells', -, hcomplete, hroot, hmem, hclock, hdaemon, hxmpp⟩ := h
      obtain rfl := honly opts' hspells'
      simp only [hcomplete, hroot, hmem, hclock, hdaemon, hxmpp, Bool.false_eq_true,
        Bool.true_eq_false, if_false]

/-- **Which starts come to the wait for the connection.**  Those of `root` whose options are
known and complete and name a host, a JID and a trusted JID, with a password file (the
first one that is named, or the usual one) that is regular, readable by its owner, closed to
everybody else and can be opened, where the registers can be mapped, the clock stops, the
process can become a daemon and the thread can be created.  The last host, JIDs and port
that are named count. -/
theorem daemon_waits_iff (W bufsiz : Nat) (args : List (List Char)) (env : DaemonEnv)
    (account : Account) :
    daemonMain W bufsiz args env = .waits account ↔ Starts W bufsiz args env account := by
  rw [daemonMain_waits]
  refine ⟨?_, ?_⟩
  · intro h
    obtain ⟨opts, hspells, hhelp, -, hroot, hmem, hclock, hdaemon, hxmpp⟩ := h
    obtain ⟨path, m, text, hpath, hstat, hmode, htext, hhost, hjid, htrusted, hret, haccount⟩ :=
      daemonXmpp_waits.mp hxmpp
    obtain ⟨host, hhost'⟩ := Option.isSome_iff_exists.mp ((Option.isSome_map ..).symm.trans hhost)
    obtain ⟨jid, hjid'⟩ := Option.isSome_iff_exists.mp hjid
    obtain ⟨trusted, htrusted'⟩ :=
      Option.isSome_iff_exists.mp ((Option.isSome_map ..).symm.trans htrusted)
    refine ⟨⟨opts, host, jid, trusted, path, text, m, hspells, hhelp, hhost', hjid', htrusted',
      hpath, hstat, hmode, htext, hdaemon, ?_⟩, hroot, hmem, hclock, hret⟩
    rw [haccount]
    simp only [saidDaemonArgs, hhost', htrusted', Option.map_some]
    rw [← hjid']
    rfl
  · intro h
    obtain ⟨opts, host, jid, trusted, path, text, m, hspells, hhelp, hhost, hjid, htrusted, hpath,
      hstat, hmode, htext, hdaemon, haccount⟩ := h.options
    refine ⟨opts, hspells, hhelp, ?_, h.root, h.devMem, h.clock, hdaemon,
      daemonXmpp_waits.mpr ?_⟩
    · simp only [saidDaemonArgs, xmppIncomplete_optBits, hhost, hjid, htrusted, Option.isSome_some]
      rfl
    · refine ⟨path, m, text, hpath, hstat, hmode, htext, ?_, ?_, ?_, h.thread, ?_⟩
      · simp only [saidDaemonArgs, hhost, Option.map_some, Option.isSome_some]
      · simp only [saidDaemonArgs, hjid, Option.isSome_some]
      · simp only [saidDaemonArgs, htrusted, Option.map_some, Option.isSome_some]
      · rw [haccount]
        simp only [saidDaemonArgs, hhost, htrusted, hjid, Option.map_some]

theorem xmppIncomplete_iff (W bufsiz : Nat) {opts : List Opt} :
    xmppIncomplete (saidDaemonArgs W bufsiz opts).xmppOpts = true ↔
      lastOf (textOf 'p') opts = none ∧
        (∃ letter ∈ ['x', 'j', 's'], lastOf (textOf letter) opts ≠ none) ∧
        ∃ letter ∈ ['x', 'j', 's'], lastOf (textOf letter) opts = none := by
  rw [saidDaemonArgs, xmppIncomplete_optBits]
  cases hx : lastOf (textOf 'x') opts <;> cases hj : lastOf (textOf 'j') opts <;>
    cases hs : lastOf (textOf 's') opts <;> cases hp : lastOf (textOf 'p') opts <;>
    simp [hx, hj, hs]

theorem daemonXmpp_ne {bufsiz : Nat} {a : DaemonArgs} {env : DaemonEnv} :
    daemonXmpp bufsiz a env ≠ .exits 1 .missingXmpp := by
  intro h
  unfold daemonXmpp at h
  dsimp only at h
  split at h
  next => cases h
  next =>
    split at h
    next => cases h
    next => split at h <;> cases h

/-- **Which starts the test of the options ends.**  Those with some of `-x`, `-j` and `-s`
and not all of them, as long as there is no `-p`; with `-p`, or without any of the three, an
incomplete account is found only by `irxmpp_startThread`, if nothing ends the start before. -/
theorem missing_arguments_iff (W bufsiz : Nat) (args : List (List Char)) (env : DaemonEnv) :
    daemonMain W bufsiz args env = .exits 1 .missingXmpp ↔
      ∃ opts, Spells daemonOptstring args opts ∧ .flag 'h' ∉ opts ∧
        lastOf (textOf 'p') opts = none ∧
        (∃ letter ∈ ['x', 'j', 's'], lastOf (textOf letter) opts ≠ none) ∧
        ∃ letter ∈ ['x', 'j', 's'], lastOf (textOf letter) opts = none := by
  rw [daemonMain]
  cases hargs : (getopt daemonOptstring args).foldlM (DaemonArgs.option W bufsiz) .start with
  | none =>
    simp only [DaemonStart.exits.injEq, reduceCtorEq, and_false, false_iff]
    intro h
    obtain ⟨opts, hspells, hhelp, -⟩ := h
    cases hargs.symm.trans (foldlM_eq_some.mpr ⟨opts, hspells, hhelp, rfl⟩)
  | some a =>
    obtain ⟨opts, hspells, hhelp, rfl⟩ := foldlM_eq_some.mp hargs
    refine ⟨?_, ?_⟩
    · intro h
      refine ⟨opts, hspells, hhelp, (xmppIncomplete_iff W bufsiz).mp ?_⟩
      dsimp only at h
      split at h
      next hincomplete => exact hincomplete
      next =>
        split at h
        next => cases h
        next =>
          split at h
          next => cases h
          next =>
            split at h
            next => cases h
            next =>
              split at h
              next => cases h
              next => exact absurd h daemonXmpp_ne
    · intro h
      obtain ⟨opts', hspells', -, hmissing⟩ := h
      obtain rfl : opts' = opts :=
        (getopt_of_spells hspells').symm.trans (getopt_of_spells hspells)
      simp only [(xmppIncomplete_iff W bufsiz).mpr hmissing, if_true]

end Raspberries.IrAlarm
