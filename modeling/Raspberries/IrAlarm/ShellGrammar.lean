import Raspberries.IrAlarm.ShellStream
import Raspberries.Lib.Words

/-!
# The commands GET and SET as a grammar

`do_shell` recognises a command by the beginning of the buffer, and `shell_getarg` leaves
the first word out, whatever it is.  So `GETX 5` is obeyed (`getx_obeyed`), and a line
that starts with a blank is not.  An argument of `SHELL_ARGLEN` characters or more has no
zero behind it in its row, so that `str2int` reads on into the next one.

`shell_exact_iff` says for which lines the shell obeys exactly the grammar.
-/

namespace Raspberries.IrAlarm

open CString

inductive ShellOp
  | get
  | set
  deriving DecidableEq, Repr

namespace ShellOp

def word : ShellOp → List Char
  | .get => "GET".toList
  | .set => "SET".toList

def nargs : ShellOp → Nat
  | .get => 1
  | .set => 2

end ShellOp

/-- The arguments that `shell_getarg` has stored for this command. -/
def ShellCmd.stored : ShellCmd → ShellOp → Option (List (List Char))
  | .get args, .get => args
  | .set args, .set => args
  | _, _ => none

/-- The rows of `g_args`, each filled up with zeros. -/
def storedRows (args : List (List Char)) : List Char :=
  args.flatMap fun arg => arg ++ List.replicate (shellArglen - arg.length) nul

/-- The strings that `str2int` finds in the rows; `behind` is the memory behind the last. -/
def handed (behind : List Char) : List (List Char) → List (List Char)
  | [] => []
  | arg :: args => before nul (storedRows (arg :: args) ++ behind) :: handed behind args

/-- `str2int` takes the strings for numbers, and the first is the id of an object. -/
def accepts (W : Nat) (strs : List (List Char)) : Bool :=
  strs.all (fun s => (str2int W s).isSome) &&
    (strs.head?.bind (str2int W)).any fun id => (irmemGetptr irsmData id).isSome

/-- What `read` gives for a line that is typed in; the newline of the longest comes alone. -/
def lineReads (line : List Char) : List (List Char) :=
  [(line ++ ['\n']).take shellCmdlen, (line ++ ['\n']).drop shellCmdlen].filter (· ≠ [])

/-- `do_shell` comes to the `do_get` (`do_set`) of the command, with these strings. -/
def Performs (W : Nat) (behind : List Char) (op : ShellOp) (line : List Char)
    (strs : List (List Char)) : Prop :=
  ∃ cmd ∈ doShell (lineReads line), ∃ args, cmd.stored op = some args ∧
    strs = handed behind args ∧ accepts W strs = true

/-- The line is the command with these words for arguments. -/
structure InGrammar (W : Nat) (op : ShellOp) (line : List Char) (args : List (List Char)) :
    Prop where
  words : ∃ w, words ' ' line = w :: args ∧ w.map Char.toLower = op.word.map Char.toLower
  count : args.length = op.nargs
  accepted : accepts W args = true

def Short (args : List (List Char)) : Prop := ∀ arg ∈ args, arg.length < shellArglen

/-- The shell obeys the line exactly as the grammar says: what it performs is a command with
these arguments, handed over whole, and every such command is performed. -/
structure ExactOn (W : Nat) (behind : List Char) (op : ShellOp) (line : List Char) : Prop where
  performed : ∀ strs, Performs W behind op line strs → InGrammar W op line strs ∧ Short strs
  obeyed : ∀ args, InGrammar W op line args → Short args → Performs W behind op line args

/-! ### The tokens -/

theorem getargs_succ (n : Nat) (s : List Char) :
    getargs (n + 1) s =
      if (words ' ' s).length = n + 1 then some ((words ' ' s).map (·.take shellArglen))
      else none := by
  induction n generalizing s with
  | zero =>
    rw [getargs, words_eq]
    cases strtok ' ' s with
    | none => rfl
    | some r =>
      obtain ⟨arg, rest⟩ := r
      cases hnext : strtok ' ' rest with
      | none => simp [hnext, strtok_eq_none_iff.mp hnext]
      | some r' =>
        have hne : words ' ' rest ≠ [] := by
          rw [Ne, ← strtok_eq_none_iff, hnext]
          exact Option.some_ne_none _
        simp [hnext, hne]
  | succ n ih =>
    rw [getargs, words_eq]
    cases strtok ' ' s with
    | none => rfl
    | some r =>
      obtain ⟨arg, rest⟩ := r
      simp only [Nat.add_one_ne_zero, if_false, Option.map_some, Option.getD_some, ih rest,
        List.length_cons, List.map_cons]
      by_cases hlen : (words ' ' rest).length = n + 1
      · simp [hlen]
      · simp [hlen]

/-- `shell_getarg` leaves the first word out and wants as many others as it was told. -/
theorem shellGetarg_eq_some_iff (op : ShellOp) {buf : List Char} {strs : List (List Char)} :
    shellGetarg buf op.nargs = some strs ↔
      ∃ w args, words ' ' buf = w :: args ∧ args.length = op.nargs ∧
        strs = args.map (·.take shellArglen) := by
  obtain ⟨n, hn⟩ : ∃ n, op.nargs = n + 1 := by
    cases op
    · exact ⟨0, rfl⟩
    · exact ⟨1, rfl⟩
  rw [hn, shellGetarg, words_eq]
  cases strtok ' ' buf with
  | none => simp
  | some r =>
    obtain ⟨w, rest⟩ := r
    simp only [getargs_succ, Option.ite_none_right_eq_some, Option.some.injEq, Option.map_some,
      Option.getD_some, List.cons.injEq]
    refine ⟨?_, ?_⟩
    · intro h
      exact ⟨w, _, ⟨rfl, rfl⟩, h.1, h.2.symm⟩
    · intro hex
      obtain ⟨_, _, ⟨-, rfl⟩, hlen, rfl⟩ := hex
      exact ⟨hlen, rfl⟩

/-! ### The command word -/

/-- The word begins with the command word, in upper or lower case. -/
def Begins (op : ShellOp) (w : List Char) : Prop :=
  op.word.map Char.toLower <+: w.map Char.toLower

instance (op : ShellOp) (w : List Char) : Decidable (Begins op w) :=
  inferInstanceAs (Decidable (op.word.map Char.toLower <+: w.map Char.toLower))

theorem begins_unique {op op' : ShellOp} {buf : List Char} (h : Begins op buf)
    (h' : Begins op' buf) : op = op' := by
  cases buf with
  | nil => cases op <;> exact absurd (List.prefix_nil.mp h) (by decide)
  | cons c buf =>
    cases op <;> cases op'
    · rfl
    · have hg := (List.cons_prefix_cons.mp h).1
      have hs := (List.cons_prefix_cons.mp h').1
      exact absurd (hg.trans hs.symm) (by decide)
    · have hg := (List.cons_prefix_cons.mp h').1
      have hs := (List.cons_prefix_cons.mp h).1
      exact absurd (hg.trans hs.symm) (by decide)
    · rfl

theorem stored_shellCmd {op : ShellOp} {buf : List Char} {strs : List (List Char)} :
    (shellCmd buf).stored op = some strs ↔
      Begins op buf ∧ shellGetarg buf op.nargs = some strs := by
  have hget : strcasestr buf "GET".toList = some 0 ↔ Begins .get buf := strcasestr_eq_zero
  have hset : strcasestr buf "SET".toList = some 0 ↔ Begins .set buf := strcasestr_eq_zero
  rw [shellCmd]
  simp only [hget, hset]
  by_cases hisGet : Begins .get buf
  · rw [if_pos hisGet]
    cases op with
    | get => simp [ShellCmd.stored, hisGet, ShellOp.nargs]
    | set =>
      have hnot : ¬ Begins .set buf := fun h => by cases begins_unique hisGet h
      simp [ShellCmd.stored, hnot]
  · rw [if_neg hisGet]
    by_cases hisSet : Begins .set buf
    · rw [if_pos hisSet]
      cases op with
      | get => simp [ShellCmd.stored, hisGet]
      | set => simp [ShellCmd.stored, hisSet, ShellOp.nargs]
    · rw [if_neg hisSet]
      have hnot : ¬ Begins op buf := by
        cases op
        · exact hisGet
        · exact hisSet
      refine iff_of_false ?_ fun h => hnot h.1
      intro h
      split at h
      · cases op <;> cases h
      · split at h
        · cases op <;> cases h
        · cases op <;> cases h

/-- A line begins with the command word if its first word does and no blank comes before. -/
theorem begins_iff (op : ShellOp) {buf w : List Char} {args : List (List Char)}
    (hwords : words ' ' buf = w :: args) :
    Begins op buf ↔ buf.head? ≠ some ' ' ∧ Begins op w := by
  cases buf with
  | nil =>
    rw [words_nil] at hwords
    cases hwords
  | cons x buf =>
    by_cases hx : x = ' '
    · subst hx
      refine iff_of_false ?_ fun h => h.1 rfl
      intro h
      cases op
      · exact absurd (List.cons_prefix_cons.mp h).1 (by decide)
      · exact absurd (List.cons_prefix_cons.mp h).1 (by decide)
    · have hw : w = before ' ' (x :: buf) := by
        rw [words_of_head hx] at hwords
        exact (List.cons.inj hwords).1.symm
      have hhead : (x :: buf).head? ≠ some ' ' := by simpa using hx
      have hnone : Char.toLower ' ' ∉ op.word.map Char.toLower := by cases op <;> decide
      rw [hw, Begins, Begins, prefix_map_before hnone, and_iff_right hhead]

/-! ### One line -/

theorem mem_doShell_lineReads {line : List Char} (hline : '\n' ∉ line)
    (hlen : line.length ≤ shellCmdlen) {cmd : ShellCmd} (hcmd : cmd ≠ .unknown) :
    cmd ∈ doShell (lineReads line) ↔ cmd = shellCmd (before nul line) := by
  have hchomp : chomp line = line := by
    rw [chomp, if_neg]
    intro hlast
    exact hline (List.mem_of_getLast? hlast)
  have hnewline : chomp (line ++ ['\n']) = line := by
    rw [chomp, List.getLast?_concat, if_pos rfl, List.dropLast_concat]
  have hne : ∀ chunk ∈ lineReads line, chunk ≠ [] := by
    intro chunk hc
    exact of_decide_eq_true (List.mem_filter.mp hc).2
  rw [doShell_eq_map hne, lineReads]
  by_cases hshort : line.length < shellCmdlen
  · have hall : (line ++ ['\n']).length ≤ shellCmdlen := by
      rw [List.length_append, List.length_singleton]
      omega
    rw [List.take_of_length_le hall, List.drop_of_length_le hall]
    simp [hnewline]
  · have hfull : line.length = shellCmdlen := by omega
    have hnonempty : line ≠ [] := by
      rintro rfl
      exact absurd hfull (by decide)
    rw [← hfull, List.take_left, List.drop_left]
    have halone : shellCmd (before nul (chomp ['\n'])) = .unknown := by decide
    simp [hnonempty, hchomp, halone, hcmd]

theorem stored_ne_unknown {cmd : ShellCmd} {op : ShellOp} {args : List (List Char)}
    (h : cmd.stored op = some args) : cmd ≠ .unknown := by
  rintro rfl
  cases op <;> cases h

/-- The code takes the string in the buffer for a command with these words behind. -/
structure Taken (W : Nat) (behind : List Char) (op : ShellOp) (buf : List Char)
    (args : List (List Char)) : Prop where
  words : ∃ w, words ' ' buf = w :: args ∧ Begins op w
  head : buf.head? ≠ some ' '
  count : args.length = op.nargs
  accepted : accepts W (handed behind (args.map (·.take shellArglen))) = true

/-- **What is performed.** -/
theorem performs_iff {W : Nat} {behind line : List Char} {op : ShellOp}
    {strs : List (List Char)} (hline : '\n' ∉ line) (hlen : line.length ≤ shellCmdlen) :
    Performs W behind op line strs ↔
      ∃ args, Taken W behind op (before nul line) args ∧
        strs = handed behind (args.map (·.take shellArglen)) := by
  refine ⟨?_, ?_⟩
  · intro h
    obtain ⟨cmd, hmem, stored, hstored, rfl, haccepts⟩ := h
    rw [mem_doShell_lineReads hline hlen (stored_ne_unknown hstored)] at hmem
    subst hmem
    obtain ⟨hbegins, hargs⟩ := stored_shellCmd.mp hstored
    obtain ⟨w, args, hwords, hcount, rfl⟩ := (shellGetarg_eq_some_iff op).mp hargs
    obtain ⟨hhead, hw⟩ := (begins_iff op hwords).mp hbegins
    exact ⟨args, ⟨⟨w, hwords, hw⟩, hhead, hcount, haccepts⟩, rfl⟩
  · intro h
    obtain ⟨args, htaken, rfl⟩ := h
    obtain ⟨w, hwords, hw⟩ := htaken.words
    have hstored : (shellCmd (before nul line)).stored op =
        some (args.map (·.take shellArglen)) :=
      stored_shellCmd.mpr ⟨(begins_iff op hwords).mpr ⟨htaken.head, hw⟩,
        (shellGetarg_eq_some_iff op).mpr ⟨w, args, hwords, htaken.count, rfl⟩⟩
    exact ⟨_, (mem_doShell_lineReads hline hlen (stored_ne_unknown hstored)).mpr rfl, _, hstored,
      rfl, htaken.accepted⟩

/-! ### What is handed over -/

theorem handed_short (behind : List Char) {args : List (List Char)} (hshort : Short args)
    (hnul : ∀ arg ∈ args, nul ∉ arg) :
    handed behind (args.map (·.take shellArglen)) = args := by
  induction args with
  | nil => rfl
  | cons arg args ih =>
    have harg : arg.length < shellArglen := hshort arg List.mem_cons_self
    have htake : arg.take shellArglen = arg := List.take_of_length_le (by omega)
    have hrest := ih (fun a ha => hshort a (List.mem_cons_of_mem _ ha))
      fun a ha => hnul a (List.mem_cons_of_mem _ ha)
    -- the row has a zero behind the word
    obtain ⟨n, hn⟩ : ∃ n, shellArglen - arg.length = n + 1 :=
      ⟨shellArglen - arg.length - 1, by omega⟩
    rw [List.map_cons, htake, handed, hrest, storedRows, List.flatMap_cons, hn,
      List.replicate_succ, List.append_assoc, List.append_assoc, List.cons_append,
      (before_append (hnul arg List.mem_cons_self) _).mpr (.inr rfl)]

theorem nul_notMem_handed {behind : List Char} {args : List (List Char)} :
    ∀ s ∈ handed behind args, nul ∉ s := by
  induction args with
  | nil => simp [handed]
  | cons arg args ih =>
    intro s hs
    cases List.mem_cons.mp hs with
    | inl hfirst => exact hfirst ▸ notMem_before nul _
    | inr hrest => exact ih s hrest

theorem nul_mem_iff {line : List Char} : nul ∈ line ↔ ∃ w ∈ words ' ' line, nul ∈ w := by
  rw [← List.mem_flatten, flatten_words, List.mem_filter]
  exact (and_iff_left (by decide)).symm

/-! ### Where the shell obeys the grammar -/

/-- For a line without a zero.  Wherever there are as many words as the command wants and
the first begins with it: if the arguments fit and are accepted, a blank comes before
exactly if the first word is longer than the command; if one does not fit and what is
handed over is accepted, a blank comes before. -/
def RightCommand (W : Nat) (behind : List Char) (op : ShellOp) (line : List Char) : Prop :=
  ∀ w args, words ' ' line = w :: args → Begins op w → args.length = op.nargs →
    (Short args → accepts W args = true →
      (line.head? = some ' ' ↔ op.word.length < w.length)) ∧
    (¬ Short args → accepts W (handed behind (args.map (·.take shellArglen))) = true →
      line.head? = some ' ')

/-- For a line with a zero: neither what comes before it nor the whole is a command. -/
def NoCommand (W : Nat) (behind : List Char) (op : ShellOp) (line : List Char) : Prop :=
  (∀ args, ¬ Taken W behind op (before nul line) args) ∧
    ∀ args, InGrammar W op line args → ¬ Short args

theorem begins_cases {op : ShellOp} {w : List Char} (h : Begins op w) :
    (w.map Char.toLower = op.word.map Char.toLower ∧ ¬ op.word.length < w.length) ∨
      (w.map Char.toLower ≠ op.word.map Char.toLower ∧ op.word.length < w.length) := by
  have hle := h.length_le
  rw [List.length_map, List.length_map] at hle
  by_cases hlt : op.word.length < w.length
  · refine .inr ⟨?_, hlt⟩
    intro heq
    have hlen := congrArg List.length heq
    rw [List.length_map, List.length_map] at hlen
    omega
  · refine .inl ⟨(h.eq_of_length ?_).symm, hlt⟩
    rw [List.length_map, List.length_map]
    omega

theorem InGrammar.begins {W : Nat} {op : ShellOp} {line : List Char} {args : List (List Char)}
    (h : InGrammar W op line args) : ∃ w, CString.words ' ' line = w :: args ∧ Begins op w ∧
      ¬ op.word.length < w.length := by
  obtain ⟨w, hwords, hw⟩ := h.words
  have hlen := congrArg List.length hw
  rw [List.length_map, List.length_map] at hlen
  have hbegins : Begins op w := ⟨[], by rw [List.append_nil, hw]⟩
  exact ⟨w, hwords, hbegins, by omega⟩

section Exact

variable {W : Nat} {behind line : List Char} {op : ShellOp}

theorem nul_notMem_words {w : List Char} {args : List (List Char)} (hnul : nul ∉ line)
    (hwords : words ' ' line = w :: args) : ∀ arg ∈ args, nul ∉ arg := by
  intro arg harg hmem
  refine hnul (nul_mem_iff.mpr ⟨arg, ?_, hmem⟩)
  rw [hwords]
  exact List.mem_cons_of_mem w harg

/-- What is performed, where no zero cuts the line. -/
theorem performs_iff_whole {strs : List (List Char)} (hline : '\n' ∉ line)
    (hlen : line.length ≤ shellCmdlen) (hnul : nul ∉ line) :
    Performs W behind op line strs ↔
      ∃ args, Taken W behind op line args ∧
        strs = handed behind (args.map (·.take shellArglen)) := by
  rw [performs_iff hline hlen, before_eq_self hnul]

/-- A line of the grammar is performed, so it has no blank before; a longer word would be
performed without one. -/
theorem blank_iff_of_exact {w : List Char} {args : List (List Char)} (hline : '\n' ∉ line)
    (hlen : line.length ≤ shellCmdlen) (hnul : nul ∉ line) (hexact : ExactOn W behind op line)
    (hwords : words ' ' line = w :: args) (hbegins : Begins op w)
    (hcount : args.length = op.nargs) (hshort : Short args) (haccepts : accepts W args = true) :
    line.head? = some ' ' ↔ op.word.length < w.length := by
  have hhanded := handed_short behind hshort (nul_notMem_words hnul hwords)
  refine ⟨?_, ?_⟩
  · intro hblank
    cases begins_cases hbegins with
    | inl hword =>
      have hgrammar : InGrammar W op line args := ⟨⟨w, hwords, hword.1⟩, hcount, haccepts⟩
      obtain ⟨args', htaken, -⟩ :=
        (performs_iff_whole hline hlen hnul).mp (hexact.obeyed args hgrammar hshort)
      exact absurd hblank htaken.head
    | inr hlonger => exact hlonger.2
  · intro hlong
    by_contra hhead
    have htaken : Taken W behind op line args :=
      ⟨⟨w, hwords, hbegins⟩, hhead, hcount, hhanded.symm ▸ haccepts⟩
    have hperforms := (performs_iff_whole hline hlen hnul).mpr ⟨args, htaken, hhanded.symm⟩
    obtain ⟨w', hwords', -, hnot⟩ := (hexact.performed args hperforms).1.begins
    obtain ⟨rfl, -⟩ := List.cons.inj (hwords.symm.trans hwords')
    exact hnot hlong

theorem blank_of_exact {w : List Char} {args : List (List Char)} (hline : '\n' ∉ line)
    (hlen : line.length ≤ shellCmdlen) (hnul : nul ∉ line) (hexact : ExactOn W behind op line)
    (hwords : words ' ' line = w :: args) (hbegins : Begins op w)
    (hcount : args.length = op.nargs) (hlong : ¬ Short args)
    (haccepts : accepts W (handed behind (args.map (·.take shellArglen))) = true) :
    line.head? = some ' ' := by
  by_contra hhead
  have htaken : Taken W behind op line args :=
    ⟨⟨w, hwords, hbegins⟩, hhead, hcount, haccepts⟩
  have hperforms := (performs_iff_whole hline hlen hnul).mpr ⟨args, htaken, rfl⟩
  obtain ⟨hgrammar, hshort⟩ := hexact.performed _ hperforms
  obtain ⟨w', hwords', -⟩ := hgrammar.words
  obtain ⟨-, hargs⟩ := List.cons.inj (hwords.symm.trans hwords')
  exact hlong (hargs ▸ hshort)

theorem exactOn_of_right (hline : '\n' ∉ line) (hlen : line.length ≤ shellCmdlen)
    (hnul : nul ∉ line) (hright : RightCommand W behind op line) : ExactOn W behind op line := by
  refine ⟨?_, ?_⟩
  · intro strs hperforms
    obtain ⟨args, htaken, rfl⟩ := (performs_iff_whole hline hlen hnul).mp hperforms
    obtain ⟨w, hwords, hbegins⟩ := htaken.words
    obtain ⟨hfit, hlong⟩ := hright w args hwords hbegins htaken.count
    by_cases hshort : Short args
    · have hhanded := handed_short behind hshort (nul_notMem_words hnul hwords)
      have haccepts : accepts W args = true := hhanded ▸ htaken.accepted
      rw [hhanded]
      cases begins_cases hbegins with
      | inl hword => exact ⟨⟨⟨w, hwords, hword.1⟩, htaken.count, haccepts⟩, hshort⟩
      | inr hlonger => exact absurd ((hfit hshort haccepts).mpr hlonger.2) htaken.head
    · exact absurd (hlong hshort htaken.accepted) htaken.head
  · intro args hgrammar hshort
    obtain ⟨w, hwords, hbegins, hnot⟩ := hgrammar.begins
    have hhanded := handed_short behind hshort (nul_notMem_words hnul hwords)
    have hblank := (hright w args hwords hbegins hgrammar.count).1 hshort hgrammar.accepted
    have hhead : line.head? ≠ some ' ' := fun h => hnot (hblank.mp h)
    have htaken : Taken W behind op line args :=
      ⟨⟨w, hwords, hbegins⟩, hhead, hgrammar.count, hhanded.symm ▸ hgrammar.accepted⟩
    exact (performs_iff_whole hline hlen hnul).mpr ⟨args, htaken, hhanded.symm⟩

theorem exactOn_iff_right (hline : '\n' ∉ line) (hlen : line.length ≤ shellCmdlen)
    (hnul : nul ∉ line) : ExactOn W behind op line ↔ RightCommand W behind op line := by
  refine ⟨?_, exactOn_of_right hline hlen hnul⟩
  intro hexact w args hwords hbegins hcount
  refine ⟨?_, ?_⟩
  · intro hshort haccepts
    exact blank_iff_of_exact hline hlen hnul hexact hwords hbegins hcount hshort haccepts
  · intro hlong haccepts
    exact blank_of_exact hline hlen hnul hexact hwords hbegins hcount hlong haccepts

theorem exactOn_iff_none (hline : '\n' ∉ line) (hlen : line.length ≤ shellCmdlen)
    (hnul : nul ∈ line) : ExactOn W behind op line ↔ NoCommand W behind op line := by
  -- what is performed has no zero, and so is not all of the line
  have hnone : ExactOn W behind op line →
      ∀ args, ¬ Taken W behind op (before nul line) args := by
    intro hexact args htaken
    have hperforms := (performs_iff hline hlen).mpr ⟨args, htaken, rfl⟩
    obtain ⟨⟨⟨w, hwords, hw⟩, -, -⟩, -⟩ := hexact.performed _ hperforms
    obtain ⟨x, hx, hmem⟩ := nul_mem_iff.mp hnul
    rw [hwords] at hx
    cases List.mem_cons.mp hx with
    | inl hfirst =>
      have hlower : Char.toLower nul ∈ op.word.map Char.toLower :=
        hw ▸ List.mem_map_of_mem (hfirst ▸ hmem)
      cases op <;> exact absurd hlower (by decide)
    | inr hrest => exact nul_notMem_handed x hrest hmem
  refine ⟨?_, ?_⟩
  · intro hexact
    refine ⟨hnone hexact, ?_⟩
    intro args hgrammar hshort
    obtain ⟨args', htaken, -⟩ :=
      (performs_iff hline hlen).mp (hexact.obeyed args hgrammar hshort)
    exact hnone hexact args' htaken
  · intro hno
    refine ⟨?_, ?_⟩
    · intro strs hperforms
      obtain ⟨args, htaken, -⟩ := (performs_iff hline hlen).mp hperforms
      exact absurd htaken (hno.1 args)
    · intro args hgrammar hshort
      exact absurd hshort (hno.2 args hgrammar)

/-- **When the shell obeys the grammar.**  For every line that fits: exactly if, for both
commands, it is right about the blank before and the length of the words where there is no
zero in the line, and neither the part before a zero nor the whole is a command. -/
theorem shell_exact_iff (W : Nat) (behind : List Char) (hline : '\n' ∉ line)
    (hlen : line.length ≤ shellCmdlen) :
    (∀ op, ExactOn W behind op line) ↔
      ∀ op, (nul ∉ line → RightCommand W behind op line) ∧
        (nul ∈ line → NoCommand W behind op line) := by
  refine forall_congr' fun op => ?_
  by_cases hnul : nul ∈ line
  · rw [exactOn_iff_none hline hlen hnul]
    simp [hnul]
  · rw [exactOn_iff_right hline hlen hnul]
    simp [hnul]

end Exact

theorem words_two {w arg : List Char} (hw : w ≠ []) (hblank : ' ' ∉ w) (harg : arg ≠ [])
    (hblank' : ' ' ∉ arg) : words ' ' (w ++ ' ' :: arg) = [w, arg] := by
  rw [words_word_append hw hblank, words_singleton harg hblank']

/-- A command in lower case is obeyed. -/
theorem shell_exact_get :
    ExactOn 32 [] .get "get 5".toList ∧ ExactOn 32 [] .set "get 5".toList := by
  have hwords : words ' ' "get 5".toList = ["get".toList, "5".toList] :=
    @words_two "get".toList "5".toList (by decide) (by decide) (by decide) (by decide)
  have hexact : ∀ op, ExactOn 32 [] op "get 5".toList := by
    refine (shell_exact_iff 32 [] (by decide) (by decide)).mpr fun op => ⟨fun _ => ?_, fun h => ?_⟩
    · intro w args hsplit hbegins hcount
      rw [hwords] at hsplit
      obtain ⟨rfl, rfl⟩ := List.cons.inj hsplit
      cases op with
      | get =>
        refine ⟨fun _ _ => by decide, fun hlong => absurd ?_ hlong⟩
        intro arg harg
        rw [List.mem_singleton.mp harg]
        decide
      | set => exact absurd hcount (by decide)
    · exact absurd h (by decide)
  exact ⟨hexact .get, hexact .set⟩

/-- `GETX` is no command, and yet the line is obeyed. -/
theorem getx_obeyed :
    ¬ ∀ line : List Char, '\n' ∉ line → line.length ≤ shellCmdlen →
      ∀ op, ExactOn 32 [] op line := by
  intro h
  have hexact := h "GETX 5".toList (by decide) (by decide) .get
  rw [exactOn_iff_right (by decide) (by decide) (by decide)] at hexact
  have hwords : words ' ' "GETX 5".toList = ["GETX".toList, "5".toList] :=
    @words_two "GETX".toList "5".toList (by decide) (by decide) (by decide) (by decide)
  have hshort : Short ["5".toList] := by
    intro arg harg
    rw [List.mem_singleton.mp harg]
    decide
  have hblank := ((hexact _ _ hwords (by decide) rfl).1 hshort (by decide)).mpr (by decide)
  exact absurd hblank (by decide)

end Raspberries.IrAlarm
