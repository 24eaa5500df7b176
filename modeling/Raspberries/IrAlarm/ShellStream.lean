import Mathlib.Data.List.SplitLengths
import Raspberries.IrAlarm.Shell
import Raspberries.Lib.Pieces

/-!
# The input of the shell

`do_shell` takes what one `read` gives for one command.  A terminal gives a line at a
time, a pipe does not: two lines in one `read` are one command, whose arguments may go
over the end of the first (`joined_lines`), and the rest of a line that was cut is a
command of its own.

The buffer is cleared behind every command, so a command depends on its own `read` only
(`doShell_eq_map`), and where each `read` gives one line all is well.  `commands_kept` says
that for a stream of commands this is the only way, and that for every other way of
cutting lines into reads there is a stream of commands it spoils.
-/

namespace Raspberries.IrAlarm

open CString Pieces

/-- What the loop of `do_shell` does with one input. -/
inductive ShellCmd
  | get (args : Option (List (List Char)))
  | set (args : Option (List (List Char)))
  | all
  | help
  | unknown
  deriving DecidableEq, Repr

/-- The branch that is taken for the string in the buffer. -/
def shellCmd (buf : List Char) : ShellCmd :=
  if strcasestr buf "GET".toList = some 0 then .get (shellGetarg buf 1)
  else if strcasestr buf "SET".toList = some 0 then .set (shellGetarg buf 2)
  else if strcasestr buf "SHOW".toList = some 0 then .all
  else if strcasestr buf "HELP".toList = some 0 then .help
  else .unknown

def ShellCmd.run (W : Nat) (rdonly : Bool) (s : CtlScene) : ShellCmd → CtlRun
  | .get (some [arg]) =>
    match str2int W arg with
    | some id =>
      match irmemGetptr irsmData id with
      | some ptr => ⟨s, false, [.shown (doGet irsmData id ptr s.seg)]⟩
      | none => ⟨s, false, []⟩
    | none => ⟨s, false, []⟩
  | .set (some [arg, arg']) =>
    match str2int W arg, str2int W arg' with
    | some id, some value =>
      match irmemGetptr irsmData id with
      | some ptr => s.doSet rdonly id ptr value
      | none => ⟨s, false, []⟩
    | _, _ => ⟨s, false, []⟩
  | .get _ | .set _ => ⟨s, false, []⟩
  | .all =>
    ⟨s, false, (List.range irsmDesc.length).filterMap fun id =>
      (irmemGetptr irsmData id).map fun ptr => .shown (doGet irsmData id ptr s.seg)⟩
  | .help => s.fails "GET, SET, SHOW, HELP\n"
  | .unknown => s.fails "UNKNOWN CMD; TYPE 'HELP' FOR MORE INFORMATION\n"

def nul : Char := Char.ofNat 0

/-- `memset(buf, '\0', SHELL_CMDLEN+1)`, and the static buffer before the first `read`. -/
def clearedBuf : List Char := List.replicate (shellCmdlen + 1) nul

/-- `read(0, buf, SHELL_CMDLEN)`, which gives these characters. -/
def readInto (buf chunk : List Char) : List Char := chunk ++ buf.drop chunk.length

/-- `if (buf[nread-1] == '\n') buf[nread-1] = '\0';` -/
def cutNewline (nread : Nat) (buf : List Char) : List Char :=
  if buf[nread - 1]? = some '\n' then buf.set (nread - 1) nul else buf

/-- The loop of `do_shell`, with what the calls of `read` give until the input ends. -/
def doShellFrom : List Char → List (List Char) → List ShellCmd
  | _, [] => []
  | buf, chunk :: chunks =>
    shellCmd (before nul (cutNewline chunk.length (readInto buf chunk))) ::
      doShellFrom clearedBuf chunks

def doShell (chunks : List (List Char)) : List ShellCmd := doShellFrom clearedBuf chunks

/-- A line with its newline, which fits in one `read`. -/
def IsLine (line : List Char) : Prop :=
  ∃ text, line = text ++ ['\n'] ∧ '\n' ∉ text ∧ text.length < shellCmdlen

/-- What one `read` may give. -/
def IsRead (chunk : List Char) : Prop := chunk ≠ [] ∧ chunk.length ≤ shellCmdlen

/-- The commands are those of the lines, each read alone. -/
def SameCommands (lines chunks : List (List Char)) : Prop :=
  doShell chunks = lines.flatMap fun line => doShell [line]

/-- The words that `do_shell` looks for. -/
def shellWords : List (List Char) :=
  ["GET".toList, "SET".toList, "SHOW".toList, "HELP".toList]

/-- A text that starts with one of them, in upper or lower case. -/
def StartsCmd (s : List Char) : Prop := ∃ w ∈ shellWords, strcasestr s w = some 0

structure IsCommand (line : List Char) : Prop where
  isLine : IsLine line
  starts : StartsCmd line
  once : ∀ u v, line = u ++ v → u ≠ [] → v ≠ [] → ¬ StartsCmd v

/-! ### One turn -/

/-- The string in the buffer is what was read, without its final newline. -/
theorem before_readInto {chunk : List Char} (hne : chunk ≠ []) :
    before nul (cutNewline chunk.length (readInto clearedBuf chunk)) =
      before nul (chomp chunk) := by
  have hzeros : ∀ n, (List.replicate n nul).head? = none ∨
      (List.replicate n nul).head? = some nul := by
    intro n
    cases n with
    | zero => exact Or.inl rfl
    | succ n => exact Or.inr rfl
  have hpos : 0 < chunk.length := List.length_pos_iff.mpr hne
  have hlast : (readInto clearedBuf chunk)[chunk.length - 1]? = chunk.getLast? := by
    rw [readInto, List.getElem?_append_left (by omega), List.getLast?_eq_getElem?]
  rw [cutNewline, hlast, chomp]
  split
  next h =>
    obtain ⟨text, rfl⟩ := List.getLast?_eq_some_iff.mp h
    have hset : (readInto clearedBuf (text ++ ['\n'])).set ((text ++ ['\n']).length - 1) nul =
        text ++ nul :: clearedBuf.drop (text ++ ['\n']).length := by
      simp [readInto]
    rw [hset, List.dropLast_concat]
    exact before_append_end text (Or.inr rfl)
  next h =>
    rw [readInto, clearedBuf, List.drop_replicate]
    exact before_append_end chunk (hzeros _)

/-- **A command depends on its own `read`.** -/
theorem doShell_eq_map {chunks : List (List Char)} (h : ∀ chunk ∈ chunks, chunk ≠ []) :
    doShell chunks = chunks.map fun chunk => shellCmd (before nul (chomp chunk)) := by
  induction chunks with
  | nil => rfl
  | cons chunk chunks ih =>
    have hhead := before_readInto (h chunk List.mem_cons_self)
    have htail : doShellFrom clearedBuf chunks = _ :=
      ih fun c hc => h c (List.mem_cons_of_mem _ hc)
    rw [doShell, doShellFrom, hhead, htail, List.map_cons]

theorem shellCommand_eq_run {W : Nat} (rdonly : Bool) {chunk : List Char} (hnul : nul ∉ chunk)
    (hread : IsRead chunk) (s : CtlScene) :
    doShell [chunk] = [shellCmd (chomp chunk)] ∧
      shellCommand W rdonly chunk s = (shellCmd (chomp chunk)).run W rdonly s := by
  have hsub : chomp chunk ⊆ chunk := by
    rw [chomp]
    split
    · exact List.dropLast_subset _
    · exact List.Subset.refl _
  have hbefore : before nul (chomp chunk) = chomp chunk := before_eq_self fun hc => hnul (hsub hc)
  refine ⟨?_, ?_⟩
  · rw [doShell_eq_map (by simpa using hread.1), List.map_singleton, hbefore]
  · rw [shellCommand, List.take_of_length_le hread.2, shellCmd]
    split
    · cases shellGetarg (chomp chunk) 1 with
      | none => rfl
      | some args => rcases args with _ | ⟨arg, _ | ⟨arg', args⟩⟩ <;> rfl
    · split
      · cases shellGetarg (chomp chunk) 2 with
        | none => rfl
        | some args => rcases args with _ | ⟨arg, _ | ⟨arg', _ | ⟨arg'', args⟩⟩⟩ <;> rfl
      · split
        · rfl
        · split <;> rfl

/-! ### Command words -/

theorem startsCmd_iff {s : List Char} :
    StartsCmd s ↔ ∃ w ∈ shellWords, w.map Char.toLower <+: s.map Char.toLower := by
  simp only [StartsCmd, strcasestr_eq_zero]

/-- Every text without a command word at its start is answered with the same message. -/
theorem shellCmd_eq_unknown {buf : List Char} : shellCmd buf = .unknown ↔ ¬ StartsCmd buf := by
  have hwords : StartsCmd buf ↔ strcasestr buf "GET".toList = some 0 ∨
      strcasestr buf "SET".toList = some 0 ∨ strcasestr buf "SHOW".toList = some 0 ∨
      strcasestr buf "HELP".toList = some 0 := by
    simp [StartsCmd, shellWords]
  rw [hwords, shellCmd]
  split
  next h => exact iff_of_false (by simp) (not_not_intro (Or.inl h))
  next hget =>
    split
    next h => exact iff_of_false (by simp) (not_not_intro (Or.inr (Or.inl h)))
    next hset =>
      split
      next h => exact iff_of_false (by simp) (not_not_intro (Or.inr (Or.inr (Or.inl h))))
      next hshow =>
        split
        next h =>
          exact iff_of_false (by simp) (not_not_intro (Or.inr (Or.inr (Or.inr h))))
        next hhelp =>
          exact iff_of_true rfl
            (not_or.mpr ⟨hget, not_or.mpr ⟨hset, not_or.mpr ⟨hshow, hhelp⟩⟩⟩)

theorem startsCmd_append (s t : List Char) (h : StartsCmd s) : StartsCmd (s ++ t) := by
  obtain ⟨w, hw, hprefix⟩ := startsCmd_iff.mp h
  refine startsCmd_iff.mpr ⟨w, hw, hprefix.trans ?_⟩
  rw [List.map_append]
  exact List.prefix_append _ _

theorem startsCmd_before {c : Char} (hc : ∀ w ∈ shellWords, c.toLower ∉ w.map Char.toLower)
    {s : List Char} : StartsCmd (before c s) ↔ StartsCmd s := by
  rw [startsCmd_iff, startsCmd_iff]
  refine exists_congr fun w => and_congr_right ?_
  intro hw
  exact prefix_map_before (hc w hw)

theorem startsCmd_before_nul {s : List Char} : StartsCmd (before nul s) ↔ StartsCmd s :=
  startsCmd_before (by decide)

theorem startsCmd_before_newline {s : List Char} : StartsCmd (before '\n' s) ↔ StartsCmd s :=
  startsCmd_before (by decide)

theorem before_newline {text : List Char} (h : '\n' ∉ text) (t : List Char) :
    before '\n' (text ++ '\n' :: t) = text :=
  (before_append h ('\n' :: t)).mpr (Or.inr rfl)

theorem startsCmd_chomp {s : List Char} : StartsCmd (chomp s) ↔ StartsCmd s := by
  rw [chomp]
  split
  next h =>
    obtain ⟨text, rfl⟩ := List.getLast?_eq_some_iff.mp h
    rw [List.dropLast_concat, ← @startsCmd_before_newline text,
      ← @startsCmd_before_newline (text ++ ['\n']), before_append_end text (Or.inr rfl)]
  next => exact Iff.rfl

theorem turn_ne_unknown {chunk : List Char} :
    shellCmd (before nul (chomp chunk)) ≠ .unknown ↔ StartsCmd chunk := by
  rw [Ne, shellCmd_eq_unknown, not_not, startsCmd_before_nul, startsCmd_chomp]

/-- Behind the beginning of a command no other starts, whatever is behind its newline. -/
theorem IsCommand.onlyAtFront {line : List Char} (h : IsCommand line) :
    OnlyAtFront StartsCmd line := by
  obtain ⟨text, rfl, hnewline, _⟩ := h.isLine
  intro u v t huv hu hv hstarts
  have hlast : v.getLast? = some '\n' := by
    have heq := congrArg List.getLast? huv
    rw [List.getLast?_concat, List.getLast?_append_of_ne_nil u hv] at heq
    exact heq.symm
  obtain ⟨rest, rfl⟩ := List.getLast?_eq_some_iff.mp hlast
  rw [← List.append_assoc] at huv
  obtain rfl : text = u ++ rest := List.append_cancel_right huv
  have hrest : '\n' ∉ rest := fun hmem => hnewline (List.mem_append_right u hmem)
  have hword : StartsCmd rest := by
    rw [← startsCmd_before_newline, List.append_assoc, List.singleton_append,
      before_newline hrest] at hstarts
    exact hstarts
  exact h.once u (rest ++ ['\n']) (by simp) hu hv (startsCmd_append rest _ hword)

/-! ### Lines and reads -/

theorem IsLine.ne_nil {line : List Char} (h : IsLine line) : line ≠ [] := by
  obtain ⟨text, rfl, _⟩ := h
  simp

theorem sameCommands_self {lines : List (List Char)} (h : ∀ line ∈ lines, line ≠ []) :
    SameCommands lines lines := by
  rw [SameCommands, doShell_eq_map h, List.map_eq_flatMap]
  refine List.flatMap_congr fun line hline => ?_
  rw [doShell_eq_map (by simpa using h line hline), List.map_singleton]

theorem sameCommands_iff {lines chunks : List (List Char)} (hlines : ∀ line ∈ lines, IsCommand line)
    (hchunks : ∀ chunk ∈ chunks, IsRead chunk) (h : chunks.flatten = lines.flatten) :
    SameCommands lines chunks ↔ chunks = lines := by
  have hne : ∀ line ∈ lines, line ≠ [] := fun line hline => (hlines line hline).isLine.ne_nil
  have hself : doShell lines = _ := sameCommands_self hne
  refine ⟨?_, ?_⟩
  · intro hsame
    have hmap : (chunks.map fun chunk => shellCmd (before nul (chomp chunk))) =
        lines.map fun line => shellCmd (before nul (chomp line)) := by
      rw [← doShell_eq_map fun chunk hc => (hchunks chunk hc).1, ← doShell_eq_map hne, hself]
      exact hsame
    have hlen : chunks.length = lines.length := by
      have hlen := congrArg List.length hmap
      rwa [List.length_map, List.length_map] at hlen
    have hstarts : ∀ chunk ∈ chunks, StartsCmd chunk := by
      intro chunk hc
      have hmem : shellCmd (before nul (chomp chunk)) ∈
          lines.map fun line => shellCmd (before nul (chomp line)) :=
        hmap ▸ List.mem_map_of_mem hc
      obtain ⟨line, hline, heq⟩ := List.mem_map.mp hmem
      rw [← turn_ne_unknown, ← heq, turn_ne_unknown]
      exact (hlines line hline).starts
    exact eq_of_starts startsCmd_append (fun line hline => (hlines line hline).onlyAtFront)
      (fun hnil => (hchunks [] hnil).1 rfl) hstarts h hlen
  · rintro rfl
    exact sameCommands_self hne

def getLine (l : Nat) : List Char := "GET".toList ++ (List.replicate (l - 4) 'x' ++ ['\n'])

theorem length_getLine {l : Nat} (h : 4 ≤ l) : (getLine l).length = l := by
  simp [getLine]
  omega

theorem StartsCmd.head {c : Char} {s : List Char} (h : StartsCmd (c :: s)) :
    c.toLower ∈ ['g', 's', 'h'] := by
  obtain ⟨w, hw, hprefix⟩ := startsCmd_iff.mp h
  have hfirst : ∀ w ∈ shellWords, ∃ x ∈ ['g', 's', 'h'], ∃ w', w.map Char.toLower = x :: w' := by
    simp only [shellWords, List.forall_mem_cons, List.not_mem_nil, false_implies, implies_true,
      and_true]
    exact ⟨⟨'g', by decide, _, rfl⟩, ⟨'s', by decide, _, rfl⟩, ⟨'s', by decide, _, rfl⟩,
      ⟨'h', by decide, _, rfl⟩⟩
  obtain ⟨x, hx, w', hw'⟩ := hfirst w hw
  rw [hw', List.map_cons, List.cons_prefix_cons] at hprefix
  exact hprefix.1 ▸ hx

theorem isCommand_getLine {l : Nat} (h : 4 ≤ l) (hl : l ≤ shellCmdlen) :
    IsCommand (getLine l) where
  isLine := by
    refine ⟨"GET".toList ++ List.replicate (l - 4) 'x', by simp [getLine], ?_, ?_⟩
    · simp [List.mem_replicate]
    · simp
      omega
  starts := by
    refine startsCmd_iff.mpr ⟨"GET".toList, by decide, ?_⟩
    rw [getLine, List.map_append]
    exact List.prefix_append _ _
  once := by
    intro u v huv hu hv hstarts
    obtain ⟨a, u, rfl⟩ := List.exists_cons_of_ne_nil hu
    obtain ⟨c, v, rfl⟩ := List.exists_cons_of_ne_nil hv
    have htail : 'E' :: 'T' :: (List.replicate (l - 4) 'x' ++ ['\n']) = u ++ c :: v :=
      (List.cons.inj huv).2
    have hc : c ∈ 'E' :: 'T' :: (List.replicate (l - 4) 'x' ++ ['\n']) := by
      rw [htail]
      exact List.mem_append_right u List.mem_cons_self
    have hcases : c = 'E' ∨ c = 'T' ∨ c = 'x' ∨ c = '\n' := by
      simp only [List.mem_cons, List.mem_append, List.mem_replicate, List.not_mem_nil,
        or_false] at hc
      rcases hc with hc | hc | hc | hc
      · exact Or.inl hc
      · exact Or.inr (Or.inl hc)
      · exact Or.inr (Or.inr (Or.inl hc.2))
      · exact Or.inr (Or.inr (Or.inr hc))
    rcases hcases with rfl | rfl | rfl | rfl
    all_goals exact absurd hstarts.head (by decide)

def getLines (ls : List Nat) : List (List Char) := ls.map getLine

theorem isCommand_getLines {ls : List Nat} (hls : ∀ l ∈ ls, 4 ≤ l ∧ l ≤ shellCmdlen) :
    ∀ line ∈ getLines ls, IsCommand line := by
  intro line hline
  obtain ⟨l, hl, rfl⟩ := List.mem_map.mp hline
  exact isCommand_getLine (hls l hl).1 (hls l hl).2

theorem map_length_getLines {ls : List Nat} (hls : ∀ l ∈ ls, 4 ≤ l) :
    (getLines ls).map List.length = ls := by
  rw [getLines, List.map_map]
  conv_rhs => rw [← List.map_id ls]
  exact List.map_congr_left fun l hl => length_getLine (hls l hl)

theorem IsLine.length_le {line : List Char} (h : IsLine line) : line.length ≤ shellCmdlen := by
  obtain ⟨text, rfl, -, hlen⟩ := h
  rw [List.length_append, List.length_singleton]
  omega

/-- If all streams with these lengths of lines keep their commands when they are cut into
reads of these lengths, every read gives one line. -/
theorem lengths_eq_of_kept {ls cs : List Nat} (hls : ∀ l ∈ ls, 4 ≤ l ∧ l ≤ shellCmdlen)
    (hcs : ∀ c ∈ cs, 1 ≤ c ∧ c ≤ shellCmdlen) (hsum : cs.sum = ls.sum)
    (hkept : ∀ lines chunks : List (List Char), (∀ line ∈ lines, IsLine line) →
      lines.map List.length = ls → chunks.map List.length = cs →
        chunks.flatten = lines.flatten → SameCommands lines chunks) : cs = ls := by
  have hcommands := isCommand_getLines hls
  have hlengths := map_length_getLines fun l hl => (hls l hl).1
  have hlen : (getLines ls).flatten.length = cs.sum := by
    rw [List.length_flatten, hlengths, hsum]
  have hchunks : (cs.splitLengths (getLines ls).flatten).map List.length = cs :=
    List.map_splitLengths_length _ _ (Nat.le_of_eq hlen.symm)
  have hflatten := List.flatten_splitLengths (getLines ls).flatten cs (Nat.le_of_eq hlen)
  have hreads : ∀ chunk ∈ cs.splitLengths (getLines ls).flatten, IsRead chunk := by
    intro chunk hc
    have hmem : chunk.length ∈ cs := hchunks ▸ List.mem_map_of_mem hc
    exact ⟨List.ne_nil_of_length_pos (hcs _ hmem).1, (hcs _ hmem).2⟩
  have hsame := hkept _ _ (fun line hline => (hcommands line hline).isLine) hlengths hchunks
    hflatten
  have heq := (sameCommands_iff hcommands hreads hflatten).mp hsame
  rw [← hchunks, heq, hlengths]

/-- **When the input may arrive like this.**  If each `read` gives one line, the commands
are those of the lines.  For a stream of commands no other way will do; and where all lines
have three characters or more, no other way of cutting will do for all the streams with
lines of these lengths. -/
theorem commands_kept {lines chunks : List (List Char)} (hlines : ∀ line ∈ lines, IsLine line)
    (hchunks : ∀ chunk ∈ chunks, IsRead chunk) (h : chunks.flatten = lines.flatten) :
    (chunks = lines → SameCommands lines chunks) ∧
      ((∀ line ∈ lines, IsCommand line) → (SameCommands lines chunks ↔ chunks = lines)) ∧
      ((∀ line ∈ lines, 4 ≤ line.length) →
        ((∀ lines' chunks' : List (List Char), (∀ line ∈ lines', IsLine line) →
          lines'.map List.length = lines.map List.length →
            chunks'.map List.length = chunks.map List.length →
              chunks'.flatten = lines'.flatten → SameCommands lines' chunks') ↔
          chunks = lines)) := by
  refine ⟨?_, fun hcommands => sameCommands_iff hcommands hchunks h, ?_⟩
  · rintro rfl
    exact sameCommands_self fun line hline => (hlines line hline).ne_nil
  · intro hlong
    refine ⟨?_, ?_⟩
    · intro hkept
      have hls : ∀ l ∈ lines.map List.length, 4 ≤ l ∧ l ≤ shellCmdlen := by
        intro l hl
        obtain ⟨line, hline, rfl⟩ := List.mem_map.mp hl
        exact ⟨hlong line hline, (hlines line hline).length_le⟩
      have hcs : ∀ c ∈ chunks.map List.length, 1 ≤ c ∧ c ≤ shellCmdlen := by
        intro c hc
        obtain ⟨chunk, hchunk, rfl⟩ := List.mem_map.mp hc
        exact ⟨List.length_pos_iff.mpr (hchunks chunk hchunk).1, (hchunks chunk hchunk).2⟩
      have hsum : (chunks.map List.length).sum = (lines.map List.length).sum := by
        rw [← List.length_flatten, ← List.length_flatten, h]
      exact List.eq_iff_flatten_eq.mpr ⟨h, lengths_eq_of_kept hls hcs hsum hkept⟩
    · rintro rfl
      intro lines' chunks' hlines' hlengths hlengths' hflatten
      obtain rfl : chunks' = lines' :=
        List.eq_iff_flatten_eq.mpr ⟨hflatten, hlengths'.trans hlengths.symm⟩
      exact sameCommands_self fun line hline => (hlines' line hline).ne_nil

def helpShow : List (List Char) := ["HELP\n".toList, "SHOW\n".toList]

theorem isLine_helpShow : ∀ line ∈ helpShow, IsLine line := by
  intro line hline
  simp only [helpShow, List.mem_cons, List.not_mem_nil, or_false] at hline
  rcases hline with rfl | rfl
  · exact ⟨"HELP".toList, rfl, by decide, by decide⟩
  · exact ⟨"SHOW".toList, rfl, by decide, by decide⟩

theorem commands_kept_helpShow : SameCommands helpShow helpShow :=
  (commands_kept isLine_helpShow (by
    intro chunk hc
    have hline := isLine_helpShow chunk hc
    exact ⟨hline.ne_nil, hline.length_le⟩) rfl).1 rfl

/-- A pipe may give it at once: then only the help is printed. -/
theorem joined_lines :
    ¬ ∀ lines chunks : List (List Char), (∀ line ∈ lines, IsLine line) →
      (∀ chunk ∈ chunks, IsRead chunk) → chunks.flatten = lines.flatten →
        SameCommands lines chunks := by
  intro h
  have hsame := h helpShow ["HELP\nSHOW\n".toList] isLine_helpShow ?_ rfl
  · exact absurd (congrArg List.length hsame) (by decide)
  · intro chunk hc
    obtain rfl := List.mem_singleton.mp hc
    exact ⟨by decide, by decide⟩

end Raspberries.IrAlarm
