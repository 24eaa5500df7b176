import Raspberries.IrAlarm.HelpText

/-!
# Which command a message reaches

`__parse_command` takes the first entry of the table whose word the message begins with,
in any case, and only then come the built-in words.  So the whole word of an entry
reaches another action where an earlier entry has a shorter word for its beginning
(`status_reaches_stat`).

`dispatch_iff` is the exact law: the text of an entry reaches the entry's own action
exactly if the first entry that takes it has the same id, and a built-in word gets its
answer exactly if the table leaves it alone.  The answer to `help` has a line for every
entry, as long as `__sprint_commands` has the room to write them.
-/

namespace Raspberries.IrAlarm

open CString

def SameText (msg word : List Char) : Prop := msg.map Char.toLower = word.map Char.toLower

/-- The message begins with the word of the entry, when case is ignored. -/
def IrxmppCb.takes (msg : List Char) (cb : IrxmppCb) : Bool :=
  (cb.cmd.map Char.toLower).isPrefixOf (msg.map Char.toLower)

/-- The words the message handler knows itself. -/
inductive Builtin
  | ping
  | version
  | help
  deriving DecidableEq, Repr

def Builtin.word : Builtin → List Char
  | .ping => "ping".toList
  | .version => "version".toList
  | .help => "help".toList

/-- The help has a line for every command of the table. -/
def Builtin.reply (app : AppInfo) (bufsiz : Nat) (cbs : List IrxmppCb) (trustedJid : List Char) :
    Builtin → List XmppAction
  | .ping => [sendmsgTrusted trustedJid "PONG!".toList]
  | .version => [sendmsgTrusted trustedJid ((versionText app).take (bufsiz - 1))]
  | .help => [sendmsgTrusted trustedJid helpText,
      sendmsgTrusted trustedJid (helpLines cbs)]

/-- A table of commands as it is advertised. -/
structure Advertised (cbs : List IrxmppCb) : Prop where
  ne_nil : ∀ cb ∈ cbs, cb.cmd ≠ []
  different : cbs.Pairwise fun a b => ¬ SameText a.cmd b.cmd
  notBuiltin : ∀ cb ∈ cbs, ∀ b : Builtin, ¬ SameText cb.cmd b.word

/-! ### The table -/

theorem takes_iff {msg : List Char} {cb : IrxmppCb} :
    cb.takes msg = true ↔ strcasestr msg cb.cmd = some 0 := by
  rw [IrxmppCb.takes, List.isPrefixOf_iff_prefix, strcasestr_eq_zero]

/-- The first entry that takes the message decides. -/
theorem parseCommand_eq (cbs : List IrxmppCb) (msg : List Char) :
    parseCommand cbs msg = ((cbs.find? (IrxmppCb.takes msg)).map (·.id)).getD errUnkwncmd := by
  induction cbs with
  | nil => rfl
  | cons cb cbs ih =>
    rw [parseCommand, List.find?_cons]
    by_cases htakes : cb.takes msg = true
    · rw [if_pos (takes_iff.mp htakes), htakes]
      rfl
    · rw [if_neg (fun h => htakes (takes_iff.mpr h)), Bool.eq_false_iff.mpr htakes, ih]

theorem takes_congr {msg word : List Char} (h : SameText msg word) :
    IrxmppCb.takes msg = IrxmppCb.takes word := by
  funext cb
  rw [IrxmppCb.takes, IrxmppCb.takes, h]

theorem parseCommand_eq_err_iff {cbs : List IrxmppCb} {msg : List Char} :
    parseCommand cbs msg = errUnkwncmd ↔
      ∀ first, cbs.find? (IrxmppCb.takes msg) = some first → first.id = errUnkwncmd := by
  rw [parseCommand_eq]
  cases cbs.find? (IrxmppCb.takes msg) with
  | none => simp
  | some first => simp

/-! ### The handler -/

section Handler

variable (app : AppInfo) (bufsiz : Nat) (cbs : List IrxmppCb) {trustedJid sender : List Char}

theorem messageHandler_text (hsender : trustedJid <+: sender) (msg : List Char)
    {stanza : Stanza} (hfrom : stanza.fromAttr = some sender)
    (hbody : stanza.body = some (some msg)) :
    messageHandler app bufsiz cbs trustedJid stanza = answer app bufsiz cbs trustedJid msg := by
  have hfound : ¬ strstr sender trustedJid ≠ some 0 := not_not.mpr (strstr_eq_zero.mpr hsender)
  rw [messageHandler, hfrom, hbody]
  exact if_neg hfound

variable {cbs}

theorem answer_eq_cmdCb_iff {msg : List Char} {id : Int} :
    answer app bufsiz cbs trustedJid msg = [.cmdCb id] ↔
      parseCommand cbs msg = id ∧ id ≠ errUnkwncmd := by
  rw [answer]
  by_cases hcmd : parseCommand cbs msg ≠ errUnkwncmd
  · rw [if_pos hcmd]
    refine ⟨?_, ?_⟩
    · intro h
      cases h
      exact ⟨rfl, hcmd⟩
    · intro h
      rw [h.1]
  · rw [if_neg hcmd]
    have hnone : ¬ (parseCommand cbs msg = id ∧ id ≠ errUnkwncmd) := by
      intro h
      rw [h.1] at hcmd
      exact hcmd h.2
    refine iff_of_false ?_ hnone
    -- everything below the table sends messages
    intro h
    split at h
    · cases h
    · split at h
      · cases h
      · split at h
        · cases h
        · cases h

theorem builtin_begins {b c : Builtin} {msg : List Char} (h : SameText msg b.word) :
    strcasestr msg c.word = some 0 ↔ c = b := by
  rw [strcasestr_eq_zero, h]
  cases b <;> cases c <;> decide

theorem answer_builtin {b : Builtin} {msg : List Char} (h : SameText msg b.word)
    (hfits : b = .help → HelpFits bufsiz cbs) (hcmd : parseCommand cbs msg = errUnkwncmd) :
    answer app bufsiz cbs trustedJid msg = b.reply app bufsiz cbs trustedJid := by
  have hping : strcasestr msg "ping".toList = some 0 ↔ Builtin.ping = b :=
    @builtin_begins b .ping msg h
  have hversion : strcasestr msg "version".toList = some 0 ↔ Builtin.version = b :=
    @builtin_begins b .version msg h
  have hhelp : strcasestr msg "help".toList = some 0 ↔ Builtin.help = b :=
    @builtin_begins b .help msg h
  rw [answer, if_neg (not_not.mpr hcmd)]
  simp only [hping, hversion, hhelp]
  cases b with
  | ping | version => rfl
  | help =>
    rw [Builtin.reply, ← (hfits rfl).2]
    rfl

theorem answer_eq_reply_iff {b : Builtin} {msg : List Char} (h : SameText msg b.word)
    (hfits : b = .help → HelpFits bufsiz cbs) :
    answer app bufsiz cbs trustedJid msg = b.reply app bufsiz cbs trustedJid ↔
      parseCommand cbs msg = errUnkwncmd := by
  refine ⟨?_, ?_⟩
  · intro hreply
    by_contra hcmd
    rw [answer, if_pos hcmd] at hreply
    cases b <;> cases hreply
  · exact answer_builtin app bufsiz h hfits

variable (cbs)

/-- **Which command a message reaches.**  For every table and every sender that the handler
accepts, a text that is the word of an entry in any case makes it call `cmd_cb` once with
the id of that entry, and do nothing else, exactly if the first entry whose word begins
the word has this id too and the id is not the one for unknown commands.  A built-in word
gets its answer exactly if the first entry that begins it, if any, has that id; for `help`
this is about the tables whose lines `__sprint_commands` has room for. -/
theorem dispatch_iff (hsender : trustedJid <+: sender) {stanza : Stanza} {msg : List Char}
    (hfrom : stanza.fromAttr = some sender) (hbody : stanza.body = some (some msg)) :
    (∀ cb ∈ cbs, SameText msg cb.cmd →
      (messageHandler app bufsiz cbs trustedJid stanza = [.cmdCb cb.id] ↔
        ∃ first, cbs.find? (IrxmppCb.takes cb.cmd) = some first ∧ first.id = cb.id ∧
          cb.id ≠ errUnkwncmd)) ∧
    ∀ b : Builtin, SameText msg b.word → (b = .help → HelpFits bufsiz cbs) →
      (messageHandler app bufsiz cbs trustedJid stanza = b.reply app bufsiz cbs trustedJid ↔
        ∀ first, cbs.find? (IrxmppCb.takes b.word) = some first → first.id = errUnkwncmd) := by
  rw [messageHandler_text app bufsiz cbs hsender msg hfrom hbody]
  refine ⟨?_, ?_⟩
  · intro cb hcb hsame
    rw [answer_eq_cmdCb_iff, parseCommand_eq, takes_congr hsame]
    cases hfind : cbs.find? (IrxmppCb.takes cb.cmd) with
    | none =>
      have hself : cb.takes cb.cmd = true := List.isPrefixOf_iff_prefix.mpr (List.prefix_refl _)
      exact absurd hself (List.find?_eq_none.mp hfind cb hcb)
    | some first => simp
  · intro b hsame hfits
    rw [answer_eq_reply_iff app bufsiz hsame hfits, parseCommand_eq_err_iff, takes_congr hsame]

end Handler

/-- The table in use: `Config` reaches its own action. -/
theorem dispatch_config :
    messageHandler ⟨"", "", ""⟩ 8192 irxmppCbargs "a@b".toList
      ⟨some "a@b/x".toList, none, none, some (some "Config".toList), false⟩ =
      [.cmdCb irxmppConfig] :=
  ((dispatch_iff ⟨"", "", ""⟩ 8192 irxmppCbargs (List.prefix_append "a@b".toList "/x".toList)
      rfl rfl).1 ⟨"config".toList, irxmppConfig, "print configuration values".toList⟩
    (by decide) (by unfold SameText; decide)).mpr ⟨_, rfl, rfl, by decide⟩

/-- With `stat` before `status` the whole word `status` reaches `stat`. -/
theorem status_reaches_stat :
    ¬ ∀ (cbs : List IrxmppCb), Advertised cbs → ∀ cb ∈ cbs, ∀ msg, SameText msg cb.cmd →
      messageHandler ⟨"", "", ""⟩ 8192 cbs "a@b".toList
        ⟨some "a@b".toList, none, none, some (some msg), false⟩ = [.cmdCb cb.id] := by
  intro h
  have hadv : Advertised [⟨"stat".toList, 0, []⟩, ⟨"status".toList, 1, []⟩] := by
    refine ⟨?_, ?_, ?_⟩
    · decide
    · unfold SameText
      decide
    · intro cb hcb b
      unfold SameText
      rw [List.mem_cons, List.mem_singleton] at hcb
      obtain rfl | rfl := hcb <;> cases b <;> decide
  have hstatus := h _ hadv ⟨"status".toList, 1, []⟩ (by simp) "status".toList rfl
  exact absurd hstatus (by decide)

end Raspberries.IrAlarm
