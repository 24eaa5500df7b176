import Raspberries.Lib.CString

/-!
# The stanza handlers of `irxmpp.c`

A stanza comes with the attributes and children the handlers ask for.  What a handler
does is a list of actions: calls of `cmd_cb` and messages.  `BUFSIZ` and the three names
the version text is made of are parameters of the functions that depend on them.
-/

namespace Raspberries.IrAlarm

open CString

structure IrxmppCb where
  cmd : List Char
  id : Int
  desc : List Char
  deriving DecidableEq, Repr

def irxmppStatus : Int := 0
def irxmppConfig : Int := 1

def irxmppCbargs : List IrxmppCb :=
  [⟨"status".toList, irxmppStatus, "print alarm information".toList⟩,
    ⟨"config".toList, irxmppConfig, "print configuration values".toList⟩]

def errUnkwncmd : Int := -8

/-- What the handlers read of a stanza.  `body` is the child `body`, with its text where
it has one, and `hasShow` says whether there is a child `show`. -/
structure Stanza where
  fromAttr : Option (List Char)
  toAttr : Option (List Char)
  typeAttr : Option (List Char)
  body : Option (Option (List Char))
  hasShow : Bool
  deriving DecidableEq, Repr

inductive XmppAction
  | cmdCb (id : Int)
  | sendmsg (jid msg : List Char)
  deriving DecidableEq, Repr

def sendmsgTrusted (trustedJid msg : List Char) : XmppAction := .sendmsg trustedJid msg

/-! ### The help text -/

/-- The buffer of `__sprint_commands`: its text and the capacity `sz_max`. -/
structure CmdsBuf where
  text : List Char
  szMax : Nat
  deriving DecidableEq, Repr

/-- The loop that doubles `sz_max` while `need >= sz_max`. -/
def growSzMax (need szMax : Nat) : Nat :=
  if h : 0 < szMax ∧ szMax ≤ need then growSzMax need (szMax * 2) else szMax
termination_by need + 1 - szMax
decreasing_by omega

/-- One entry; `sz_cur` stays `1` in the whole function. -/
def sprintCommand (bufsiz : Nat) (buf : CmdsBuf) (cb : IrxmppCb) : CmdsBuf :=
  let szCur := 1
  let cmd := cb.cmd.take bufsiz
  let desc := cb.desc.take bufsiz
  { text := buf.text ++ cmd ++ " - ".toList ++ desc ++ "\n".toList
    szMax := growSzMax (cmd.length + desc.length + szCur + 4) buf.szMax }

def sprintCommands (bufsiz : Nat) (cbs : List IrxmppCb) : CmdsBuf :=
  cbs.foldl (sprintCommand bufsiz) ⟨"\n".toList, bufsiz⟩

/-! ### The handlers -/

def parseCommand (cbs : List IrxmppCb) (cmd : List Char) : Int :=
  match cbs with
  | [] => errUnkwncmd
  | cb :: cbs => if strcasestr cmd cb.cmd = some 0 then cb.id else parseCommand cbs cmd

/-- `APPNAME`, `AUTHOR` and `EMAIL` of `config.h`. -/
structure AppInfo where
  appname : String
  author : String
  email : String
  deriving DecidableEq, Repr

def versionText (app : AppInfo) : List Char :=
  ("\nSoftware...: " ++ app.appname ++ "\nAuthor.....: " ++ app.author ++
    "\nContact....: " ++ app.email ++ "\n").toList

def helpText : List Char :=
  ("I'm able to understand the following commands:\n" ++ "ping - pong\n" ++
    "version - print version and author").toList

/-- `strstr(type, "unavailable") == type`. -/
def isUnavailable (type : List Char) : Bool := strstr type "unavailable".toList = some 0

section Handlers

variable (app : AppInfo) (bufsiz : Nat) (cbs : List IrxmppCb) (trustedJid : List Char)

def answer (msg : List Char) : List XmppAction :=
  let cbId := parseCommand cbs msg
  if cbId ≠ errUnkwncmd then [.cmdCb cbId]
  else if strcasestr msg "ping".toList = some 0 then
    [sendmsgTrusted trustedJid "PONG!".toList]
  else if strcasestr msg "version".toList = some 0 then
    [sendmsgTrusted trustedJid ((versionText app).take (bufsiz - 1))]
  else if strcasestr msg "help".toList = some 0 then
    [sendmsgTrusted trustedJid helpText,
      sendmsgTrusted trustedJid (sprintCommands bufsiz cbs).text]
  else
    [sendmsgTrusted trustedJid "I don't understand. Type 'help' for more information.".toList]

def messageHandler (stanza : Stanza) : List XmppAction :=
  match stanza.fromAttr, stanza.body with
  | some sender, some text =>
    if strstr sender trustedJid ≠ some 0 then []
    else
      match text with
      | some msg => answer app bufsiz cbs trustedJid msg
      | none => []
  | _, _ => []

def presenceHandler (stanza : Stanza) : List XmppAction :=
  match stanza.fromAttr with
  | none => []
  | some sender =>
    if strstr sender trustedJid ≠ some 0 then []
    else if stanza.typeAttr.any isUnavailable then []
    else if ¬ stanza.hasShow ∧ stanza.toAttr.isSome then
      [sendmsgTrusted trustedJid "Welcome trusted user.".toList]
    else []

end Handlers

end Raspberries.IrAlarm
