import Raspberries.IrAlarm.IrXmpp

/-!
# Whom the handlers obey

The handlers test `strstr(from, trusted_jid) != from`, which only asks whether `from`
begins with the trusted JID.  A sender whose JID goes on behind it with something else
than a resource is another user, and is obeyed too (`extended_jid_obeyed`).

`only_trusted_iff` says that these senders are all: for every stanza, the handlers obey
the trusted user only, unless the stanza has an effect and its sender extends the
trusted JID in this way.
-/

namespace Raspberries.IrAlarm

open CString

def bareJid (jid : List Char) : List Char := before '/' jid

/-- The JID goes on behind the trusted one, and not with a resource. -/
def Extends (trustedJid sender : List Char) : Prop :=
  ∃ c rest, sender = trustedJid ++ c :: rest ∧ c ≠ '/'

/-- Whatever is done is done for the trusted user. -/
def Obeys (trustedJid : List Char) (stanza : Stanza) (actions : List XmppAction) : Prop :=
  actions ≠ [] → ∃ sender, stanza.fromAttr = some sender ∧ bareJid sender = trustedJid

/-- A message that has an effect for a sender the handler accepts: one with a text. -/
def Stanza.HasText (stanza : Stanza) : Prop := ∃ msg, stanza.body = some (some msg)

/-- A presence that has an effect for a sender the handler accepts. -/
def Stanza.Appears (stanza : Stanza) : Prop :=
  ¬ stanza.typeAttr.any isUnavailable ∧ ¬ stanza.hasShow ∧ stanza.toAttr.isSome

theorem answer_ne_nil (app : AppInfo) (bufsiz : Nat) (cbs : List IrxmppCb)
    (trustedJid msg : List Char) : answer app bufsiz cbs trustedJid msg ≠ [] := by
  rw [answer]
  repeat' split
  all_goals exact List.cons_ne_nil _ _

/-- The message handler acts exactly on a text from a sender with the right prefix. -/
theorem messageHandler_ne_nil {app : AppInfo} {bufsiz : Nat} {cbs : List IrxmppCb}
    {trustedJid : List Char} {stanza : Stanza} :
    messageHandler app bufsiz cbs trustedJid stanza ≠ [] ↔
      stanza.HasText ∧ ∃ sender, stanza.fromAttr = some sender ∧ trustedJid <+: sender := by
  rw [messageHandler, Stanza.HasText]
  cases hfrom : stanza.fromAttr with
  | none => simp
  | some sender =>
    cases hbody : stanza.body with
    | none => simp
    | some text =>
      by_cases hbegins : trustedJid <+: sender
      · cases text with
        | none => simp
        | some msg => simp [strstr_eq_zero, hbegins, answer_ne_nil]
      · simp [strstr_eq_zero, hbegins]

theorem presenceHandler_ne_nil {trustedJid : List Char} {stanza : Stanza} :
    presenceHandler trustedJid stanza ≠ [] ↔
      stanza.Appears ∧ ∃ sender, stanza.fromAttr = some sender ∧ trustedJid <+: sender := by
  rw [presenceHandler, Stanza.Appears]
  cases hfrom : stanza.fromAttr with
  | none => simp
  | some sender =>
    by_cases hbegins : trustedJid <+: sender
    · have hfound : ¬ strstr sender trustedJid ≠ some 0 := not_not.mpr (strstr_eq_zero.mpr hbegins)
      by_cases htype : stanza.typeAttr.any isUnavailable = true
      · simp only [if_neg hfound, if_pos htype]
        exact iff_of_false (fun h => h rfl) fun h => h.1.1 htype
      · by_cases hshow : ¬ stanza.hasShow ∧ stanza.toAttr.isSome
        · simp only [if_neg hfound, if_neg htype, if_pos hshow]
          exact iff_of_true (List.cons_ne_nil _ _) ⟨⟨htype, hshow⟩, sender, rfl, hbegins⟩
        · simp only [if_neg hfound, if_neg htype, if_neg hshow]
          exact iff_of_false (fun h => h rfl) fun h => hshow h.1.2
    · simp [strstr_eq_zero, hbegins]

/-- Behind a trusted JID without a resource, the JID of a sender goes on in one of two ways. -/
theorem bareJid_eq_iff {trustedJid sender : List Char} (hbare : '/' ∉ trustedJid)
    (hbegins : trustedJid <+: sender) :
    bareJid sender = trustedJid ↔ ¬ Extends trustedJid sender := by
  obtain ⟨rest, rfl⟩ := hbegins
  rw [bareJid, before_append hbare, Extends]
  cases rest with
  | nil => simp
  | cons c rest =>
    simp only [List.head?_cons, reduceCtorEq, Option.some.injEq, false_or,
      List.append_cancel_left_eq, List.cons.injEq]
    refine ⟨?_, ?_⟩
    · rintro rfl ⟨d, rest', ⟨rfl, -⟩, hne⟩
      exact hne rfl
    · intro hnot
      by_contra hne
      exact hnot ⟨c, rest, ⟨rfl, rfl⟩, hne⟩

theorem obeys_iff {trustedJid : List Char} {stanza : Stanza} {actions : List XmppAction}
    {P : Prop} (hbare : '/' ∉ trustedJid)
    (hacts : actions ≠ [] ↔
      P ∧ ∃ sender, stanza.fromAttr = some sender ∧ trustedJid <+: sender) :
    Obeys trustedJid stanza actions ↔
      ¬ (P ∧ ∃ sender, stanza.fromAttr = some sender ∧ Extends trustedJid sender) := by
  rw [Obeys, hacts]
  refine ⟨?_, ?_⟩
  · rintro hobeys ⟨hP, sender, hfrom, hext⟩
    have hbegins : trustedJid <+: sender := by
      obtain ⟨c, rest, rfl, -⟩ := hext
      exact List.prefix_append _ _
    obtain ⟨sender', hfrom', hjid⟩ := hobeys ⟨hP, sender, hfrom, hbegins⟩
    obtain rfl := Option.some.inj (hfrom.symm.trans hfrom')
    exact (bareJid_eq_iff hbare hbegins).mp hjid hext
  · rintro hnot ⟨hP, sender, hfrom, hbegins⟩
    refine ⟨sender, hfrom, (bareJid_eq_iff hbare hbegins).mpr fun hext => ?_⟩
    exact hnot ⟨hP, sender, hfrom, hext⟩

/-- **Only the trusted user is obeyed**, unless a stanza that has an effect comes from a
sender that extends the trusted JID by something else than a resource. -/
theorem only_trusted_iff (app : AppInfo) (bufsiz : Nat) (cbs : List IrxmppCb)
    {trustedJid : List Char} (hbare : '/' ∉ trustedJid) (stanza : Stanza) :
    (Obeys trustedJid stanza (messageHandler app bufsiz cbs trustedJid stanza) ↔
      ¬ (stanza.HasText ∧
        ∃ sender, stanza.fromAttr = some sender ∧ Extends trustedJid sender)) ∧
    (Obeys trustedJid stanza (presenceHandler trustedJid stanza) ↔
      ¬ (stanza.Appears ∧
        ∃ sender, stanza.fromAttr = some sender ∧ Extends trustedJid sender)) :=
  ⟨obeys_iff hbare messageHandler_ne_nil, obeys_iff hbare presenceHandler_ne_nil⟩

/-- A resource of the trusted user, and a JID that extends it. -/
theorem only_trusted_resource :
    Obeys "a@b".toList ⟨some "a@b/x".toList, none, none, some (some "status".toList), false⟩
      (messageHandler ⟨"", "", ""⟩ 8192 irxmppCbargs "a@b".toList
        ⟨some "a@b/x".toList, none, none, some (some "status".toList), false⟩) := by
  refine ((only_trusted_iff _ _ _ (by decide) _).1).mpr ?_
  intro h
  obtain ⟨-, sender, hfrom, c, rest, hext, hne⟩ := h
  obtain rfl := Option.some.inj hfrom
  have hrest : '/' :: "x".toList = c :: rest := @List.append_cancel_left _ "a@b".toList _ _ hext
  exact hne (List.cons.inj hrest).1.symm

/-- A user of another domain gets a command executed. -/
theorem extended_jid_obeyed :
    ¬ ∀ (trustedJid : List Char) (stanza : Stanza), trustedJid ≠ [] → '/' ∉ trustedJid →
      Obeys trustedJid stanza
        (messageHandler ⟨"", "", ""⟩ 8192 irxmppCbargs trustedJid stanza) := by
  intro h
  have hobeys := h "a@b".toList
    ⟨some "a@b.evil/x".toList, none, none, some (some "status".toList), false⟩
    (by decide) (by decide) (by decide)
  obtain ⟨sender, hfrom, hjid⟩ := hobeys
  obtain rfl := Option.some.inj hfrom
  exact absurd hjid (by decide)

end Raspberries.IrAlarm
