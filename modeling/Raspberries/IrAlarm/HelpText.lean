import Mathlib.Data.List.Induction
import Mathlib.Order.Bounds.Defs
import Raspberries.IrAlarm.IrXmpp

/-!
# The buffer of the help text

`__sprint_commands` appends to a buffer of `sz_max` bytes and doubles it while the entry
at hand would not fit behind `sz_cur` bytes.  `sz_cur` is `1` for every entry, so the
entries before are not counted, and the second of two long entries is written behind the
end (`two_long_entries_overflow`).

`sprintCommandsChecked` appends only what fits.  `help_fits_iff` says for which tables
that is everything: those where each initial part, as a whole, fits into every capacity
that holds each of its entries alone.
-/

namespace Raspberries.IrAlarm

/-! ### The capacity -/

/-- The loop runs `n` times, each time because `need >= sz_max`, and then ends. -/
def GrowEnds (need szMax n : Nat) : Prop :=
  growSzMax need szMax = szMax * 2 ^ n ∧ need < szMax * 2 ^ n ∧
    ∀ k < n, szMax * 2 ^ k ≤ need

theorem growSzMax_ends (need : Nat) {szMax : Nat} (hpos : 0 < szMax) :
    ∃ n, GrowEnds need szMax n := by
  induction szMax using growSzMax.induct need with
  | case1 szMax h ih =>
    obtain ⟨n, hgrow, hlt, hbelow⟩ := ih (by omega)
    have hstep : ∀ k, szMax * 2 * 2 ^ k = szMax * 2 ^ (k + 1) := by
      intro k
      rw [Nat.pow_succ', Nat.mul_assoc]
    refine ⟨n + 1, ?_, ?_, ?_⟩
    · rw [growSzMax, dif_pos h, hgrow, hstep]
    · rw [← hstep]
      exact hlt
    · intro k hk
      cases k with
      | zero => simpa using h.2
      | succ k =>
        rw [← hstep]
        exact hbelow k (by omega)
  | case2 szMax h =>
    refine ⟨0, ?_, by omega, by omega⟩
    rw [growSzMax, dif_neg h, Nat.pow_zero, Nat.mul_one]

/-- What `sz_max` is compared with for an entry. -/
def IrxmppCb.need (cb : IrxmppCb) : Nat := cb.cmd.length + cb.desc.length + 1 + 4

/-- The capacities, doubled from `bufsiz`, that hold each of the entries alone. -/
def Roomy (bufsiz : Nat) (cbs : List IrxmppCb) : Set Nat :=
  {m | (∃ k, m = bufsiz * 2 ^ k) ∧ ∀ cb ∈ cbs, cb.need < m}

theorem roomy_append_singleton {bufsiz m : Nat} {cbs : List IrxmppCb} {cb : IrxmppCb} :
    m ∈ Roomy bufsiz (cbs ++ [cb]) ↔ m ∈ Roomy bufsiz cbs ∧ cb.need < m := by
  refine ⟨?_, ?_⟩
  · intro h
    refine ⟨⟨h.1, ?_⟩, h.2 cb (by simp)⟩
    intro c hc
    exact h.2 c (List.mem_append_left _ hc)
  · intro h
    refine ⟨h.1.1, ?_⟩
    intro c hc
    cases List.mem_append.mp hc with
    | inl hold => exact h.1.2 c hold
    | inr hnew => exact (List.mem_singleton.mp hnew) ▸ h.2

/-- The loop keeps `sz_max` the least capacity for the entries met so far. -/
theorem growSzMax_isLeast {bufsiz szMax : Nat} (hpos : 0 < bufsiz) {cbs : List IrxmppCb}
    (h : IsLeast (Roomy bufsiz cbs) szMax) (cb : IrxmppCb) :
    IsLeast (Roomy bufsiz (cbs ++ [cb])) (growSzMax cb.need szMax) := by
  obtain ⟨a, ha⟩ := h.1.1
  have hszMax : 0 < szMax := ha ▸ Nat.mul_pos hpos (Nat.two_pow_pos a)
  obtain ⟨n, hgrow, hlt, hbelow⟩ := growSzMax_ends cb.need hszMax
  have hpow : ∀ k, szMax * 2 ^ k = bufsiz * 2 ^ (a + k) := by
    intro k
    rw [ha, Nat.pow_add, Nat.mul_assoc]
  rw [hgrow]
  refine ⟨?_, ?_⟩
  · rw [roomy_append_singleton]
    refine ⟨⟨⟨a + n, hpow n⟩, ?_⟩, hlt⟩
    intro c hc
    exact Nat.lt_of_lt_of_le (h.1.2 c hc) (Nat.le_mul_of_pos_right _ (Nat.two_pow_pos n))
  · intro m hm
    rw [roomy_append_singleton] at hm
    obtain ⟨b, hb⟩ := hm.1.1
    have hab : a ≤ b := by
      have hle : bufsiz * 2 ^ a ≤ bufsiz * 2 ^ b := ha ▸ hb ▸ h.2 hm.1
      exact (Nat.pow_le_pow_iff_right (by decide)).mp (Nat.le_of_mul_le_mul_left hle hpos)
    -- a capacity below the result would have kept the loop going
    by_contra hsmall
    have hbn : b - a < n := by
      by_contra hge
      apply hsmall
      rw [hb, ← Nat.add_sub_cancel' hab, ← hpow]
      exact Nat.mul_le_mul_left _ (Nat.pow_le_pow_right (by decide) (by omega))
    have hkept := hbelow (b - a) hbn
    rw [hpow, Nat.add_sub_cancel' hab, ← hb] at hkept
    omega

/-! ### The text -/

def IrxmppCb.line (cb : IrxmppCb) : List Char :=
  cb.cmd ++ " - ".toList ++ cb.desc ++ "\n".toList

/-- The text that is meant: a newline, and a line for every entry. -/
def helpLines (cbs : List IrxmppCb) : List Char := "\n".toList ++ cbs.flatMap IrxmppCb.line

theorem helpLines_append_singleton (cbs : List IrxmppCb) (cb : IrxmppCb) :
    helpLines (cbs ++ [cb]) = helpLines cbs ++ cb.line := by
  simp [helpLines]

theorem length_line (cb : IrxmppCb) : cb.line.length = cb.cmd.length + cb.desc.length + 4 := by
  simp [IrxmppCb.line]
  omega

/-- `strcat` and `strncat`, where the text fits with its terminating zero. -/
def CmdsBuf.strcat (buf : CmdsBuf) (part : List Char) : Option CmdsBuf :=
  if buf.text.length + part.length + 1 ≤ buf.szMax then
    some { buf with text := buf.text ++ part }
  else none

def sprintCommandChecked (bufsiz : Nat) (buf : CmdsBuf) (cb : IrxmppCb) : Option CmdsBuf :=
  let cmd := cb.cmd.take bufsiz
  let desc := cb.desc.take bufsiz
  let grown := { buf with szMax := growSzMax (cmd.length + desc.length + 1 + 4) buf.szMax }
  (grown.strcat cmd).bind fun buf =>
  (buf.strcat " - ".toList).bind fun buf =>
  (buf.strcat desc).bind fun buf =>
  buf.strcat "\n".toList

def sprintCommandsChecked (bufsiz : Nat) (cbs : List IrxmppCb) : Option CmdsBuf :=
  cbs.foldlM (sprintCommandChecked bufsiz) ⟨"\n".toList, bufsiz⟩

theorem strcat_eq_some_iff {buf buf' : CmdsBuf} {part : List Char} :
    buf.strcat part = some buf' ↔
      buf.text.length + part.length + 1 ≤ buf.szMax ∧ buf' = ⟨buf.text ++ part, buf.szMax⟩ := by
  rw [CmdsBuf.strcat, Option.ite_none_right_eq_some, Option.some.injEq, eq_comm]

/-- The strings of an entry are not cut. -/
def IrxmppCb.Whole (bufsiz : Nat) (cb : IrxmppCb) : Prop :=
  cb.cmd.length ≤ bufsiz ∧ cb.desc.length ≤ bufsiz

/-- Of the four calls for an entry the last one decides, because the text only grows. -/
theorem sprintCommandChecked_eq_some_iff {bufsiz : Nat} {cb : IrxmppCb}
    (hwhole : cb.Whole bufsiz) {buf buf' : CmdsBuf} :
    sprintCommandChecked bufsiz buf cb = some buf' ↔
      buf.text.length + cb.line.length + 1 ≤ growSzMax cb.need buf.szMax ∧
        buf' = ⟨buf.text ++ cb.line, growSzMax cb.need buf.szMax⟩ := by
  rw [sprintCommandChecked, List.take_of_length_le hwhole.1, List.take_of_length_le hwhole.2,
    length_line]
  simp only [Option.bind_eq_some_iff, strcat_eq_some_iff, IrxmppCb.line]
  refine ⟨?_, ?_⟩
  · intro hex
    obtain ⟨_, ⟨-, rfl⟩, _, ⟨-, rfl⟩, _, ⟨-, rfl⟩, hlast, rfl⟩ := hex
    simp only [List.length_append] at hlast
    refine ⟨?_, ?_⟩
    · change _ ≤ growSzMax cb.need buf.szMax at hlast
      simp at hlast
      omega
    · simp [IrxmppCb.need]
  · intro h
    obtain ⟨hfits, rfl⟩ := h
    rw [IrxmppCb.need] at hfits ⊢
    have hsep : " - ".toList.length = 3 := by decide
    have hnl : "\n".toList.length = 1 := by decide
    refine ⟨_, ⟨?_, rfl⟩, _, ⟨?_, rfl⟩, _, ⟨?_, rfl⟩, ?_, ?_⟩
    · omega
    · simp only [List.length_append, hsep]
      omega
    · simp only [List.length_append, hsep]
      omega
    · simp only [List.length_append, hsep, hnl]
      omega
    · simp

theorem sprintCommandChecked_eq {bufsiz : Nat} {buf buf' : CmdsBuf} {cb : IrxmppCb}
    (hwhole : cb.Whole bufsiz) (h : sprintCommandChecked bufsiz buf cb = some buf') :
    buf' = sprintCommand bufsiz buf cb := by
  obtain ⟨-, rfl⟩ := (sprintCommandChecked_eq_some_iff hwhole).mp h
  rw [sprintCommand, List.take_of_length_le hwhole.1, List.take_of_length_le hwhole.2]
  simp [IrxmppCb.line, IrxmppCb.need]

structure Tracks (bufsiz : Nat) (cbs : List IrxmppCb) (buf : CmdsBuf) : Prop where
  text : buf.text = helpLines cbs
  szMax : IsLeast (Roomy bufsiz cbs) buf.szMax
  asWritten : buf = sprintCommands bufsiz cbs

section Table

variable {bufsiz : Nat} {cbs : List IrxmppCb}

theorem sprintCommandsChecked_append_singleton (cb : IrxmppCb) :
    sprintCommandsChecked bufsiz (cbs ++ [cb]) =
      (sprintCommandsChecked bufsiz cbs).bind fun buf => sprintCommandChecked bufsiz buf cb := by
  rw [sprintCommandsChecked, sprintCommandsChecked, List.foldlM_append]
  simp

theorem tracks_start (bufsiz : Nat) : Tracks bufsiz [] ⟨"\n".toList, bufsiz⟩ where
  text := rfl
  szMax := by
    refine ⟨⟨⟨0, by simp⟩, by simp⟩, ?_⟩
    rintro m ⟨⟨k, rfl⟩, -⟩
    exact Nat.le_mul_of_pos_right _ (Nat.two_pow_pos k)
  asWritten := rfl

theorem Tracks.step (hpos : 0 < bufsiz) {buf buf' : CmdsBuf} (h : Tracks bufsiz cbs buf)
    {cb : IrxmppCb} (hwhole : cb.Whole bufsiz)
    (hstep : sprintCommandChecked bufsiz buf cb = some buf') :
    Tracks bufsiz (cbs ++ [cb]) buf' := by
  have hwritten := sprintCommandChecked_eq hwhole hstep
  obtain ⟨-, rfl⟩ := (sprintCommandChecked_eq_some_iff hwhole).mp hstep
  refine ⟨?_, growSzMax_isLeast hpos h.szMax cb, ?_⟩
  · rw [helpLines_append_singleton, h.text]
  · rw [hwritten, h.asWritten, sprintCommands, sprintCommands, List.foldl_append]
    rfl

/-- An initial part of the table fits into every capacity that holds each of its entries
alone: with the first newline, the lines and the terminating zero. -/
def FitsTogether (bufsiz : Nat) (cbs : List IrxmppCb) : Prop :=
  ∀ part, part <+: cbs → ∀ m ∈ Roomy bufsiz part,
    2 + (part.map fun cb => cb.cmd.length + cb.desc.length + 4).sum ≤ m

theorem length_helpLines (cbs : List IrxmppCb) :
    (helpLines cbs).length = 1 + (cbs.map fun cb => cb.cmd.length + cb.desc.length + 4).sum := by
  simp only [helpLines, List.length_append, List.length_flatMap, length_line]
  rfl

theorem fitsTogether_append_singleton {cb : IrxmppCb} :
    FitsTogether bufsiz (cbs ++ [cb]) ↔ FitsTogether bufsiz cbs ∧
      ∀ m ∈ Roomy bufsiz (cbs ++ [cb]), (helpLines (cbs ++ [cb])).length + 1 ≤ m := by
  simp only [FitsTogether, List.prefix_concat_iff, length_helpLines]
  refine ⟨?_, ?_⟩
  · intro h
    refine ⟨fun part hpart => h part (.inr hpart), ?_⟩
    intro m hm
    have hall := h _ (.inl rfl) m hm
    omega
  · rintro ⟨hbefore, hnew⟩ part (rfl | hpart) m hm
    · have hall := hnew m hm
      omega
    · exact hbefore part hpart m hm

theorem fitsTogether_of_le
    (h : 2 + (cbs.map fun cb => cb.cmd.length + cb.desc.length + 4).sum ≤ bufsiz) :
    FitsTogether bufsiz cbs := by
  rintro part ⟨rest, rfl⟩ m ⟨⟨k, rfl⟩, -⟩
  rw [List.map_append, List.sum_append] at h
  have hle : bufsiz ≤ bufsiz * 2 ^ k := Nat.le_mul_of_pos_right _ (Nat.two_pow_pos k)
  omega

/-- The table is written without an overflow exactly if its parts fit, and then the
buffer is as it should be. -/
theorem sprintCommandsChecked_spec (hbuf : 1 < bufsiz) (hwhole : ∀ cb ∈ cbs, cb.Whole bufsiz) :
    (∀ buf, sprintCommandsChecked bufsiz cbs = some buf → Tracks bufsiz cbs buf) ∧
      ((sprintCommandsChecked bufsiz cbs).isSome ↔ FitsTogether bufsiz cbs) := by
  induction cbs using List.reverseRecOn with
  | nil =>
    refine ⟨?_, ?_⟩
    · intro buf h
      obtain rfl := Option.some.inj h
      exact tracks_start bufsiz
    · refine iff_of_true rfl ?_
      rintro part hpart m ⟨⟨k, rfl⟩, -⟩
      obtain rfl := List.prefix_nil.mp hpart
      exact hbuf.trans_le (Nat.le_mul_of_pos_right _ (Nat.two_pow_pos k))
  | append_singleton cbs cb ih =>
    have hcb : cb.Whole bufsiz := hwhole cb (by simp)
    obtain ⟨htracks, hfits⟩ := ih fun c hc => hwhole c (List.mem_append_left _ hc)
    rw [sprintCommandsChecked_append_singleton, fitsTogether_append_singleton, ← hfits]
    cases hbefore : sprintCommandsChecked bufsiz cbs with
    | none => simp
    | some buf =>
      have htrack := htracks buf hbefore
      refine ⟨?_, ?_⟩
      · intro buf' h
        exact htrack.step (by omega) hcb h
      · have hleast := growSzMax_isLeast (by omega) htrack.szMax cb
        have hlen : (helpLines (cbs ++ [cb])).length = buf.text.length + cb.line.length := by
          rw [helpLines_append_singleton, htrack.text, List.length_append]
        rw [Option.isSome_some, Option.bind_some, Option.isSome_iff_exists, hlen]
        simp only [sprintCommandChecked_eq_some_iff hcb, exists_and_left, exists_eq, and_true,
          true_and]
        refine ⟨?_, ?_⟩
        · intro h m hm
          exact h.trans (hleast.2 hm)
        · intro h
          exact h _ hleast.1

end Table

/-- No call writes behind the capacity of its moment, and the result is the text meant. -/
def HelpFits (bufsiz : Nat) (cbs : List IrxmppCb) : Prop :=
  sprintCommandsChecked bufsiz cbs = some (sprintCommands bufsiz cbs) ∧
    (sprintCommands bufsiz cbs).text = helpLines cbs

/-- **The help text fits** exactly if each initial part of the table, as a whole, fits into
every capacity that holds each of its entries alone.  The growth loop always ends. -/
theorem help_fits_iff {bufsiz : Nat} (hbuf : 1 < bufsiz) {cbs : List IrxmppCb}
    (hwhole : ∀ cb ∈ cbs, cb.Whole bufsiz) :
    (HelpFits bufsiz cbs ↔ FitsTogether bufsiz cbs) ∧
      ∀ need szMax, 0 < szMax → ∃ n, GrowEnds need szMax n := by
  refine ⟨?_, fun need szMax hpos => growSzMax_ends need hpos⟩
  obtain ⟨htracks, hfits⟩ := sprintCommandsChecked_spec hbuf hwhole
  rw [← hfits]
  refine ⟨?_, ?_⟩
  · intro h
    rw [h.1]
    rfl
  · intro h
    obtain ⟨buf, hbuf⟩ := Option.isSome_iff_exists.mp h
    have htrack := htracks buf hbuf
    exact ⟨hbuf.trans (congrArg some htrack.asWritten), htrack.asWritten ▸ htrack.text⟩

/-- The table in use. -/
theorem help_fits_in_use : HelpFits 8192 irxmppCbargs :=
  (help_fits_iff (by decide) (by unfold IrxmppCb.Whole; decide)).1.mpr
    (fitsTogether_of_le (by decide))

def twoEntries (n : Nat) : List IrxmppCb :=
  [⟨"a".toList, 0, List.replicate n 'x'⟩, ⟨"b".toList, 1, List.replicate n 'x'⟩]

theorem whole_twoEntries {bufsiz n : Nat} (h : n ≤ bufsiz) (hpos : 0 < bufsiz) :
    ∀ cb ∈ twoEntries n, cb.Whole bufsiz := by
  rintro cb (_ | ⟨_, _ | ⟨_, ⟨⟩⟩⟩)
  · exact ⟨hpos, by rwa [List.length_replicate]⟩
  · exact ⟨hpos, by rwa [List.length_replicate]⟩

/-- Each entry alone leaves the buffer as it is, and both together do not fit. -/
theorem not_fitsTogether_twoEntries {bufsiz n : Nat} (halone : n + 6 < bufsiz)
    (hboth : bufsiz < 2 * n + 12) : ¬ FitsTogether bufsiz (twoEntries n) := by
  intro h
  have hroomy : bufsiz ∈ Roomy bufsiz (twoEntries n) := by
    refine ⟨⟨0, by simp⟩, ?_⟩
    intro cb hcb
    have hneed : cb.need = n + 6 := by
      rw [twoEntries, List.mem_cons, List.mem_singleton] at hcb
      obtain rfl | rfl := hcb
      · simp [IrxmppCb.need]
        omega
      · simp [IrxmppCb.need]
        omega
    omega
  have hle := h (twoEntries n) (List.prefix_refl _) bufsiz hroomy
  have hsum : ((twoEntries n).map fun cb => cb.cmd.length + cb.desc.length + 4).sum =
      2 * n + 10 := by
    simp [twoEntries]
    omega
  omega

/-- Two descriptions of 5000 characters: the buffer of 8192 bytes never grows. -/
theorem two_long_entries_overflow :
    ¬ ∀ (bufsiz : Nat) (cbs : List IrxmppCb), 1 < bufsiz → (∀ cb ∈ cbs, cb.Whole bufsiz) →
      HelpFits bufsiz cbs := by
  intro h
  have hwhole := @whole_twoEntries 8192 5000 (by decide) (by decide)
  have hfits : FitsTogether 8192 (twoEntries 5000) := by
    rw [← (sprintCommandsChecked_spec (by decide) hwhole).2, (h 8192 _ (by decide) hwhole).1]
    rfl
  exact not_fitsTogether_twoEntries (by decide) (by decide) hfits

end Raspberries.IrAlarm
