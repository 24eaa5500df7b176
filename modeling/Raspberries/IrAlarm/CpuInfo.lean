import Raspberries.IrAlarm.IrPio
import Raspberries.Lib.CString

/-!
# Which board it is

`piBoardRev` reads `/proc/cpuinfo` in pieces of at most 119 characters, looks for a line with
the hardware and, from the start again, for one with the revision.  `__init_gpio` takes the
table of revision 1 for the answer 1 and the other one for every other answer, errors
included.  The text is taken to be without a NUL, at which the C functions would stop.

`board_rev_one_iff` says for which texts that answer is given: what the function does with
the digits of the revision makes no difference, only its last four characters do.
-/

namespace Raspberries.IrAlarm

open CString

/-- The static variables `boardRev` and `piModel2`. -/
structure BoardState where
  boardRev : Int
  piModel2 : Bool
  deriving DecidableEq, Repr

def BoardState.start : BoardState := ⟨-1, false⟩

/-- One `fgets` into a buffer of `n` characters, and what is behind it. -/
def fgets (n : Nat) (text : List Char) : List Char × List Char :=
  let window := text.take (n - 1)
  if '\n' ∈ window then (before '\n' window ++ ['\n'], text.drop ((before '\n' window).length + 1))
  else (window, text.drop (n - 1))

theorem length_fgets_lt {text : List Char} (h : text ≠ []) :
    (fgets 120 text).2.length < text.length := by
  have hpos := List.length_pos_iff.mpr h
  rw [fgets]
  split
  next => rw [List.length_drop]; omega
  next => rw [List.length_drop]; omega

/-- What the calls of `fgets` give until the file is at its end. -/
def fgetsLines (text : List Char) : List (List Char) :=
  if text = [] then [] else (fgets 120 text).1 :: fgetsLines (fgets 120 text).2
termination_by text.length
decreasing_by exact length_fgets_lt ‹_›

/-- `while (fgets(line, ..) != NULL) if (strncmp(line, key, ..) == 0) break;`: the line that is
in the buffer behind it, where `line` has been before. -/
def readUntil (key line : List Char) : List (List Char) → List Char
  | [] => line
  | l :: ls => if key <+: l then l else readUntil key l ls

def chompLine (line : List Char) : List Char :=
  (line.reverse.dropWhile fun c => c == '\n' || c == '\r').reverse

def lastFour (c : List Char) : List Char := c.drop (c.length - 4)

/-- `piBoardRev`; `cpuinfo` is the text of the file, if it can be opened, and `line` what is
in the buffer at the start. -/
def piBoardRev (cpuinfo : Option (List Char)) (line : List Char) (s : BoardState) :
    Int × BoardState :=
  if s.boardRev ≠ -1 then (s.boardRev, s)
  else match cpuinfo with
    | none => (-1, s)
    | some text =>
      let line := readUntil "Hardware".toList line (fgetsLines text)
      if ¬ "Hardware".toList <+: line then (-2, s)
      else
        let model2 := (strstr line "BCM2709".toList).isSome
        if model2 = false ∧ strstr line "BCM2708".toList = none then (-3, s)
        else
          let s := { s with piModel2 := s.piModel2 || model2 }
          let line := readUntil "Revision".toList line (fgetsLines text)
          if ¬ "Revision".toList <+: line then (-4, s)
          else
            -- from the first digit on
            let c := (chompLine line).dropWhile fun c => !c.isDigit
            if c = [] then (-5, s)
            else if c.length < 4 then (-6, s)
            else
              let boardRev :=
                if lastFour c = "0002".toList ∨ lastFour c = "0003".toList then 1 else 2
              (boardRev, { s with boardRev := boardRev })

/-- The table that `__init_gpio` takes. -/
def boardOf (rev : Int) : BoardRev := if rev = 1 then .r1 else .other

/-! ### The lines -/

/-- The first line with the key, if there is one, and otherwise the last. -/
theorem readUntil_eq (key line : List Char) (ls : List (List Char)) :
    readUntil key line ls =
      (ls.find? fun l => decide (key <+: l)).getD (ls.getLast?.getD line) := by
  induction ls generalizing line with
  | nil => rfl
  | cons l ls ih =>
    rw [readUntil, List.find?_cons]
    by_cases hkey : key <+: l
    · rw [if_pos hkey, decide_eq_true hkey]
      rfl
    · rw [if_neg hkey, decide_eq_false hkey, ih]
      cases ls with
      | nil => rfl
      | cons l' ls => rfl

/-- If what is left in the buffer has the key, it is the first line that has it, or there is
no line at all. -/
theorem key_readUntil {key line : List Char} {ls : List (List Char)}
    (h : key <+: readUntil key line ls) :
    ls.find? (fun l => decide (key <+: l)) = some (readUntil key line ls) ∨
      ls = [] ∧ readUntil key line ls = line := by
  rw [readUntil_eq] at h ⊢
  cases hfind : ls.find? fun l => decide (key <+: l) with
  | some l => exact .inl rfl
  | none =>
    rw [hfind, Option.getD_none] at h
    cases hlast : ls.getLast? with
    | none =>
      rw [List.getLast?_eq_none_iff] at hlast
      exact .inr ⟨hlast, rfl⟩
    | some l =>
      rw [hlast, Option.getD_some] at h
      have hno := List.find?_eq_none.mp hfind l (List.mem_of_getLast? hlast)
      exact absurd (decide_eq_true h) hno

/-! ### The digits -/

/-- What is cut off in front of the first digit is not in a suffix of digits. -/
theorem suffix_dropWhile {t l : List Char} (hdigits : ∀ c ∈ t, c.isDigit = true) (h : t <:+ l) :
    t <:+ l.dropWhile fun c => !c.isDigit := by
  obtain ⟨front, rfl⟩ := h
  rw [List.dropWhile_append]
  split
  next =>
    cases t with
    | nil => exact List.nil_suffix
    | cons c t =>
      have hc := hdigits c List.mem_cons_self
      have hkeep : (c :: t).dropWhile (fun c => !c.isDigit) = c :: t :=
        List.dropWhile_cons_of_neg (by simp [hc])
      simp only [hkeep, List.suffix_refl]
  next => exact List.suffix_append _ t

theorem lastFour_eq {t c : List Char} (ht : t.length = 4) :
    (4 ≤ c.length ∧ lastFour c = t) ↔ t <:+ c := by
  refine ⟨?_, ?_⟩
  · intro h
    rw [← h.2]
    exact List.drop_suffix _ c
  · intro h
    obtain ⟨front, rfl⟩ := h
    rw [lastFour, List.length_append, ht]
    refine ⟨by omega, ?_⟩
    rw [Nat.add_sub_cancel, List.drop_left]

/-- The search for the first digit does not change what the line ends with. -/
theorem suffix_dropWhile_iff {t l : List Char} (hdigits : ∀ c ∈ t, c.isDigit = true) :
    (t <:+ l.dropWhile fun c => !c.isDigit) ↔ t <:+ l :=
  ⟨fun h => h.trans (List.dropWhile_suffix _), suffix_dropWhile hdigits⟩

/-! ### The answer -/

/-- The first line that begins with the key. -/
def lineOf (key : String) (text : List Char) : Option (List Char) :=
  (fgetsLines text).find? fun l => decide (key.toList <+: l)

theorem key_of_lineOf {key : String} {text l : List Char} (h : lineOf key text = some l) :
    key.toList <+: l :=
  of_decide_eq_true (List.find?_some (p := fun l => decide (key.toList <+: l)) h)

/-- A line with the key is the one that the loop stops at, whatever the buffer has. -/
theorem readUntil_of_lineOf {key : String} {text l : List Char} (line : List Char)
    (h : lineOf key text = some l) : readUntil key.toList line (fgetsLines text) = l := by
  rw [lineOf] at h
  rw [readUntil_eq, h, Option.getD_some]

def isRevOne (l : List Char) : Prop :=
  "0002".toList <:+ chompLine l ∨ "0003".toList <:+ chompLine l

theorem lastFour_iff (l : List Char) :
    (¬ (chompLine l).dropWhile (fun c => !c.isDigit) = [] ∧
      ¬ ((chompLine l).dropWhile fun c => !c.isDigit).length < 4 ∧
      (lastFour ((chompLine l).dropWhile fun c => !c.isDigit) = "0002".toList ∨
        lastFour ((chompLine l).dropWhile fun c => !c.isDigit) = "0003".toList)) ↔ isRevOne l := by
  have htwo := @suffix_dropWhile_iff "0002".toList (chompLine l) (List.all_eq_true.mp (by decide))
  have hthree := @suffix_dropWhile_iff "0003".toList (chompLine l) (List.all_eq_true.mp (by decide))
  rw [isRevOne, ← htwo, ← hthree, ← lastFour_eq (by decide), ← lastFour_eq (by decide)]
  generalize (chompLine l).dropWhile (fun c => !c.isDigit) = c
  refine ⟨?_, ?_⟩
  · intro h
    obtain ⟨-, hlen, hlast⟩ := h
    exact hlast.imp (fun h => ⟨by omega, h⟩) fun h => ⟨by omega, h⟩
  · intro h
    have hlen : 4 ≤ c.length := by
      rcases h with h | h
      · exact h.1
      · exact h.1
    refine ⟨?_, by omega, h.imp (fun h => h.2) fun h => h.2⟩
    rintro rfl
    simp at hlen

/-- The tests of the function, on the two lines that are left in the buffer. -/
theorem piBoardRev_eq_one {text line hw rev : List Char}
    (hhw : hw = readUntil "Hardware".toList line (fgetsLines text))
    (hrev : rev = readUntil "Revision".toList hw (fgetsLines text)) :
    (piBoardRev (some text) line .start).1 = 1 ↔
      "Hardware".toList <+: hw ∧
        ((strstr hw "BCM2709".toList).isSome ∨ (strstr hw "BCM2708".toList).isSome) ∧
        "Revision".toList <+: rev ∧ isRevOne rev := by
  have hstart : ¬ BoardState.start.boardRev ≠ -1 := by decide
  rw [piBoardRev, if_neg hstart, ← lastFour_iff]
  dsimp only
  rw [← hhw, ← hrev]
  by_cases hkey : "Hardware".toList <+: hw
  · rw [if_neg (not_not.mpr hkey)]
    by_cases hmodel : (strstr hw "BCM2709".toList).isSome ∨ (strstr hw "BCM2708".toList).isSome
    · have hmodel' : ¬ ((strstr hw "BCM2709".toList).isSome = false ∧
          strstr hw "BCM2708".toList = none) := by
        intro h
        rcases hmodel with h' | h'
        · rw [h.1] at h'
          cases h'
        · rw [h.2] at h'
          cases h'
      rw [if_neg hmodel']
      by_cases hkey' : "Revision".toList <+: rev
      · rw [if_neg (not_not.mpr hkey')]
        generalize (chompLine rev).dropWhile (fun c => !c.isDigit) = c
        by_cases hnil : c = []
        · simp [hnil]
        · by_cases hlen : c.length < 4
          · simp [hnil, hlen]
          · rw [if_neg hnil, if_neg hlen]
            split
            next hlast => exact iff_of_true rfl ⟨hkey, hmodel, hkey', hnil, hlen, hlast⟩
            next hlast =>
              refine ⟨fun h => (by cases h), ?_⟩
              intro h
              exact absurd h.2.2.2.2.2 hlast
      · rw [if_pos hkey']
        exact ⟨fun h => (by cases h), fun h => absurd h.2.2.1 hkey'⟩
    · have hmodel' : (strstr hw "BCM2709".toList).isSome = false ∧
          strstr hw "BCM2708".toList = none := by
        simpa using hmodel
      rw [if_pos hmodel']
      exact ⟨fun h => (by cases h), fun h => absurd h.2.1 hmodel⟩
  · rw [if_pos hkey]
    exact ⟨fun h => (by cases h), fun h => absurd h.1 hkey⟩

/-- **When the table of revision 1 is taken.**  Exactly if the first line that begins with
`Hardware` names a BCM2708 or a BCM2709 and the first one that begins with `Revision` ends
with `0002` or `0003`, whatever else the file says and whatever the buffer holds before. -/
theorem board_rev_one_iff (text line : List Char) :
    boardOf (piBoardRev (some text) line .start).1 = .r1 ↔
      ∃ hw rev, lineOf "Hardware" text = some hw ∧
        ((strstr hw "BCM2709".toList).isSome ∨ (strstr hw "BCM2708".toList).isSome) ∧
        lineOf "Revision" text = some rev ∧ isRevOne rev := by
  have hboard : ∀ rev, boardOf rev = .r1 ↔ rev = 1 := by
    intro rev
    rw [boardOf]
    split <;> simp_all
  rw [hboard, piBoardRev_eq_one rfl rfl]
  refine ⟨?_, ?_⟩
  · intro h
    obtain ⟨hkey, hmodel, hkey', hone⟩ := h
    have hrev := (key_readUntil hkey').resolve_right ?_
    · -- there is a line, so the one with the hardware is one of the file
      have hhw := (key_readUntil hkey).resolve_right ?_
      · exact ⟨_, _, hhw, hmodel, hrev, hone⟩
      · intro hnone
        rw [hnone.1] at hrev
        cases hrev
    · intro hnone
      -- the line with the hardware does not begin with the other key
      rw [hnone.2] at hkey'
      exact absurd (List.prefix_of_prefix_length_le hkey hkey' (by decide)) (by decide)
  · intro h
    obtain ⟨hw, rev, hhw, hmodel, hrev, hone⟩ := h
    rw [readUntil_of_lineOf line hhw, readUntil_of_lineOf hw hrev]
    exact ⟨key_of_lineOf hhw, hmodel, key_of_lineOf hrev, hone⟩

end Raspberries.IrAlarm
