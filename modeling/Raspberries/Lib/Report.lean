import Raspberries.Lib.CString

/-!
# Reports

A report is a text with one line a field: a label and a number in decimal.  Whoever reads it
looks for the first line that begins with the label and takes the digits behind it.

`value_render` is the round trip: if the labels are different, of one length and without a
line end, the number that is read at a label is the one that has been put there.
-/

namespace Report

open CString

/-- `%u` and `%lu`. -/
def decimal (n : Nat) : List Char := Nat.toDigits 10 n

/-- A label and its number. -/
abbrev Field := List Char × Nat

def render (fs : List Field) : List Char := (fs.map fun f => f.1 ++ decimal f.2 ++ ['\n']).flatten

def lines (text : List Char) : List (List Char) := text.splitOn '\n'

/-- The number at a label. -/
def value (label text : List Char) : Option Nat :=
  ((lines text).find? fun l => decide (label <+: l)).map fun l => ofDigits (l.drop label.length)

/-- What keeps the fields apart. -/
structure Labelled (k : Nat) (fs : List Field) : Prop where
  length : ∀ f ∈ fs, f.1.length = k
  newline : ∀ f ∈ fs, '\n' ∉ f.1
  nodup : (fs.map Prod.fst).Nodup

/-! ### Numbers -/

theorem isDigit_of_mem_decimal {n : Nat} {c : Char} (h : c ∈ decimal n) : c.isDigit = true :=
  Nat.isDigit_of_mem_toDigits (by decide) (by decide) h

theorem ofDigits_decimal (n : Nat) : ofDigits (decimal n) = n := by
  rw [ofDigits, decimal]
  exact Nat.ofDigitChars_ten_toDigits

/-! ### Lines -/

section Lines

variable {k n : Nat} {f : Field} {fs : List Field} {label head text : List Char}

theorem lines_append (s t : List Char) : lines (s ++ '\n' :: t) = lines s ++ lines t :=
  List.splitOn_append_cons_self ..

theorem lines_render_cons (h : '\n' ∉ f.1) (fs : List Field) (tail : List Char) :
    lines (render (f :: fs) ++ tail) = (f.1 ++ decimal f.2) :: lines (render fs ++ tail) := by
  have hline : '\n' ∉ f.1 ++ decimal f.2 := by
    intro hmem
    rcases List.mem_append.mp hmem with hmem | hmem
    · exact h hmem
    · exact absurd (isDigit_of_mem_decimal hmem) (by decide)
  have hsplit : render (f :: fs) ++ tail =
      (f.1 ++ decimal f.2) ++ '\n' :: (render fs ++ tail) := by
    simp [render]
  rw [hsplit, lines_append, lines, List.splitOn_eq_singleton hline]
  rfl

/-- A heading in front of the fields is not looked at if no line of it has the label. -/
theorem value_head (h : ∀ l ∈ lines head, ¬ label <+: l) (text : List Char) :
    value label (head ++ '\n' :: text) = value label text := by
  have hnone : (lines head).find? (fun l => decide (label <+: l)) = none := by
    rw [List.find?_eq_none]
    intro l hl hlabel
    exact h l hl (of_decide_eq_true hlabel)
  rw [value, lines_append, List.find?_append, hnone, Option.none_or, value]

theorem Labelled.tail (h : Labelled k (f :: fs)) : Labelled k fs where
  length g hg := h.length g (List.mem_cons_of_mem f hg)
  newline g hg := h.newline g (List.mem_cons_of_mem f hg)
  nodup := (List.nodup_cons.mp h.nodup).2

/-- Labels of one length are found in their own line only. -/
theorem prefix_field_iff (h : label.length = f.1.length) :
    label <+: f.1 ++ decimal f.2 ↔ label = f.1 := by
  refine ⟨?_, ?_⟩
  · intro hpre
    have hfield := List.prefix_append f.1 (decimal f.2)
    exact (List.prefix_of_prefix_length_le hpre hfield (by omega)).eq_of_length h
  · rintro rfl
    exact List.prefix_append ..

/-- **The round trip.** -/
theorem value_render (hfs : Labelled k fs) (h : (label, n) ∈ fs) (tail : List Char) :
    value label (render fs ++ tail) = some n := by
  induction fs with
  | nil => cases h
  | cons f fs ih =>
    have hlen : label.length = f.1.length := by
      rw [hfs.length f List.mem_cons_self, hfs.length (label, n) h]
    rw [value, lines_render_cons (hfs.newline f List.mem_cons_self), List.find?_cons]
    by_cases hlabel : label = f.1
    · rw [decide_eq_true ((prefix_field_iff hlen).mpr hlabel)]
      obtain rfl : f = (label, n) := by
        rcases List.mem_cons.mp h with h | h
        · exact h.symm
        · -- the label would stand twice
          have hmem := List.mem_map_of_mem (f := Prod.fst) h
          exact absurd (hlabel ▸ hmem) (List.nodup_cons.mp hfs.nodup).1
      rw [Option.map_some, List.drop_left, ofDigits_decimal]
    · rw [decide_eq_false (hlabel ∘ (prefix_field_iff hlen).mp)]
      refine ih hfs.tail ?_
      rcases List.mem_cons.mp h with h | h
      · exact absurd (congrArg Prod.fst h) hlabel
      · exact h

end Lines

end Report
