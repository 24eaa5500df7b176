import Raspberries.Lib.CString

/-!
# The words of a string

The words of a string are its pieces between the delimiters, without the empty ones.
`strtok`, called again and again, gives one after the other (`words_eq`): it keeps its
place behind the delimiter that ended the last one.
-/

namespace CString

/-- The pieces between the delimiters that are not empty. -/
def words (c : Char) (s : List Char) : List (List Char) := (s.splitOn c).filter (· ≠ [])

section Words

variable {c : Char} {s w : List Char}

theorem words_nil (c : Char) : words c [] = [] := by
  rw [words, List.splitOn_nil]
  rfl

theorem words_append_delim (s t : List Char) : words c (s ++ c :: t) = words c s ++ words c t := by
  rw [words, List.splitOn_append_cons_self, List.filter_append]
  rfl

theorem words_delim (t : List Char) : words c (c :: t) = words c t := by
  have h := @words_append_delim c [] t
  rwa [List.nil_append, words_nil, List.nil_append] at h

theorem words_singleton (hne : w ≠ []) (hw : c ∉ w) : words c w = [w] := by
  rw [words, List.splitOn_eq_singleton hw]
  simp [hne]

theorem words_word_append (hne : w ≠ []) (hw : c ∉ w) (t : List Char) :
    words c (w ++ c :: t) = w :: words c t := by
  rw [words_append_delim, words_singleton hne hw]
  rfl

theorem words_dropWhile (c : Char) (s : List Char) : words c (s.dropWhile (· = c)) = words c s := by
  induction s with
  | nil => rfl
  | cons x s ih =>
    by_cases hx : x = c
    · rw [List.dropWhile_cons_of_pos (by simpa using hx), ih, hx, words_delim]
    · rw [List.dropWhile_cons_of_neg (by simpa using hx)]

theorem before_append_drop (c : Char) (s : List Char) :
    s = before c s ∨ s = before c s ++ c :: s.drop ((before c s).length + 1) := by
  have hsplit : before c s ++ s.dropWhile (· ≠ c) = s := List.takeWhile_append_dropWhile
  cases hrest : s.dropWhile (· ≠ c) with
  | nil => exact .inl (by rw [hrest, List.append_nil] at hsplit; exact hsplit.symm)
  | cons x t =>
    have hx : x = c := by
      have hhead := List.head?_dropWhile_not (fun x => decide (x ≠ c)) s
      rw [hrest] at hhead
      simpa using hhead
    rw [hrest, hx] at hsplit
    refine .inr ?_
    have hdrop : (before c s ++ c :: t).drop ((before c s).length + 1) = t := by
      rw [← List.drop_drop, List.drop_left]
      rfl
    rw [hsplit] at hdrop
    rw [hdrop]
    exact hsplit.symm

/-- The first word of a string that does not start with a delimiter. -/
theorem words_of_head {x : Char} (hx : x ≠ c) (s : List Char) :
    words c (x :: s) =
      before c (x :: s) :: words c ((x :: s).drop ((before c (x :: s)).length + 1)) := by
  have hne : before c (x :: s) ≠ [] := by
    rw [before, List.takeWhile_cons_of_pos (by simpa using hx)]
    exact List.cons_ne_nil _ _
  cases before_append_drop c (x :: s) with
  | inl hwhole =>
    have hlen : (x :: s).length ≤ (before c (x :: s)).length + 1 := by rw [← hwhole]; omega
    rw [List.drop_of_length_le hlen, words_nil]
    conv_lhs => rw [hwhole]
    exact words_singleton hne (notMem_before c _)
  | inr hsplit =>
    conv_lhs => rw [hsplit]
    exact words_word_append hne (notMem_before c _) _

/-- **`strtok` gives the words**, one after the other. -/
theorem words_eq (c : Char) (s : List Char) :
    words c s = ((strtok c s).map fun r => r.1 :: words c r.2).getD [] := by
  rw [← words_dropWhile, strtok]
  cases hskip : s.dropWhile (· = c) with
  | nil => exact words_nil c
  | cons x u =>
    have hx : x ≠ c := by
      have hhead := List.head?_dropWhile_not (fun x => decide (x = c)) s
      rw [hskip] at hhead
      simpa using hhead
    exact words_of_head hx u

theorem flatten_words (c : Char) (s : List Char) : (words c s).flatten = s.filter (· ≠ c) := by
  rw [words, List.flatten_filter_ne_nil]
  induction s with
  | nil => rw [List.splitOn_nil, List.filter_nil, List.flatten_singleton]
  | cons x s ih =>
    rw [List.splitOn_cons_eq_if_modifyHead]
    by_cases hx : x = c
    · simp [hx, ih]
    · obtain ⟨w, ws, hws⟩ := List.exists_cons_of_ne_nil (List.splitOn_ne_nil c s)
      rw [hws, List.flatten_cons] at ih
      simp [hx, hws, ih]

theorem strtok_eq_none_iff : strtok c s = none ↔ words c s = [] := by
  rw [words_eq]
  cases strtok c s with
  | none => exact iff_of_true rfl rfl
  | some r => simp

end Words

end CString
