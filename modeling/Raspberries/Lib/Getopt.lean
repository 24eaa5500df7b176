import Mathlib.Data.List.Induction
import Mathlib.Tactic.Common

/-!
# Short options of a command line

`getopt` goes through the words of a command line as the function of the C library does
that takes operands between the options: letters may stand behind one dash, an argument
may be joined to its letter or be the next word, and `--` ends the options.  That it moves
the operands behind the options is its default; with `POSIXLY_CORRECT` in the environment
the first operand would end them.

`Spells` says which words write down which options, and `spells_iff` that `getopt` finds
them exactly if it reports no error.  `lastOf` is for programs that let a later option
replace an earlier one.
-/

namespace Getopt

/-- What one call returns, with `optarg`. -/
inductive Opt
  | flag (c : Char)
  | arg (c : Char) (optarg : List Char)
  | error
  deriving DecidableEq, Repr

/-- Whether the letter is an option, and whether a colon stands behind it. -/
def takesArg : List Char → Char → Option Bool
  | [], _ => none
  | o :: optstring, c =>
    if o = c ∧ c ≠ ':' ∧ c ≠ '-' then some (decide (optstring.head? = some ':'))
    else takesArg optstring c

def letters : List Char → Option (List Char)
  | '-' :: c :: cs => some (c :: cs)
  | _ => none

/-- The options of the letters of one word.  `rest` are the options of the words behind it,
and `next` is the next word with the options behind that. -/
def cluster (optstring : List Char) (rest : List Opt) (next : Option (List Char × List Opt)) :
    List Char → List Opt
  | [] => rest
  | c :: cs =>
    match takesArg optstring c with
    | none => .error :: cluster optstring rest next cs
    | some false => .flag c :: cluster optstring rest next cs
    | some true =>
      if cs ≠ [] then .arg c cs :: rest
      else match next with
        | some (word, rest) => .arg c word :: rest
        | none => [.error]

/-- The options of the words, and what the last option before them finds: the next word, if
there is one, and the options behind it. -/
def scan (optstring : List Char) : List (List Char) → List Opt × Option (List Char × List Opt)
  | [] => ([], none)
  | word :: words =>
    let behind := scan optstring words
    let opts :=
      if word = ['-', '-'] then []
      else match letters word with
        | none => behind.1
        | some cs => cluster optstring behind.1 behind.2 cs
    (opts, some (word, behind.1))

def getopt (optstring : List Char) (words : List (List Char)) : List Opt :=
  (scan optstring words).1

/-- The words write down the options. -/
inductive Spells (optstring : List Char) : List (List Char) → List Opt → Prop
  | nil : Spells optstring [] []
  | stop (words : List (List Char)) : Spells optstring (['-', '-'] :: words) []
  | operand {word : List Char} {words : List (List Char)} {opts : List Opt}
      (hword : letters word = none) :
      Spells optstring words opts → Spells optstring (word :: words) opts
  | flag {c : Char} {words : List (List Char)} {opts : List Opt}
      (hc : takesArg optstring c = some false) :
      Spells optstring words opts → Spells optstring (['-', c] :: words) (.flag c :: opts)
  | cluster {c : Char} {cs : List Char} {words : List (List Char)} {opts : List Opt}
      (hc : takesArg optstring c = some false) (hcs : cs ≠ []) (hdash : cs ≠ ['-']) :
      Spells optstring (('-' :: cs) :: words) opts →
      Spells optstring (('-' :: c :: cs) :: words) (.flag c :: opts)
  | joined {c : Char} {word : List Char} {words : List (List Char)} {opts : List Opt}
      (hc : takesArg optstring c = some true) (hword : word ≠ []) :
      Spells optstring words opts →
      Spells optstring (('-' :: c :: word) :: words) (.arg c word :: opts)
  | separate {c : Char} {word : List Char} {words : List (List Char)} {opts : List Opt}
      (hc : takesArg optstring c = some true) :
      Spells optstring words opts →
      Spells optstring (['-', c] :: word :: words) (.arg c word :: opts)

/-- What is picked from the last option from which something is. -/
def lastOf {β : Type*} (pick : Opt → Option β) (opts : List Opt) : Option β :=
  opts.reverse.findSome? pick

theorem lastOf_concat {β : Type*} (pick : Opt → Option β) (opts : List Opt) (opt : Opt) :
    lastOf pick (opts ++ [opt]) = (pick opt).or (lastOf pick opts) := by
  rw [lastOf, List.reverse_append, List.reverse_singleton, List.singleton_append,
    List.findSome?_cons, lastOf]
  cases pick opt with
  | none => rfl
  | some v => rfl

theorem exists_of_lastOf {β : Type*} {pick : Opt → Option β} {opts : List Opt} {v : β}
    (h : lastOf pick opts = some v) : ∃ opt ∈ opts, pick opt = some v := by
  obtain ⟨opt, hmem, hpick⟩ := List.exists_of_findSome?_eq_some h
  exact ⟨opt, List.mem_reverse.mp hmem, hpick⟩

section Rules

variable {optstring : List Char} {c : Char} {cs : List Char} {words : List (List Char)}
  {opts : List Opt}

/-- The letters of the string, each with whether a colon stands behind it. -/
def optionTable : List Char → List (Char × Bool)
  | [] => []
  | o :: optstring => (o, decide (optstring.head? = some ':')) :: optionTable optstring

theorem mem_optionTable {b : Bool} (h : takesArg optstring c = some b) :
    (c, b) ∈ optionTable optstring ∧ c ≠ ':' := by
  induction optstring with
  | nil => cases h
  | cons o optstring ih =>
    rw [takesArg] at h
    split at h
    next hc =>
      obtain ⟨rfl, hcolon, -⟩ := hc
      obtain rfl := Option.some.inj h
      exact ⟨List.mem_cons_self, hcolon⟩
    next => exact ⟨List.mem_cons_of_mem _ (ih h).1, (ih h).2⟩

theorem takesArg_dash (optstring : List Char) : takesArg optstring '-' = none := by
  induction optstring with
  | nil => rfl
  | cons o optstring ih =>
    rw [takesArg, if_neg (by simp)]
    exact ih

theorem ne_dash {b : Bool} (hc : takesArg optstring c = some b) : c ≠ '-' := by
  rintro rfl
  rw [takesArg_dash] at hc
  cases hc

theorem cluster_cons (rest : List Opt) (next : Option (List Char × List Opt)) :
    cluster optstring rest next (c :: cs) =
      match takesArg optstring c with
      | none => .error :: cluster optstring rest next cs
      | some false => .flag c :: cluster optstring rest next cs
      | some true =>
        if cs ≠ [] then .arg c cs :: rest
        else match next with
          | some (word, rest) => .arg c word :: rest
          | none => [.error] := rfl

theorem getopt_cons (word : List Char) (words : List (List Char)) :
    getopt optstring (word :: words) =
      if word = ['-', '-'] then []
      else match letters word with
        | none => getopt optstring words
        | some cs => cluster optstring (getopt optstring words) (scan optstring words).2 cs := rfl

theorem scan_cons_snd (word : List Char) (words : List (List Char)) :
    (scan optstring (word :: words)).2 = some (word, getopt optstring words) := rfl

theorem getopt_stop (words : List (List Char)) :
    getopt optstring (['-', '-'] :: words) = [] := by
  rw [getopt_cons, if_pos rfl]

theorem getopt_operand {word : List Char} (hword : letters word = none)
    (words : List (List Char)) : getopt optstring (word :: words) = getopt optstring words := by
  have hstop : word ≠ ['-', '-'] := by
    rintro rfl
    cases hword
  rw [getopt_cons, if_neg hstop, hword]

theorem getopt_letters (hcs : cs ≠ []) (hdash : cs ≠ ['-']) (words : List (List Char)) :
    getopt optstring (('-' :: cs) :: words) =
      cluster optstring (getopt optstring words) (scan optstring words).2 cs := by
  cases cs with
  | nil => exact absurd rfl hcs
  | cons c cs =>
    have hletters : letters ('-' :: c :: cs) = some (c :: cs) := rfl
    have hword : ('-' :: c :: cs) ≠ ['-', '-'] := fun heq => hdash (List.cons.inj heq).2
    rw [getopt_cons, if_neg hword, hletters]

/-- **What words write down is found.** -/
theorem getopt_of_spells (h : Spells optstring words opts) : getopt optstring words = opts := by
  induction h with
  | nil => rfl
  | stop words => exact getopt_stop words
  | operand hword _ ih => rw [getopt_operand hword, ih]
  | flag hc _ ih =>
    rw [getopt_letters (by simp) (by simp [ne_dash hc]), cluster_cons, hc, ih]
    rfl
  | cluster hc hcs hdash _ ih =>
    rw [getopt_letters hcs hdash] at ih
    rw [getopt_letters (by simp) (by simp [hcs]), cluster_cons, hc, ih]
  | joined hc hword _ ih =>
    rw [getopt_letters (by simp) (by simp [hword]), cluster_cons, hc, ih]
    simp only [hword, ne_eq, not_false_eq_true, if_true]
  | separate hc _ ih =>
    rw [getopt_letters (by simp) (by simp [ne_dash hc]), cluster_cons, hc, scan_cons_snd, ih]
    rfl

theorem not_error_of_spells (h : Spells optstring words opts) : Opt.error ∉ opts := by
  induction h with
  | nil | stop => simp
  | operand _ _ ih => exact ih
  | flag _ _ ih | cluster _ _ _ _ ih | joined _ _ _ ih | separate _ _ ih => simp [ih]

/-- The letters of a word in front of words that are known to write down their options. -/
theorem spells_letters {rest : List Opt} (hrest : rest = getopt optstring words)
    (hwords : Opt.error ∉ rest → Spells optstring words rest)
    (hnext : ∀ word words', words = word :: words' →
      Opt.error ∉ getopt optstring words' → Spells optstring words' (getopt optstring words'))
    (hcs : cs ≠ [])
    (herror : Opt.error ∉ cluster optstring rest (scan optstring words).2 cs) :
    Spells optstring (('-' :: cs) :: words)
      (cluster optstring rest (scan optstring words).2 cs) := by
  induction cs with
  | nil => exact absurd rfl hcs
  | cons c cs ih =>
    rw [cluster_cons] at herror ⊢
    cases hc : takesArg optstring c with
    | none => simp [hc] at herror
    | some takes =>
      cases takes with
      | false =>
        simp only [hc, List.mem_cons, reduceCtorEq, false_or] at herror ⊢
        by_cases hlast : cs = []
        · subst hlast
          exact .flag hc (hwords herror)
        · have hdash : cs ≠ ['-'] := by
            rintro rfl
            simp [cluster, takesArg_dash] at herror
          exact .cluster hc hlast hdash (ih hlast herror)
      | true =>
        simp only [hc] at herror ⊢
        by_cases hlast : cs = []
        · subst hlast
          cases words with
          | nil => simp [scan] at herror
          | cons word words =>
            simp only [scan_cons_snd, ne_eq, not_true_eq_false, if_false, List.mem_cons,
              reduceCtorEq, false_or] at herror ⊢
            exact .separate hc (hnext word words rfl herror)
        · simp only [ne_eq, hlast, not_false_eq_true, if_true, List.mem_cons, reduceCtorEq,
            false_or] at herror ⊢
          exact .joined hc hlast (hwords herror)

theorem spells_of_getopt (h : Opt.error ∉ getopt optstring words) :
    Spells optstring words (getopt optstring words) := by
  induction hn : words.length using Nat.strongRecOn generalizing words with
  | ind n ih =>
    cases words with
    | nil => exact .nil
    | cons word words =>
      have hwords : Opt.error ∉ getopt optstring words →
          Spells optstring words (getopt optstring words) := by
        intro hrest
        exact ih words.length (by rw [← hn, List.length_cons]; omega) hrest rfl
      by_cases hstop : word = ['-', '-']
      · subst hstop
        rw [getopt_stop]
        exact .stop words
      · cases hword : letters word with
        | none =>
          rw [getopt_operand hword] at h ⊢
          exact .operand hword (hwords h)
        | some cs =>
          obtain ⟨c, cs', rfl, rfl⟩ : ∃ c cs', word = '-' :: c :: cs' ∧ cs = c :: cs' := by
            unfold letters at hword
            split at hword
            next c cs' => exact ⟨c, cs', rfl, (Option.some.inj hword).symm⟩
            next => cases hword
          have hdash : c :: cs' ≠ ['-'] := fun heq => hstop (by rw [heq])
          rw [getopt_letters (by simp) hdash] at h ⊢
          refine spells_letters rfl hwords ?_ (by simp) h
          intro word' words' heq hrest
          subst heq
          exact ih words'.length (by rw [← hn]; simp only [List.length_cons]; omega) hrest rfl

/-- Every option that is written down is one of the string. -/
theorem takesArg_of_spells (h : Spells optstring words opts) :
    ∀ opt ∈ opts, (∃ c, opt = .flag c ∧ takesArg optstring c = some false) ∨
      ∃ c optarg, opt = .arg c optarg ∧ takesArg optstring c = some true := by
  induction h with
  | nil | stop => simp
  | operand _ _ ih => exact ih
  | flag hc _ ih | cluster hc _ _ _ ih =>
    intro opt hopt
    cases List.mem_cons.mp hopt with
    | inl heq => exact .inl ⟨_, heq, hc⟩
    | inr hopt => exact ih opt hopt
  | joined hc _ _ ih | separate hc _ ih =>
    intro opt hopt
    cases List.mem_cons.mp hopt with
    | inl heq => exact .inr ⟨_, _, heq, hc⟩
    | inr hopt => exact ih opt hopt

/-- **The options of a command line.**  Words write down the options that `getopt` finds in
them without an error, and no others. -/
theorem spells_iff :
    Spells optstring words opts ↔ getopt optstring words = opts ∧ Opt.error ∉ opts := by
  refine ⟨?_, ?_⟩
  · intro h
    exact ⟨getopt_of_spells h, not_error_of_spells h⟩
  · intro h
    obtain ⟨rfl, herror⟩ := h
    exact spells_of_getopt herror

end Rules

end Getopt
