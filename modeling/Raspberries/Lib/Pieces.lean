import Mathlib.Data.List.Basic
import Mathlib.Tactic.Common

/-!
# A text in pieces

A text that is laid out in pieces may arrive in other ones.  Where the beginning of a
piece can be told, and nothing behind it looks like one, pieces that all look like a
beginning and are as many are the pieces of the layout (`eq_of_starts`): one that begins
elsewhere gives itself away, and one that joins two leaves too few.
-/

namespace Pieces

variable {α : Type*}

/-- Behind the beginning of `l` nothing starts, whatever follows `l`. -/
def OnlyAtFront (starts : List α → Prop) (l : List α) : Prop :=
  ∀ u v t : List α, l = u ++ v → u ≠ [] → v ≠ [] → ¬ starts (v ++ t)

variable {starts : List α → Prop}

theorem starts_flatten (hmono : ∀ s t, starts s → starts (s ++ t)) {cs : List (List α)}
    (hstarts : ∀ c ∈ cs, starts c) (hne : cs.flatten ≠ []) : starts cs.flatten := by
  cases cs with
  | nil => exact absurd List.flatten_nil hne
  | cons c cs =>
    rw [List.flatten_cons]
    exact hmono c cs.flatten (hstarts c List.mem_cons_self)

/-- Something that comes before pieces that start covers the first piece of the layout. -/
theorem covers (hmono : ∀ s t, starts s → starts (s ++ t)) {l s t : List α}
    {cs : List (List α)} (hl : OnlyAtFront starts l) (hs : s ≠ []) (hstarts : ∀ c ∈ cs, starts c)
    (h : s ++ cs.flatten = l ++ t) : ∃ s', s = l ++ s' ∧ s' ++ cs.flatten = t := by
  rcases List.append_eq_append_iff.mp h with ⟨v, hv, hrest⟩ | ⟨s', hs', hrest⟩
  · by_cases hnil : v = []
    · subst hnil
      exact ⟨[], by simpa using hv.symm, by simpa using hrest⟩
    · -- the next piece starts inside `l`
      have hne : cs.flatten ≠ [] := by simp [hrest, hnil]
      have hat : starts (v ++ t) := hrest ▸ starts_flatten hmono hstarts hne
      exact absurd hat (hl s v t hv hs hnil)
  · exact ⟨s', hs', hrest.symm⟩

/-- Behind a text `s` there are at most as many pieces that start, and as many only if
`s` is empty and they are the pieces of the layout. -/
theorem length_le_of_starts (hmono : ∀ s t, starts s → starts (s ++ t)) {ls : List (List α)}
    (hfront : ∀ l ∈ ls, OnlyAtFront starts l) :
    ∀ {s : List α} {cs : List (List α)}, [] ∉ cs → (∀ c ∈ cs, starts c) →
      s ++ cs.flatten = ls.flatten →
        cs.length ≤ ls.length ∧ (cs.length = ls.length → s = [] ∧ cs = ls) := by
  induction ls with
  | nil =>
    intro s cs hne _ h
    rw [List.flatten_nil, List.append_eq_nil_iff] at h
    cases cs with
    | nil => exact ⟨Nat.le_refl _, fun _ => ⟨h.1, rfl⟩⟩
    | cons c cs =>
      have hc : c = [] := (List.append_eq_nil_iff.mp h.2).1
      exact absurd (hc ▸ List.mem_cons_self) hne
  | cons l ls ih =>
    intro s cs hne hstarts h
    have hl : OnlyAtFront starts l := hfront l List.mem_cons_self
    have ih := @ih fun l' hl' => hfront l' (List.mem_cons_of_mem _ hl')
    rw [List.flatten_cons] at h
    by_cases hs : s = []
    · subst hs
      cases cs with
      | nil => exact ⟨Nat.zero_le _, fun hlen => absurd hlen (by simp)⟩
      | cons c cs =>
        have hc : c ≠ [] := fun hc => hne (hc ▸ List.mem_cons_self)
        have hstarts' : ∀ c ∈ cs, starts c := fun c' hc' =>
          hstarts c' (List.mem_cons_of_mem _ hc')
        obtain ⟨s', rfl, hrest⟩ := covers hmono hl hc hstarts' h
        obtain ⟨hle, heq⟩ := ih (fun hmem => hne (List.mem_cons_of_mem _ hmem)) hstarts' hrest
        refine ⟨Nat.succ_le_succ hle, fun hlen => ⟨rfl, ?_⟩⟩
        obtain ⟨rfl, rfl⟩ := heq (Nat.succ.inj hlen)
        rw [List.append_nil]
    · -- `s` has used up `l`, and fewer pieces are left
      obtain ⟨s', _, hrest⟩ := covers hmono hl hs hstarts h
      have hle := (ih hne hstarts hrest).1
      simp only [List.length_cons]
      exact ⟨by omega, by omega⟩

/-- **The pieces are those of the layout.** -/
theorem eq_of_starts (hmono : ∀ s t, starts s → starts (s ++ t)) {ls cs : List (List α)}
    (hfront : ∀ l ∈ ls, OnlyAtFront starts l) (hne : [] ∉ cs) (hstarts : ∀ c ∈ cs, starts c)
    (h : cs.flatten = ls.flatten) (hlen : cs.length = ls.length) : cs = ls :=
  ((length_le_of_starts (s := []) hmono hfront hne hstarts h).2 hlen).2

end Pieces
