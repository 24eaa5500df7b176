import Mathlib.Data.List.Induction
import Mathlib.Tactic.Common

/-!
# Labelled transition systems with a guard

A system is a partial function `step : S → A → Option S`: the action `a` carries
every choice the environment makes, and `none` says that `a` is not enabled.

`Reach step ok init` are the states a run can come to when every step it takes
meets the guard `ok`, a condition on the state before the step and the action.
With the guard `anyStep` these are all the reachable states.  A statement about
runs is proved by `Reach.invariant`, and `reach_of_exec` turns a list of actions
that evaluates into a reachable state.

`EveryStep` is for systems in which every action is enabled, so that a run is a list.
-/

namespace Transition

variable {S A : Type*}

/-- The states reached from `init` along steps that all meet `ok`. -/
inductive Reach (step : S → A → Option S) (ok : S → A → Prop) (init : S → Prop) : S → Prop
  | start {s : S} : init s → Reach step ok init s
  | next {s t : S} {a : A} : Reach step ok init s → ok s a → step s a = some t →
      Reach step ok init t

def anyStep (_ : S) (_ : A) : Prop := True

instance (s : S) (a : A) : Decidable (anyStep s a) := inferInstanceAs (Decidable True)

section Rules

variable {step : S → A → Option S} {ok ok' : S → A → Prop} {init : S → Prop}

/-- **The invariant rule.**  What holds at the start and is kept by every step
that meets the guard holds in every state reached. -/
theorem Reach.invariant {I : S → Prop} (hinit : ∀ s, init s → I s)
    (hstep : ∀ s a t, I s → ok s a → step s a = some t → I t) {s : S}
    (h : Reach step ok init s) : I s := by
  induction h with
  | start hs => exact hinit _ hs
  | next _ hok hst ih => exact hstep _ _ _ ih hok hst

theorem Reach.invariant_from {I : S → Prop} {s₀ : S} (hstart : I s₀)
    (hstep : ∀ s a t, I s → ok s a → step s a = some t → I t) {s : S}
    (h : Reach step ok (· = s₀) s) : I s := by
  refine h.invariant ?_ hstep
  intro s hs
  rw [hs]
  exact hstart

/-- The invariant rule on top of an invariant that is already known. -/
theorem Reach.invariant_of {I J : S → Prop} (hI : ∀ s, Reach step ok init s → I s)
    (hinit : ∀ s, init s → J s)
    (hstep : ∀ s a t, I s → J s → ok s a → step s a = some t → J t) {s : S}
    (h : Reach step ok init s) : J s := by
  induction h with
  | start hs => exact hinit _ hs
  | next hr hok hst ih => exact hstep _ _ _ (hI _ hr) ih hok hst

theorem Reach.mono (himp : ∀ s a, ok s a → ok' s a) {s : S} (h : Reach step ok init s) :
    Reach step ok' init s := by
  induction h with
  | start hs => exact .start hs
  | next _ hok hst ih => exact .next ih (himp _ _ hok) hst

theorem Reach.any {s : S} (h : Reach step ok init s) : Reach step anyStep init s :=
  h.mono fun _ _ _ => trivial

theorem Reach.trans {s t : S} (h : Reach step ok init s) (g : Reach step ok (· = s) t) :
    Reach step ok init t := by
  induction g with
  | start hs => exact hs ▸ h
  | next _ hok hst ih => exact .next ih hok hst

/-- **The simulation rule.**  If every step of a reachable state is a step of what is seen of
it, or is not seen, then what is seen of a reachable state is reachable. -/
theorem Reach.simulates {T B : Type*} {stepV : T → B → Option T} {okV : T → B → Prop}
    {initV : T → Prop} (view : S → T) (hinit : ∀ s, init s → initV (view s))
    (hstep : ∀ s a t, Reach step ok init s → ok s a → step s a = some t →
      view t = view s ∨ ∃ b, okV (view s) b ∧ stepV (view s) b = some (view t)) {s : S}
    (h : Reach step ok init s) : Reach stepV okV initV (view s) := by
  induction h with
  | start hs => exact .start (hinit _ hs)
  | next hr hok hst ih =>
    rcases hstep _ _ _ hr hok hst with hsame | ⟨b, hb, hview⟩
    · rw [hsame]
      exact ih
    · exact .next ih hb hview

end Rules

/-! ### Runs that evaluate -/

/-- The state after the actions `as`; `none` when one of them is not enabled or
does not meet the guard. -/
def exec (step : S → A → Option S) (ok : S → A → Prop) [∀ s a, Decidable (ok s a)] :
    S → List A → Option S
  | s, [] => some s
  | s, a :: as =>
      if ok s a then
        match step s a with
        | some t => exec step ok t as
        | none => none
      else none

section Exec

variable {step : S → A → Option S} {ok : S → A → Prop} [∀ s a, Decidable (ok s a)]

/-- Without a guard a list of actions is run one after another. -/
theorem exec_cons {s : S} {a : A} {as : List A} :
    exec step anyStep s (a :: as) = (step s a).bind fun t => exec step anyStep t as := by
  rw [exec, if_pos (show anyStep s a from trivial)]
  cases step s a <;> rfl

theorem exec_append {s : S} (as bs : List A) :
    exec step anyStep s (as ++ bs) =
      (exec step anyStep s as).bind fun t => exec step anyStep t bs := by
  induction as generalizing s with
  | nil => rfl
  | cons a as ih =>
    rw [List.cons_append, exec_cons, exec_cons]
    cases step s a with
    | none => rfl
    | some t => exact ih

theorem exec_concat {s u : S} {as : List A} {a : A} :
    exec step anyStep s (as ++ [a]) = some u ↔
      ∃ t, exec step anyStep s as = some t ∧ step t a = some u := by
  rw [exec_append, Option.bind_eq_some_iff]
  refine exists_congr fun t => and_congr_right fun _ => ?_
  rw [exec_cons]
  cases step t a with
  | none => exact Iff.rfl
  | some t' => exact Iff.rfl

theorem reach_of_exec : ∀ (as : List A) {s t : S}, exec step ok s as = some t →
    Reach step ok (· = s) t := by
  intro as
  induction as with
  | nil => intro s t h; exact .start (Option.some.inj h).symm
  | cons a as ih =>
    intro s t h
    rw [exec] at h
    split at h
    next hok =>
      split at h
      next u hu =>
        have hu' : Reach step ok (· = s) u := .next (.start rfl) hok hu
        exact hu'.trans (ih h)
      next => exact absurd h (by simp)
    next => exact absurd h (by simp)

/-- The end of a list of actions that evaluates is reachable. -/
theorem reach_get (s : S) (as : List A) (h : (exec step ok s as).isSome) :
    Reach step ok (· = s) ((exec step ok s as).get h) :=
  reach_of_exec as (Option.some_get h).symm

end Exec

/-! ### Lists of actions -/

/-- `P as' a` holds for every action `a` of the list and the actions `as'` before it. -/
def EveryStep (P : List A → A → Prop) (as : List A) : Prop := ∀ as' a, as' ++ [a] <+: as → P as' a

section EveryStep

variable {P Q : List A → A → Prop} {as : List A}

theorem everyStep_nil : EveryStep P [] := by
  intro as' a hle
  exact absurd (List.prefix_nil.mp hle) (List.concat_ne_nil a as')

theorem everyStep_concat {a : A} : EveryStep P (as ++ [a]) ↔ EveryStep P as ∧ P as a := by
  refine ⟨?_, ?_⟩
  · intro h
    exact ⟨fun as' a' hle => h as' a' (hle.trans (List.prefix_append as [a])),
      h as a List.prefix_rfl⟩
  · intro h as' a' hle
    cases List.prefix_concat_iff.mp hle with
    | inl heq =>
      obtain ⟨rfl, ha⟩ := List.append_inj' heq rfl
      obtain rfl : a' = a := List.singleton_inj.mp ha
      exact h.2
    | inr hle => exact h.1 as' a' hle

theorem EveryStep.mem (h : EveryStep P as) {a : A} (ha : a ∈ as) : ∃ as', P as' a := by
  obtain ⟨before, after, rfl⟩ := List.append_of_mem ha
  exact ⟨before, h before a ⟨after, (List.append_cons before a after).symm⟩⟩

theorem EveryStep.of_mem (h : ∀ as' a, a ∈ as → P as' a) : EveryStep P as := by
  intro as' a hle
  exact h as' a (hle.subset (List.mem_append_right as' (List.mem_singleton.mpr rfl)))

/-- **The first step that goes wrong.**  If `P` is `Q` wherever `Q` holds of all the steps
before, then `P` holds of every step exactly if `Q` does. -/
theorem everyStep_congr (h : ∀ as a, EveryStep Q as → (P as a ↔ Q as a)) (as : List A) :
    EveryStep P as ↔ EveryStep Q as := by
  induction as using List.reverseRecOn with
  | nil => exact iff_of_true everyStep_nil everyStep_nil
  | append_singleton as a ih =>
    rw [everyStep_concat, everyStep_concat, ih]
    refine ⟨?_, ?_⟩
    · intro hp
      exact ⟨hp.1, (h as a hp.1).mp hp.2⟩
    · intro hq
      exact ⟨hq.1, (h as a hq.1).mpr hq.2⟩

theorem EveryStep.invariant {step : S → A → S} {start : S} {I : S → Prop} (hstart : I start)
    (hstep : ∀ as a, I (as.foldl step start) → P as a → I (step (as.foldl step start) a))
    (h : EveryStep P as) : I (as.foldl step start) := by
  induction as using List.reverseRecOn with
  | nil => exact hstart
  | append_singleton as a ih =>
    obtain ⟨hbefore, hlast⟩ := everyStep_concat.mp h
    rw [List.foldl_append]
    exact hstep as a (ih hbefore) hlast

end EveryStep

end Transition
