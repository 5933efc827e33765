import Mathlib.Logic.Relation
import Mathlib.Tactic

/-! Runs of a system that takes labelled steps, all of which meet a condition. -/

namespace TeamspeakWebserver.Labelled

open Relation

variable {σ ℓ : Type*} {step : σ → ℓ → Option σ} {ok : σ → ℓ → Bool} {s s' : σ}

def Steps (step : σ → ℓ → Option σ) (ok : σ → ℓ → Bool) (s s' : σ) : Prop :=
  ∃ l, ok s l = true ∧ step s l = some s'

abbrev Reaches (step : σ → ℓ → Option σ) (ok : σ → ℓ → Bool) : σ → σ → Prop :=
  ReflTransGen (Steps step ok)

def free (_ : σ) (_ : ℓ) : Bool := true

/-- A step that breaks `ok` is refused. -/
def run (step : σ → ℓ → Option σ) (ok : σ → ℓ → Bool) : σ → List ℓ → Option σ
  | s, [] => some s
  | s, l :: ls => if ok s l then (step s l).bind fun t => run step ok t ls else none

lemma reaches_of_run {ls : List ℓ} (h : run step ok s ls = some s') : Reaches step ok s s' := by
  induction ls generalizing s with
  | nil =>
    obtain rfl := Option.some.inj h
    exact .refl
  | cons l ls ih =>
    rw [run] at h
    split at h
    case isTrue hok =>
      obtain ⟨t, ht, hrest⟩ := Option.bind_eq_some_iff.mp h
      exact .head ⟨l, hok, ht⟩ (ih hrest)
    case isFalse => cases h

lemma Reaches.invariant {I : σ → Prop} (h : Reaches step ok s s') (h0 : I s)
    (hstep : ∀ t l t', I t → ok t l = true → step t l = some t' → I t') : I s' := by
  induction h with
  | refl => exact h0
  | tail _ hs ih =>
    obtain ⟨l, hok, hs⟩ := hs
    exact hstep _ l _ ih hok hs

end TeamspeakWebserver.Labelled
