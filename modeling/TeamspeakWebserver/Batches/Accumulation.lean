import Mathlib.Algebra.BigOperators.Group.List.Lemmas
import Mathlib.Tactic

/-! A counter fed with batches of events. What it adds up depends on a state that is cleared after
each batch. -/

namespace TeamspeakWebserver.Batches

variable {E σ τ : Type*} [AddCommMonoid τ] (step : σ → E → σ) (gain : σ → E → τ)

def accumulate (x : σ × τ) (e : E) : σ × τ := (step x.1 e, x.2 + gain x.1 e)

def gains (s : σ) : List E → τ
  | [] => 0
  | e :: es => gain s e + gains (step s e) es

def accumulateBatch (start : σ) (x : σ × τ) (es : List E) : σ × τ :=
  (start, (es.foldl (accumulate step gain) x).2)

variable {step gain}

lemma foldl_accumulate (es : List E) (s : σ) (t : τ) :
    (es.foldl (accumulate step gain) (s, t)).2 = t + gains step gain s es := by
  induction es generalizing s t with
  | nil => exact (add_zero t).symm
  | cons e es ih =>
    rw [List.foldl_cons, accumulate, ih, gains, add_assoc]

lemma gains_filter {p : E → Bool} (h : ∀ s e, p e = false → step s e = s ∧ gain s e = 0)
    (es : List E) (s : σ) : gains step gain s (es.filter p) = gains step gain s es := by
  induction es generalizing s with
  | nil => rfl
  | cons e es ih =>
    cases he : p e with
    | true => rw [List.filter_cons_of_pos he, gains, gains, ih]
    | false =>
      obtain ⟨hs, hg⟩ := h s e he
      rw [List.filter_cons_of_neg (by simp [he]), gains, hs, hg, zero_add, ih]

lemma foldl_accumulateBatch (start : σ) (batches : List (List E)) (t : τ) :
    (batches.foldl (accumulateBatch step gain start) (start, t)).2 =
      t + (batches.map (gains step gain start)).sum := by
  induction batches generalizing t with
  | nil => exact (add_zero t).symm
  | cons es batches ih =>
    rw [List.foldl_cons, accumulateBatch, foldl_accumulate, ih, List.map_cons, List.sum_cons,
      add_assoc]

end TeamspeakWebserver.Batches
