import Mathlib.Data.List.Perm.Basic
import Mathlib.Tactic

/-! What comes out of a heap that is popped until it is empty. -/

namespace TeamspeakWebserver.Batches

variable {α : Type*}

inductive Drains (cmp : α → α → Ordering) : List α → List α → Prop
  | nil : Drains cmp [] []
  | cons {heap rest order : List α} {x : α} : heap.Perm (x :: rest) →
      (∀ y ∈ heap, cmp y x ≠ .gt) → Drains cmp rest order → Drains cmp heap (x :: order)

variable {cmp : α → α → Ordering} {heap order : List α}

lemma Drains.perm (h : Drains cmp heap order) : order.Perm heap := by
  induction h with
  | nil => exact .nil
  | cons hp _ _ ih => exact (ih.cons _).trans hp.symm

lemma Drains.pairwise (h : Drains cmp heap order) : order.Pairwise fun x y => cmp y x ≠ .gt := by
  induction h with
  | nil => exact .nil
  | cons hp hmax hd ih =>
    refine .cons (fun y hy => hmax y ?_) ih
    exact hp.symm.subset (List.mem_cons_of_mem _ (hd.perm.subset hy))

lemma drains_iff (hrefl : ∀ x, cmp x x ≠ .gt) :
    Drains cmp heap order ↔ order.Perm heap ∧ order.Pairwise fun x y => cmp y x ≠ .gt := by
  refine ⟨fun h => ⟨h.perm, h.pairwise⟩, ?_⟩
  rintro ⟨hp, ho⟩
  induction order generalizing heap with
  | nil =>
    rw [List.nil_perm.mp hp]
    exact .nil
  | cons x order ih =>
    obtain ⟨hx, ho⟩ := List.pairwise_cons.mp ho
    refine .cons hp.symm (fun y hy => ?_) (ih (List.Perm.refl order) ho)
    rcases List.mem_cons.mp (hp.symm.subset hy) with rfl | hy
    · exact hrefl y
    · exact hx y hy

end TeamspeakWebserver.Batches
