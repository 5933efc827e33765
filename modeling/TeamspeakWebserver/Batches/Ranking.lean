import Mathlib.Data.List.Sort
import Mathlib.Tactic

/-! The places of the elements of a list in a stable descending sort. -/

namespace TeamspeakWebserver.Batches

variable {α κ : Type*} [LinearOrder κ] (key : α → κ)

def Precedes (p q : α × ℕ) : Prop := key q.1 < key p.1 ∨ key p.1 = key q.1 ∧ p.2 < q.2

instance (p q : α × ℕ) : Decidable (Precedes key p q) :=
  inferInstanceAs (Decidable (_ ∨ _))

structure Ranked (as : List α) (ranked : List (α × ℕ)) : Prop where
  perm : ranked.Perm as.zipIdx
  descends : ranked.Pairwise (Precedes key)

def rank (as : List α) (p : α × ℕ) : ℕ := as.zipIdx.countP fun q => Precedes key q p

variable {key} {as : List α} {ranked ranked' : List (α × ℕ)} {p q : α × ℕ}

lemma Precedes.asymm (h : Precedes key p q) : ¬ Precedes key q p := by
  rintro (hk | ⟨hk, hi⟩)
  · rcases h with hk' | ⟨hk', -⟩
    · exact lt_asymm hk hk'
    · exact hk.ne hk'
  · rcases h with hk' | ⟨-, hi'⟩
    · exact hk'.ne hk
    · exact lt_asymm hi hi'

lemma Ranked.unique (h : Ranked key as ranked) (h' : Ranked key as ranked') : ranked = ranked' := by
  refine List.Perm.eq_of_pairwise ?_ h.descends h'.descends (h.perm.trans h'.perm.symm)
  intro p q _ _ hpq hqp
  exact absurd hqp hpq.asymm

lemma Ranked.rank_eq (h : Ranked key as ranked) {before after : List (α × ℕ)}
    (hp : ranked = before ++ p :: after) : rank key as p = before.length := by
  have hd := h.descends
  rw [hp, List.pairwise_append, List.pairwise_cons] at hd
  obtain ⟨-, ⟨hafter, -⟩, hbefore⟩ := hd
  rw [rank, ← h.perm.countP_eq, hp, List.countP_append, List.countP_eq_length.mpr, Nat.add_eq_left,
    List.countP_eq_zero]
  · intro q hq
    rw [decide_eq_true_eq]
    rcases List.mem_cons.mp hq with rfl | hq
    · exact fun hqq => hqq.asymm hqq
    · exact (hafter q hq).asymm
  · intro q hq
    exact decide_eq_true (hbefore q hq p List.mem_cons_self)

lemma Ranked.mem_take (h : Ranked key as ranked) {n : ℕ} :
    p ∈ ranked.take n ↔ p ∈ as.zipIdx ∧ rank key as p < n := by
  rw [← h.perm.mem_iff]
  constructor
  · intro hp
    obtain ⟨before, after, htake⟩ := List.append_of_mem hp
    have hranked : ranked = before ++ p :: (after ++ ranked.drop n) := by
      rw [← List.cons_append, ← List.append_assoc, ← htake, List.take_append_drop]
    refine ⟨List.mem_of_mem_take hp, ?_⟩
    have hlen := List.length_take_le n ranked
    rw [htake, List.length_append, List.length_cons] at hlen
    rw [h.rank_eq hranked]
    omega
  · rintro ⟨hp, hn⟩
    obtain ⟨before, after, hranked⟩ := List.append_of_mem hp
    rw [h.rank_eq hranked] at hn
    rw [hranked, List.take_append, List.take_cons (by omega)]
    exact List.mem_append_right _ List.mem_cons_self

lemma exists_ranked (key : α → κ) (as : List α) : ∃ ranked, Ranked key as ranked ∧
    ranked.map Prod.fst = as.mergeSort fun a b => key b ≤ key a := by
  let le (a b : α) : Bool := key b ≤ key a
  refine ⟨as.zipIdx.mergeSort (List.zipIdxLE le), ⟨List.mergeSort_perm .., ?_⟩,
    List.mergeSort_zipIdx⟩
  have htrans (a b c : α) (hab : le a b) (hbc : le b c) : le a c := by
    simp only [le, decide_eq_true_eq] at *
    exact hbc.trans hab
  have htotal (a b : α) : le a b || le b a := by
    simpa [le] using le_total (key b) (key a)
  have hsorted := List.pairwise_mergeSort (List.zipIdxLE_trans htrans) (List.zipIdxLE_total htotal)
    as.zipIdx
  have hpos : (as.zipIdx.mergeSort (List.zipIdxLE le)).Pairwise fun p q => p.2 ≠ q.2 := by
    have hn : (as.zipIdx.map Prod.snd).Nodup := by
      rw [List.zipIdx_map_snd]
      exact List.nodup_range'
    exact List.pairwise_map.mp (((List.mergeSort_perm ..).map Prod.snd).nodup_iff.mpr hn)
  refine hsorted.imp₂ (fun p q hle hne => ?_) hpos
  simp only [List.zipIdxLE, le, decide_eq_true_eq] at hle
  split at hle
  case isTrue hqp =>
    split at hle
    case isTrue hpq =>
      refine Or.inr ⟨le_antisymm hpq hqp, ?_⟩
      exact lt_of_le_of_ne (of_decide_eq_true hle) hne
    case isFalse hpq => exact Or.inl (not_le.mp hpq)
  case isFalse => cases hle

end TeamspeakWebserver.Batches
