import Mathlib.Data.List.Infix
import Mathlib.Tactic

/-! The first occurrence of a pattern in a text. -/

namespace TeamspeakWebserver.Text

variable {α : Type*} [DecidableEq α]

def find (pat : List α) : List α → Option ℕ
  | [] => if pat = [] then some 0 else none
  | a :: s => if pat <+: a :: s then some 0 else (find pat s).map (· + 1)

def findFrom (pat s : List α) (start : ℕ) : Option ℕ :=
  if start ≤ s.length then (find pat (s.drop start)).map (· + start) else none

section Infix

variable {pat p q s : List α} {a b : α}

omit [DecidableEq α] in
lemma infix_append_left (h : pat <:+: p) (q : List α) : pat <:+: p ++ q :=
  h.trans (List.prefix_append p q).isInfix

omit [DecidableEq α] in
lemma infix_append_right (p : List α) (h : pat <:+: q) : pat <:+: p ++ q :=
  h.trans (List.suffix_append p q).isInfix

omit [DecidableEq α] in
lemma prefix_of_append {r : List α} (h : p ++ q = r ++ s) (hle : p.length ≤ r.length) : p <+: r :=
  List.prefix_of_prefix_length_le ⟨q, h⟩ ⟨s, rfl⟩ hle

omit [DecidableEq α] in
lemma prefix_separator (hb : b ∉ pat) (h : pat <+: p ++ b :: q) : pat <+: p := by
  induction p generalizing pat with
  | nil =>
    cases pat with
    | nil => exact List.nil_prefix
    | cons c pat =>
      rw [List.nil_append] at h
      obtain ⟨rfl, -⟩ := List.cons_prefix_cons.mp h
      exact absurd List.mem_cons_self hb
  | cons a p ih =>
    cases pat with
    | nil => exact List.nil_prefix
    | cons c pat =>
      rw [List.cons_append] at h
      obtain ⟨rfl, ht⟩ := List.cons_prefix_cons.mp h
      apply List.cons_prefix_cons.mpr
      exact ⟨rfl, ih (fun hm => hb (List.mem_cons_of_mem c hm)) ht⟩

omit [DecidableEq α] in
lemma infix_separator (hb : b ∉ pat) : pat <:+: p ++ b :: q ↔ pat <:+: p ∨ pat <:+: q := by
  constructor
  · intro h
    induction p with
    | nil =>
      rw [List.nil_append] at h
      rcases List.infix_cons_iff.mp h with hp | hi
      · exact Or.inl (prefix_separator (p := []) hb hp).isInfix
      · exact Or.inr hi
    | cons a p ih =>
      rw [List.cons_append] at h
      rcases List.infix_cons_iff.mp h with hp | hi
      · exact Or.inl (prefix_separator (p := a :: p) hb hp).isInfix
      · rcases ih hi with hl | hr
        · exact Or.inl (hl.trans (List.suffix_cons a p).isInfix)
        · exact Or.inr hr
  · rintro (h | h)
    · exact infix_append_left h _
    · exact infix_append_right p (h.trans (List.suffix_cons b q).isInfix)

omit [DecidableEq α] in
lemma infix_skip (ha : a ∉ p) : a :: pat <:+: p ++ q ↔ a :: pat <:+: q := by
  constructor
  · intro h
    induction p with
    | nil => exact h
    | cons c p ih =>
      rw [List.cons_append] at h
      rcases List.infix_cons_iff.mp h with hp | hi
      · exact absurd ((List.cons_prefix_cons.mp hp).1 ▸ List.mem_cons_self) ha
      · exact ih (fun hm => ha (List.mem_cons_of_mem c hm)) hi
  · exact infix_append_right p

end Infix

section Find

variable {pat p q s : List α} {a b : α} {i : ℕ}

lemma find_eq_none (h : find pat s = none) : ¬ pat <:+: s := by
  induction s with
  | nil =>
    intro hi
    rw [List.infix_nil.mp hi] at h
    cases h
  | cons a s ih =>
    rw [find] at h
    split at h
    case isTrue => cases h
    case isFalse hp =>
      intro hi
      rcases List.infix_cons_iff.mp hi with h1 | h1
      · exact hp h1
      · exact ih (Option.map_eq_none_iff.mp h) h1

lemma find_eq_some (h : find pat s = some i) : i ≤ s.length ∧ pat <+: s.drop i := by
  induction s generalizing i with
  | nil =>
    rw [find] at h
    split at h
    case isTrue he =>
      obtain rfl := Option.some.inj h
      rw [he]
      exact ⟨le_rfl, List.nil_prefix⟩
    case isFalse => cases h
  | cons a s ih =>
    rw [find] at h
    split at h
    case isTrue hp =>
      obtain rfl := Option.some.inj h
      exact ⟨Nat.zero_le _, hp⟩
    case isFalse =>
      obtain ⟨j, hj, rfl⟩ := Option.map_eq_some_iff.mp h
      obtain ⟨hl, hp⟩ := ih hj
      exact ⟨Nat.succ_le_succ hl, hp⟩

lemma find_isSome : (find pat s).isSome = true ↔ pat <:+: s := by
  constructor
  · intro h
    obtain ⟨i, hi⟩ := Option.isSome_iff_exists.mp h
    exact (find_eq_some hi).2.isInfix.trans (List.drop_suffix i s).isInfix
  · intro h
    cases hf : find pat s with
    | none => exact absurd h (find_eq_none hf)
    | some i => rfl

lemma find_of_absent (h : ¬ pat <:+: s) : find pat s = none := by
  cases hf : find pat s with
  | none => rfl
  | some i => exact absurd (find_isSome.mp (by rw [hf]; rfl)) h

lemma find_prefix (pat q : List α) : find pat (pat ++ q) = some 0 := by
  have hp : pat <+: pat ++ q := List.prefix_append pat q
  cases hs : pat ++ q with
  | nil =>
    rw [find, if_pos]
    exact (List.append_eq_nil_iff.mp hs).1
  | cons a s =>
    rw [hs] at hp
    rw [find, if_pos hp]

lemma find_cons (h : ¬ pat <+: a :: s) : find pat (a :: s) = (find pat s).map (· + 1) := by
  rw [find, if_neg h]

lemma find_skip (ha : a ∉ p) : find (a :: pat) (p ++ q) = (find (a :: pat) q).map (· + p.length) := by
  induction p with
  | nil =>
    simp
  | cons c p ih =>
    rw [List.cons_append, find_cons, ih fun hm => ha (List.mem_cons_of_mem c hm), Option.map_map]
    · rfl
    · intro hp
      exact ha ((List.cons_prefix_cons.mp hp).1 ▸ List.mem_cons_self)

lemma find_separator (hb : b ∉ pat) (hp : ¬ pat <:+: p) :
    find pat (p ++ b :: q) = (find pat q).map (· + (p.length + 1)) := by
  induction p with
  | nil =>
    rw [List.nil_append, find_cons]
    · rfl
    · intro h
      exact hp (prefix_separator (p := []) hb h).isInfix
  | cons c p ih =>
    rw [List.cons_append, find_cons, ih, Option.map_map]
    · rfl
    · intro h
      exact hp (h.trans (List.suffix_cons c p).isInfix)
    · intro h
      exact hp (prefix_separator (p := c :: p) hb h).isInfix

lemma find_append (h : find pat s = some i) (q : List α) : find pat (s ++ q) = some i := by
  induction s generalizing i with
  | nil =>
    rw [find] at h
    split at h
    case isTrue he =>
      obtain rfl := Option.some.inj h
      rw [he, List.nil_append]
      exact find_prefix [] q
    case isFalse => cases h
  | cons a s ih =>
    have hle := (find_eq_some h).2.isInfix.trans (List.drop_suffix i (a :: s)).isInfix
    rw [List.cons_append]
    rw [find] at h ⊢
    split at h
    case isTrue hp =>
      have hq : pat <+: a :: (s ++ q) := hp.trans (List.prefix_append (a :: s) q)
      rw [if_pos hq]
      exact h
    case isFalse hp =>
      obtain ⟨j, hj, rfl⟩ := Option.map_eq_some_iff.mp h
      rw [if_neg, ih hj, Option.map_some]
      intro hq
      exact hp (List.prefix_of_prefix_length_le hq (List.prefix_append (a :: s) q) hle.length_le)

lemma find_mem (ha : a ∉ p) (q : List α) : find [a] (p ++ a :: q) = some p.length := by
  have h0 := find_prefix [a] q
  rw [List.singleton_append] at h0
  rw [find_skip ha, h0, Option.map_some, Nat.zero_add]

lemma find_unbordered (ha : a ∉ pat) (hp : ¬ a :: pat <:+: p) :
    find (a :: pat) (p ++ (a :: pat ++ q)) = some p.length := by
  induction p with
  | nil => exact find_prefix (a :: pat) q
  | cons c p ih =>
    rw [List.cons_append, find_cons, ih, Option.map_some, List.length_cons]
    · intro hi
      exact hp (hi.trans (List.suffix_cons c p).isInfix)
    · intro h
      obtain ⟨rfl, ht⟩ := List.cons_prefix_cons.mp h
      exact hp (List.cons_prefix_cons.mpr ⟨rfl, prefix_separator ha ht⟩).isInfix

lemma find_first (ha : a ∉ pat) : find (a :: pat) s = some i ↔
    ∃ p q, s = p ++ (a :: pat ++ q) ∧ ¬ a :: pat <:+: p ∧ p.length = i := by
  constructor
  · intro h
    obtain ⟨hle, q, hq⟩ := find_eq_some h
    have hs : s = s.take i ++ (a :: pat ++ q) := by
      rw [hq, List.take_append_drop]
    refine ⟨s.take i, q, hs, ?_, List.length_take_of_le hle⟩
    intro hi
    obtain ⟨j, hj⟩ := Option.isSome_iff_exists.mp (find_isSome.mpr hi)
    have hij := find_append hj (a :: pat ++ q)
    rw [← hs, h] at hij
    obtain rfl := Option.some.inj hij
    have hlen := (find_eq_some hj).2.length_le
    rw [List.length_drop, List.length_take_of_le hle, List.length_cons] at hlen
    omega
  · rintro ⟨p, q, rfl, hp, rfl⟩
    exact find_unbordered ha hp

lemma find_singleton : find [a] s = some i ↔ ∃ p q, s = p ++ a :: q ∧ a ∉ p ∧ p.length = i := by
  rw [find_first List.not_mem_nil]
  simp only [List.singleton_infix_iff, List.singleton_append]

lemma findFrom_mem {j : ℕ} : findFrom [a] s i = some j ↔
    ∃ p w q, s = p ++ (w ++ a :: q) ∧ p.length = i ∧ a ∉ w ∧ i + w.length = j := by
  rw [findFrom]
  constructor
  · intro h
    split at h
    case isFalse => cases h
    case isTrue hle =>
      obtain ⟨k, hk, rfl⟩ := Option.map_eq_some_iff.mp h
      obtain ⟨w, q, hw, ha, rfl⟩ := find_singleton.mp hk
      refine ⟨s.take i, w, q, ?_, List.length_take_of_le hle, ha, Nat.add_comm _ _⟩
      rw [← hw, List.take_append_drop]
  · rintro ⟨p, w, q, rfl, rfl, ha, rfl⟩
    rw [if_pos (by rw [List.length_append]; omega), List.drop_left, find_mem ha, Option.map_some,
      Nat.add_comm]

end Find

end TeamspeakWebserver.Text
