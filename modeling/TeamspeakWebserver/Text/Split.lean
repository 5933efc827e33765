import TeamspeakWebserver.Text.Search

/-! The pieces of a text split at a separator. -/

namespace TeamspeakWebserver.Text

section Separator

variable {α : Type*} [BEq α] [LawfulBEq α] {a b : α} {s w : List α}

lemma mem_splitOn : (∃ w ∈ s.splitOn a, b ∈ w) ↔ b ∈ s ∧ b ≠ a := by
  induction s with
  | nil => simp
  | cons c s ih =>
    rw [List.splitOn_cons_eq_if_modifyHead]
    split
    case isTrue hc =>
      obtain rfl := eq_of_beq hc
      simp only [List.mem_cons, exists_eq_or_imp, List.not_mem_nil, false_or, ih]
      tauto
    case isFalse hc =>
      have hne : c ≠ a := fun he => hc (beq_iff_eq.mpr he)
      obtain ⟨w, ws, hw⟩ := List.exists_cons_of_ne_nil (List.splitOn_ne_nil a s)
      simp only [hw, List.mem_cons, exists_eq_or_imp, List.modifyHead_cons] at ih ⊢
      constructor
      · rintro ((rfl | h) | h)
        · exact ⟨Or.inl rfl, hne⟩
        · have h := ih.mp (Or.inl h)
          exact ⟨Or.inr h.1, h.2⟩
        · have h := ih.mp (Or.inr h)
          exact ⟨Or.inr h.1, h.2⟩
      · rintro ⟨rfl | h, hb⟩
        · exact Or.inl (Or.inl rfl)
        · exact (ih.mpr ⟨h, hb⟩).imp Or.inr id

lemma not_mem_of_splitOn (h : w ∈ s.splitOn a) : a ∉ w :=
  fun ha => (mem_splitOn.mp ⟨w, h, ha⟩).2 rfl

lemma append_cons_inj {x y p q : List α} (hx : a ∉ x)
    (hy : a ∉ y) (h : x ++ a :: p = y ++ a :: q) : x = y ∧ p = q := by
  have hsplit := congrArg (List.splitOn a) h
  rw [List.splitOn_append_cons_self_of_not_mem hx, List.splitOn_append_cons_self_of_not_mem hy] at hsplit
  obtain rfl := (List.cons.inj hsplit).1
  exact ⟨rfl, (List.cons.inj (List.append_cancel_left h)).2⟩

lemma splitOn_ended_append {ws : List (List α)} (h : ∀ w ∈ ws, a ∉ w) (s : List α) :
    ((ws.flatMap fun w => w ++ [a]) ++ s).splitOn a = ws ++ s.splitOn a := by
  induction ws with
  | nil => rfl
  | cons w ws ih =>
    rw [List.flatMap_cons, List.append_assoc, List.append_assoc, List.singleton_append,
      List.splitOn_append_cons_self_of_not_mem (h w List.mem_cons_self),
      ih fun w' hw => h w' (List.mem_cons_of_mem w hw), List.cons_append]

lemma splitOn_ended {ws : List (List α)} (h : ∀ w ∈ ws, a ∉ w) :
    (ws.flatMap fun w => w ++ [a]).splitOn a = ws ++ [[]] := by
  have hsplit := splitOn_ended_append h []
  rwa [List.append_nil, List.splitOn_nil] at hsplit

lemma splitOn_flatten (a : α) (s : List α) : (s.splitOn a).flatten = s.filter fun b => !b == a := by
  induction s with
  | nil => rfl
  | cons c s ih =>
    rw [List.splitOn_cons_eq_if_modifyHead]
    split
    case isTrue hc => simp [hc, ih]
    case isFalse hc =>
      obtain ⟨w, ws, hw⟩ := List.exists_cons_of_ne_nil (List.splitOn_ne_nil a s)
      rw [hw] at ih ⊢
      simp_all

lemma splitOn_zero (a : α) (s : List α) : (s.splitOn a)[0]? = some (s.takeWhile fun b => !b == a) := by
  induction s with
  | nil => simp
  | cons c s ih =>
    rw [List.splitOn_cons_eq_if_modifyHead]
    split
    case isTrue hc => simp [hc]
    case isFalse hc =>
      obtain ⟨w, ws, hw⟩ := List.exists_cons_of_ne_nil (List.splitOn_ne_nil a s)
      rw [hw] at ih ⊢
      simp_all

end Separator

section Pattern

variable {α : Type*} [DecidableEq α] {sep pat p q s w : List α} {a b : α} {n : ℕ}

def pieces (sep : List α) : ℕ → List α → List (List α)
  | 0, s => [s]
  | n + 1, s => match find sep s with
    | none => [s]
    | some i => s.take i :: pieces sep n (s.drop (i + sep.length))

/-- The pieces of a text between the occurrences of `sep`, which is not empty. -/
def split (sep s : List α) : List (List α) := pieces sep s.length s

lemma pieces_of_absent (h : ¬ sep <:+: s) : pieces sep n s = [s] := by
  cases n with
  | zero => rfl
  | succ n => rw [pieces, find_of_absent h]

lemma pieces_first (ha : a ∉ pat) (hp : ¬ a :: pat <:+: p) :
    pieces (a :: pat) (n + 1) (p ++ (a :: pat ++ q)) = p :: pieces (a :: pat) n q := by
  rw [pieces, find_unbordered ha hp]
  simp only [List.take_left, ← List.drop_drop, List.drop_left]

lemma induction_on_split (ha : a ∉ pat) {motive : List α → Prop}
    (none : ∀ s, ¬ a :: pat <:+: s → motive s)
    (first : ∀ p q, ¬ a :: pat <:+: p → motive q → motive (p ++ (a :: pat ++ q))) (s : List α) :
    motive s := by
  induction hn : s.length using Nat.strong_induction_on generalizing s with
  | _ n ih =>
    by_cases hs : a :: pat <:+: s
    · obtain ⟨i, hi⟩ := Option.isSome_iff_exists.mp (find_isSome.mpr hs)
      obtain ⟨p, q, rfl, hp, -⟩ := (find_first ha).mp hi
      refine first p q hp (ih q.length ?_ q rfl)
      rw [← hn, List.length_append, List.length_append, List.length_cons]
      omega
    · exact none s hs

lemma pieces_fuel (ha : a ∉ pat) (h : s.length ≤ n) : pieces (a :: pat) n s = split (a :: pat) s := by
  have hmore (m : ℕ) (hm : s.length ≤ m) (k : ℕ) (hk : s.length ≤ k) :
      pieces (a :: pat) m s = pieces (a :: pat) k s := by
    clear h
    induction s using induction_on_split ha generalizing m k with
    | none s hs => rw [pieces_of_absent hs, pieces_of_absent hs]
    | first p q hp ih =>
      rw [List.length_append, List.length_append, List.length_cons] at hm hk
      obtain ⟨m, rfl⟩ := Nat.exists_eq_succ_of_ne_zero (by omega : m ≠ 0)
      obtain ⟨k, rfl⟩ := Nat.exists_eq_succ_of_ne_zero (by omega : k ≠ 0)
      rw [pieces_first ha hp, pieces_first ha hp, ih m (by omega) k (by omega)]
  exact hmore n h s.length le_rfl

lemma split_of_absent (h : ¬ sep <:+: s) : split sep s = [s] := pieces_of_absent h

lemma split_first (ha : a ∉ pat) (hp : ¬ a :: pat <:+: p) :
    split (a :: pat) (p ++ (a :: pat ++ q)) = p :: split (a :: pat) q := by
  have hlen : (p ++ (a :: pat ++ q)).length = p.length + pat.length + q.length + 1 := by
    rw [List.length_append, List.length_append, List.length_cons]
    omega
  rw [split, hlen, pieces_first ha hp, pieces_fuel ha (by omega)]

lemma split_append_sep (ha : a ∉ pat) :
    split (a :: pat) (w ++ (a :: pat ++ q)) = split (a :: pat) w ++ split (a :: pat) q := by
  induction w using induction_on_split ha with
  | none w hw => rw [split_first ha hw, split_of_absent hw, List.singleton_append]
  | first p w hp ih =>
    rw [List.append_assoc, List.append_assoc, split_first ha hp, split_first ha hp, ih,
      List.cons_append]

lemma split_flatten_append (ha : a ∉ pat) (hb : b ∉ a :: pat) :
    (split (a :: pat) (p ++ b :: q)).flatten =
      (split (a :: pat) p).flatten ++ b :: (split (a :: pat) q).flatten := by
  induction p using induction_on_split ha with
  | none p hp =>
    by_cases hq : a :: pat <:+: q
    · obtain ⟨i, hi⟩ := Option.isSome_iff_exists.mp (find_isSome.mpr hq)
      obtain ⟨q₁, q₂, rfl, hq₁, -⟩ := (find_first ha).mp hi
      have hbefore : ¬ a :: pat <:+: p ++ b :: q₁ := by
        rw [infix_separator hb, not_or]
        exact ⟨hp, hq₁⟩
      rw [← List.cons_append, ← List.append_assoc, split_first ha hbefore, split_first ha hq₁,
        split_of_absent hp]
      simp
    · have hnone : ¬ a :: pat <:+: p ++ b :: q := by
        rw [infix_separator hb, not_or]
        exact ⟨hp, hq⟩
      rw [split_of_absent hp, split_of_absent hnone, split_of_absent hq]
      simp
  | first p w hp ih =>
    rw [List.append_assoc, List.append_assoc, split_first ha hp, split_first ha hp, List.flatten_cons,
      ih, List.flatten_cons, List.append_assoc]

lemma split_ended (ha : a ∉ pat) (ws : List (List α)) (t : List α) :
    split (a :: pat) ((ws.flatMap fun w => w ++ a :: pat) ++ t) =
      ws.flatMap (split (a :: pat)) ++ split (a :: pat) t := by
  induction ws with
  | nil => rfl
  | cons w ws ih =>
    rw [List.flatMap_cons, List.append_assoc, List.append_assoc, split_append_sep ha, ih,
      List.flatMap_cons, List.append_assoc]

lemma length_split_flatten (ha : a ∉ pat) (s : List α) :
    (split (a :: pat) s).flatten.length ≤ s.length ∧
      (a :: pat <:+: s → (split (a :: pat) s).flatten.length < s.length) := by
  induction s using induction_on_split ha with
  | none s hs =>
    rw [split_of_absent hs]
    simp [hs]
  | first p q hp ih =>
    rw [split_first ha hp, List.flatten_cons]
    simp only [List.length_append, List.length_cons]
    omega

end Pattern

end TeamspeakWebserver.Text
