import Mathlib.Logic.Function.Basic
import Mathlib.Tactic

/-! Circular doubly linked lists in a memory of nodes. -/

namespace TeamspeakWebserver.Linked

variable {α : Type*} [DecidableEq α]

structure Links (α : Type*) where
  next : α → α
  prev : α → α

namespace Links

def init (l : Links α) (a : α) : Links α where
  next := Function.update l.next a a
  prev := Function.update l.prev a a

lemma init_next (l : Links α) (a : α) : (l.init a).next = Function.update l.next a a :=
  rfl

lemma init_prev (l : Links α) (a : α) : (l.init a).prev = Function.update l.prev a a :=
  rfl

def add (l : Links α) (new curr : α) : Links α where
  next := Function.update (Function.update l.next new (l.next curr)) curr new
  prev := Function.update (Function.update l.prev (l.next curr) new) new curr

lemma add_next (l : Links α) (new curr : α) : (l.add new curr).next =
    Function.update (Function.update l.next new (l.next curr)) curr new :=
  rfl

lemma add_prev (l : Links α) (new curr : α) : (l.add new curr).prev =
    Function.update (Function.update l.prev (l.next curr) new) new curr :=
  rfl

def del (l : Links α) (a : α) : Links α where
  next := Function.update l.next (l.prev a) (l.next a)
  prev := Function.update l.prev (l.next a) (l.prev a)

lemma del_next (l : Links α) (a : α) :
    (l.del a).next = Function.update l.next (l.prev a) (l.next a) :=
  rfl

lemma del_prev (l : Links α) (a : α) :
    (l.del a).prev = Function.update l.prev (l.next a) (l.prev a) :=
  rfl

/-- The first node from `pos` on that is looked for, or `none` at the head of the list. Without fuel
the walk is not over. -/
def find (l : Links α) (p : α → Bool) (head : α) : ℕ → α → Option (Option α)
  | 0, _ => none
  | n + 1, pos => if pos = head then some none else if p pos then some (some pos)
      else l.find p head n (l.next pos)

end Links

def Chain (l : Links α) : α → List α → α → Prop
  | a, [], b => l.next a = b ∧ l.prev b = a
  | a, x :: xs, b => (l.next a = x ∧ l.prev x = a) ∧ Chain l x xs b

structure Ring (l : Links α) (head : α) (xs : List α) : Prop where
  nodup : (head :: xs).Nodup
  chain : Chain l head xs head

section Chain

variable {l l' : Links α} {a b x y head new : α} {xs ys zs : List α}

omit [DecidableEq α] in
lemma Chain.congr (h : Chain l a xs b) (hnext : ∀ y ∈ a :: xs, l'.next y = l.next y)
    (hprev : ∀ y ∈ xs ++ [b], l'.prev y = l.prev y) : Chain l' a xs b := by
  induction xs generalizing a with
  | nil => exact ⟨(hnext a List.mem_cons_self).trans h.1, (hprev b List.mem_cons_self).trans h.2⟩
  | cons x xs ih =>
    refine ⟨⟨(hnext a List.mem_cons_self).trans h.1.1, (hprev x List.mem_cons_self).trans h.1.2⟩, ?_⟩
    apply ih h.2
    · exact fun y hy => hnext y (List.mem_cons_of_mem a hy)
    · exact fun y hy => hprev y (List.mem_cons_of_mem x hy)

omit [DecidableEq α] in
lemma chain_append : Chain l a (xs ++ y :: ys) b ↔ Chain l a xs y ∧ Chain l y ys b := by
  induction xs generalizing a with
  | nil => exact Iff.rfl
  | cons x xs ih =>
    rw [List.cons_append, Chain, ih, Chain, and_assoc (b := Chain l x xs y)]

omit [DecidableEq α] in
lemma Chain.next_mem (h : Chain l a xs b) : l.next a ∈ xs ++ [b] := by
  cases xs with
  | nil => exact List.mem_singleton.mpr h.1
  | cons x xs =>
    rw [h.1.1]
    exact List.mem_cons_self

omit [DecidableEq α] in
lemma Chain.prev_mem (h : Chain l a xs b) : l.prev b ∈ a :: xs := by
  induction xs generalizing a with
  | nil => exact List.mem_singleton.mpr h.2
  | cons x xs ih => exact List.mem_cons_of_mem a (ih h.2)

lemma Chain.find (h : Chain l a xs b) (hb : b ∉ xs) (p : α → Bool) {n : ℕ} (hn : xs.length < n) :
    l.find p b n (l.next a) = some (xs.find? p) := by
  induction xs generalizing a n with
  | nil =>
    obtain ⟨n, rfl⟩ := Nat.exists_eq_succ_of_ne_zero (Nat.pos_iff_ne_zero.mp hn)
    rw [h.1, Links.find, if_pos rfl, List.find?_nil]
  | cons x xs ih =>
    rw [List.mem_cons, not_or] at hb
    rw [List.length_cons] at hn
    obtain ⟨n, rfl⟩ := Nat.exists_eq_succ_of_ne_zero (by omega : n ≠ 0)
    rw [h.1.1, Links.find, if_neg (Ne.symm hb.1), List.find?_cons]
    by_cases hp : p x = true
    · rw [if_pos hp, hp]
    · rw [if_neg hp, ih h.2 hb.2 (by omega)]
      simp [hp]

omit [DecidableEq α] in
lemma Chain.unique (h : Chain l a xs b) (h' : Chain l a ys b) (hx : b ∉ xs) (hy : b ∉ ys) :
    xs = ys := by
  induction xs generalizing a ys with
  | nil =>
    cases ys with
    | nil => rfl
    | cons y ys =>
      rw [List.mem_cons, not_or] at hy
      exact absurd (h.1.symm.trans h'.1.1) hy.1
  | cons x xs ih =>
    rw [List.mem_cons, not_or] at hx
    cases ys with
    | nil => exact absurd (h'.1.symm.trans h.1.1) hx.1
    | cons y ys =>
      rw [List.mem_cons, not_or] at hy
      obtain rfl : x = y := h.1.1.symm.trans h'.1.1
      rw [ih h.2 h'.2 hx.2 hy.2]

lemma Chain.del_first (ha : l.next a = x) (hx : l.prev x = a) (h : Chain l x zs b)
    (hn : (a :: x :: zs).Nodup) (hb : b ∉ x :: zs) : Chain (l.del x) a zs b := by
  rw [List.nodup_cons, List.mem_cons, not_or, List.nodup_cons] at hn
  cases zs with
  | nil =>
    have hxb : l.next x = b := h.1
    refine ⟨?_, ?_⟩
    · rw [Links.del_next, hx, Function.update_self, hxb]
    · rw [Links.del_prev, hxb, Function.update_self, hx]
  | cons z zs =>
    obtain ⟨⟨hxz, -⟩, hrest⟩ := h
    simp only [List.mem_cons, not_or, List.nodup_cons] at hn hb
    refine ⟨⟨?_, ?_⟩, hrest.congr ?_ ?_⟩
    · rw [Links.del_next, hx, Function.update_self, hxz]
    · rw [Links.del_prev, hxz, Function.update_self, hx]
    · intro y hy
      rw [Links.del_next, hx]
      apply Function.update_of_ne
      rintro rfl
      rcases List.mem_cons.mp hy with rfl | hy
      · exact hn.1.2.1 rfl
      · exact hn.1.2.2 hy
    · intro y hy
      rw [Links.del_prev, hxz]
      apply Function.update_of_ne
      rintro rfl
      rcases List.mem_append.mp hy with hy | hy
      · exact hn.2.2.1 hy
      · exact hb.2.1 (List.mem_singleton.mp hy).symm

lemma Chain.del (h : Chain l a ys x) (h' : Chain l x zs b) (hn : (a :: (ys ++ x :: zs)).Nodup)
    (hb : b ∉ ys ++ x :: zs) : Chain (l.del x) a (ys ++ zs) b := by
  induction ys generalizing a with
  | nil => exact Chain.del_first h.1 h.2 h' hn hb
  | cons y ys ih =>
    rw [List.nodup_cons, List.cons_append] at hn
    rw [List.cons_append, List.mem_cons, not_or] at hb
    refine ⟨⟨?_, ?_⟩, ih h.2 hn.2 hb.2⟩
    · rw [Links.del_next]
      refine (Function.update_of_ne ?_ _ _).trans h.1.1
      rintro rfl
      apply hn.1
      rw [← List.cons_append]
      exact List.mem_append_left _ h.2.prev_mem
    · rw [Links.del_prev]
      refine (Function.update_of_ne ?_ _ _).trans h.1.2
      rintro rfl
      rcases List.mem_append.mp h'.next_mem with hm | hm
      · exact (List.nodup_cons.mp hn.2).1 (List.mem_append_right ys (List.mem_cons_of_mem x hm))
      · exact hb.1 (List.mem_singleton.mp hm).symm

lemma Ring.init (l : Links α) (head : α) : Ring (l.init head) head [] where
  nodup := List.nodup_singleton head
  chain := by
    refine ⟨?_, ?_⟩
    · rw [Links.init_next, Function.update_self]
    · rw [Links.init_prev, Function.update_self]

lemma Links.add_next_new (hn : new ≠ head) : (l.add new head).next new = l.next head := by
  rw [Links.add_next, Function.update_of_ne hn, Function.update_self]

lemma Links.add_prev_first (hn : l.next head ≠ new) : (l.add new head).prev (l.next head) = new := by
  rw [Links.add_prev, Function.update_of_ne hn, Function.update_self]

lemma Chain.add (h : Chain l x xs head) (hx : l.next head = x) (hn : new ∉ head :: x :: xs)
    (hnodup : (head :: x :: xs).Nodup) : Chain (l.add new head) x xs head := by
  simp only [List.mem_cons, not_or] at hn
  simp only [List.nodup_cons, List.mem_cons, not_or] at hnodup
  apply h.congr
  · intro y hy
    have hne : y ≠ head ∧ y ≠ new := by
      rcases List.mem_cons.mp hy with rfl | hy
      · exact ⟨Ne.symm hnodup.1.1, Ne.symm hn.2.1⟩
      · exact ⟨fun he => hnodup.1.2 (he ▸ hy), fun he => hn.2.2 (he ▸ hy)⟩
    rw [Links.add_next, Function.update_of_ne hne.1, Function.update_of_ne hne.2]
  · intro y hy
    have hne : y ≠ new ∧ y ≠ x := by
      rcases List.mem_append.mp hy with hy | hy
      · exact ⟨fun he => hn.2.2 (he ▸ hy), fun he => hnodup.2.1 (he ▸ hy)⟩
      · rw [List.mem_singleton.mp hy]
        exact ⟨Ne.symm hn.1, hnodup.1.1⟩
    rw [Links.add_prev, hx, Function.update_of_ne hne.1, Function.update_of_ne hne.2]

lemma Ring.add (h : Ring l head xs) (hn : new ∉ head :: xs) : Ring (l.add new head) head (new :: xs) := by
  obtain ⟨hnodup, hchain⟩ := h
  have hhead : new ≠ head := fun he => hn (he ▸ List.mem_cons_self)
  have hfirst : l.next head ≠ new := by
    rintro rfl
    rcases List.mem_append.mp hchain.next_mem with hm | hm
    · exact hn (List.mem_cons_of_mem head hm)
    · exact hhead (List.mem_singleton.mp hm)
  refine ⟨?_, ⟨?_, ?_⟩, ?_⟩
  · rw [List.nodup_cons] at hnodup ⊢
    rw [List.mem_cons, not_or] at hn
    exact ⟨List.not_mem_cons_of_ne_of_not_mem (Ne.symm hhead) hnodup.1,
      List.nodup_cons.mpr ⟨hn.2, hnodup.2⟩⟩
  · rw [Links.add_next, Function.update_self]
  · rw [Links.add_prev, Function.update_self]
  · have hnext := Links.add_next_new hhead (l := l)
    have hprev := Links.add_prev_first hfirst
    cases xs with
    | nil =>
      rw [hchain.1] at hnext hprev
      exact ⟨hnext, hprev⟩
    | cons x xs =>
      have hx : l.next head = x := hchain.1.1
      have hrest := hchain.2.add hx hn hnodup
      rw [hx] at hnext hprev
      exact ⟨⟨hnext, hprev⟩, hrest⟩

lemma Ring.del (h : Ring l head xs) (hx : x ∈ xs) : Ring (l.del x) head (xs.erase x) := by
  obtain ⟨hnodup, hchain⟩ := h
  obtain ⟨ys, zs, rfl⟩ := List.append_of_mem hx
  have hys : x ∉ ys := by
    rw [List.nodup_cons, List.nodup_append] at hnodup
    exact fun hm => hnodup.2.2.2 x hm x List.mem_cons_self rfl
  rw [List.erase_append_right _ hys, List.erase_cons_head]
  obtain ⟨hbefore, hbehind⟩ := chain_append.mp hchain
  refine ⟨?_, hbefore.del hbehind hnodup (List.nodup_cons.mp hnodup).1⟩
  have hsub : (ys ++ zs).Sublist (ys ++ x :: zs) :=
    (List.append_sublist_append_left ys).mpr (List.sublist_cons_self x zs)
  exact List.Nodup.sublist (hsub.cons_cons head) hnodup

lemma Ring.find (h : Ring l head xs) (p : α → Bool) {n : ℕ} (hn : xs.length < n) :
    l.find p head n (l.next head) = some (xs.find? p) :=
  h.chain.find (List.nodup_cons.mp h.nodup).1 p hn

omit [DecidableEq α] in
lemma Ring.unique (h : Ring l head xs) (h' : Ring l head ys) : xs = ys :=
  h.chain.unique h'.chain (List.nodup_cons.mp h.nodup).1 (List.nodup_cons.mp h'.nodup).1

end Chain

end TeamspeakWebserver.Linked
