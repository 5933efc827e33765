import TeamspeakWebserver.Linked.Ring

/-! The circular lists seen from any of their nodes, and what changes in the memory around them. -/

namespace TeamspeakWebserver.Linked

variable {α : Type*} [DecidableEq α] {l l' l'' : Links α} {a b x y head new : α} {xs ys zs s : List α}

def Unchanged (l l' : Links α) (s : List α) : Prop :=
  ∀ y ∉ s, l'.next y = l.next y ∧ l'.prev y = l.prev y

section Turns

omit [DecidableEq α]

lemma Links.eq_of_fields (hnext : l.next = l'.next) (hprev : l.prev = l'.prev) : l = l' := by
  cases l
  cases l'
  rw [Links.mk.injEq]
  exact ⟨hnext, hprev⟩

lemma Ring.rotate (h : Ring l head (ys ++ x :: zs)) : Ring l x (zs ++ head :: ys) where
  nodup := by
    have hperm : (x :: (zs ++ head :: ys)).Perm (head :: (ys ++ x :: zs)) := by
      rw [← List.cons_append, ← List.cons_append]
      exact List.perm_append_comm
    exact hperm.nodup_iff.mpr h.nodup
  chain := chain_append.mpr (chain_append.mp h.chain).symm

lemma Chain.next_prev (h : Chain l a xs b) : l.next (l.prev b) = b := by
  induction xs generalizing a with
  | nil => rw [h.2, h.1]
  | cons x xs ih => exact ih h.2

lemma Chain.prev_next (h : Chain l a xs b) : l.prev (l.next a) = a := by
  cases xs with
  | nil => rw [h.1, h.2]
  | cons x xs => rw [h.1.1, h.1.2]

lemma Ring.turn (h : Ring l head xs) (hx : x ∈ head :: xs) :
    ∃ ys, Ring l x ys ∧ (x :: ys).Perm (head :: xs) := by
  rcases List.mem_cons.mp hx with rfl | hx
  · exact ⟨xs, h, List.Perm.refl _⟩
  · obtain ⟨ys, zs, rfl⟩ := List.append_of_mem hx
    refine ⟨zs ++ head :: ys, h.rotate, ?_⟩
    rw [← List.cons_append, ← List.cons_append]
    exact List.perm_append_comm

lemma Ring.next_prev (h : Ring l head xs) (hx : x ∈ head :: xs) : l.next (l.prev x) = x := by
  obtain ⟨ys, hys, -⟩ := h.turn hx
  exact hys.chain.next_prev

lemma Ring.prev_next (h : Ring l head xs) (hx : x ∈ head :: xs) : l.prev (l.next x) = x := by
  obtain ⟨ys, hys, -⟩ := h.turn hx
  exact hys.chain.prev_next

lemma Ring.next_mem (h : Ring l head xs) (hx : x ∈ head :: xs) : l.next x ∈ head :: xs := by
  obtain ⟨ys, hys, hperm⟩ := h.turn hx
  have hm := hys.chain.next_mem
  rw [List.mem_append, List.mem_singleton, or_comm, ← List.mem_cons] at hm
  exact hperm.mem_iff.mp hm

lemma Ring.prev_mem (h : Ring l head xs) (hx : x ∈ head :: xs) : l.prev x ∈ head :: xs := by
  obtain ⟨ys, hys, hperm⟩ := h.turn hx
  exact hperm.mem_iff.mp hys.chain.prev_mem

lemma Ring.next_ne (h : Ring l head (ys ++ x :: zs)) : l.next x ≠ x := by
  intro he
  obtain ⟨hnodup, hchain⟩ := h.rotate
  rw [List.nodup_cons] at hnodup
  cases zs with
  | nil => exact hnodup.1 (List.mem_cons.mpr (Or.inl (he.symm.trans hchain.1.1)))
  | cons z zs => exact hnodup.1 (List.mem_cons.mpr (Or.inl (he.symm.trans hchain.1.1)))

lemma Ring.congr (h : Ring l head xs) (hnext : ∀ y ∈ head :: xs, l'.next y = l.next y)
    (hprev : ∀ y ∈ head :: xs, l'.prev y = l.prev y) : Ring l' head xs where
  nodup := h.nodup
  chain := by
    apply h.chain.congr hnext
    intro y hy
    rw [List.mem_append, List.mem_singleton, or_comm, ← List.mem_cons] at hy
    exact hprev y hy

lemma Unchanged.trans (h : Unchanged l l' s) (h' : Unchanged l' l'' s) : Unchanged l l'' s :=
  fun y hy => ⟨(h' y hy).1.trans (h y hy).1, (h' y hy).2.trans (h y hy).2⟩

lemma Unchanged.mono {t : List α} (h : Unchanged l l' s) (hst : s ⊆ t) : Unchanged l l' t :=
  fun y hy => h y fun hm => hy (hst hm)

lemma Ring.of_unchanged (h : Ring l head xs) (hl : Unchanged l l' s) (hs : ∀ y ∈ head :: xs, y ∉ s) :
    Ring l' head xs :=
  h.congr (fun y hy => (hl y (hs y hy)).1) fun y hy => (hl y (hs y hy)).2

lemma Chain.prev_eq (h : Chain l a xs b) : l.prev b = xs.getLastD a := by
  induction xs generalizing a with
  | nil => exact h.2
  | cons x xs ih => rw [ih h.2, List.getLastD_cons]

lemma Chain.next_eq (h : Chain l a xs b) : l.next a = xs.headD b := by
  cases xs with
  | nil => exact h.1
  | cons x xs => exact h.1.1

lemma Ring.prev_eq (h : Ring l head (xs ++ y :: ys)) : l.prev y = xs.getLastD head :=
  (chain_append.mp h.chain).1.prev_eq

end Turns

section Changes

lemma Ring.insert (h : Ring l head (ys ++ x :: zs)) (hn : new ∉ head :: (ys ++ x :: zs)) :
    Ring (l.add new x) head (ys ++ x :: new :: zs) := by
  have hturned : new ∉ x :: (zs ++ head :: ys) := by
    simp only [List.mem_cons, List.mem_append, not_or] at hn ⊢
    exact ⟨hn.2.2.1, hn.2.2.2, hn.1, hn.2.1⟩
  have hadd := h.rotate.add hturned
  rw [← List.cons_append] at hadd
  exact hadd.rotate

lemma Ring.insert_behind (h : Ring l head (xs ++ ys)) (hn : new ∉ head :: (xs ++ ys)) :
    Ring (l.add new (xs.getLastD head)) head (xs ++ new :: ys) := by
  rcases List.eq_nil_or_concat' xs with rfl | ⟨xs, x, rfl⟩
  · exact h.add hn
  · rw [List.getLastD_concat]
    rw [List.append_assoc, List.singleton_append] at h hn ⊢
    exact h.insert hn

lemma Ring.remove (h : Ring l head (ys ++ x :: zs)) : Ring (l.del x) head (ys ++ zs) := by
  have hdel := h.del (List.mem_append_right ys List.mem_cons_self)
  have hx : x ∉ ys := by
    have hnodup := (List.nodup_append.mp (List.nodup_cons.mp h.nodup).2).2.2
    exact fun hm => hnodup x hm x List.mem_cons_self rfl
  rwa [List.erase_append_right _ hx, List.erase_cons_head] at hdel

lemma Ring.add_unchanged (h : Ring l head xs) (hx : x ∈ head :: xs) (new : α) :
    Unchanged l (l.add new x) (new :: head :: xs) := by
  intro y hy
  rw [List.mem_cons, not_or] at hy
  have hne : y ≠ x := fun he => hy.2 (he ▸ hx)
  have hnext : y ≠ l.next x := fun he => hy.2 (he ▸ h.next_mem hx)
  refine ⟨?_, ?_⟩
  · rw [Links.add_next, Function.update_of_ne hne, Function.update_of_ne hy.1]
  · rw [Links.add_prev, Function.update_of_ne hy.1, Function.update_of_ne hnext]

lemma Ring.del_unchanged (h : Ring l head xs) (hx : x ∈ head :: xs) :
    Unchanged l (l.del x) (head :: xs) := by
  intro y hy
  have hprev : y ≠ l.prev x := fun he => hy (he ▸ h.prev_mem hx)
  have hnext : y ≠ l.next x := fun he => hy (he ▸ h.next_mem hx)
  refine ⟨?_, ?_⟩
  · rw [Links.del_next, Function.update_of_ne hprev]
  · rw [Links.del_prev, Function.update_of_ne hnext]

end Changes

end TeamspeakWebserver.Linked
