import TeamspeakWebserver.Linked.Sequence

/-! The lists of `man/list.h`. -/

namespace TeamspeakWebserver.Lists

open Linked

variable {α : Type*} [DecidableEq α]

def setNext (l : Links α) (a b : α) : Links α := ⟨Function.update l.next a b, l.prev⟩

def setPrev (l : Links α) (a b : α) : Links α := ⟨l.next, Function.update l.prev a b⟩

/-! The assignments stand in the order of the source. A pointer that an assignment reads is read from
the memory that the ones before it have left. -/

/-- `__list_add_post` -/
def addBetweenPost (l : Links α) (new prev next : α) : Links α :=
  let l := setPrev l next new
  let l := setNext l new next
  let l := setPrev l new prev
  setNext l prev new

def listAddPost (l : Links α) (nw curr : α) : Links α := addBetweenPost l nw curr (l.next curr)

/-- `__list_add_prev` -/
def addBetweenPrev (l : Links α) (new curr prev : α) : Links α :=
  let l := setPrev l new prev
  let l := setNext l new curr
  let l := setNext l prev new
  setPrev l curr new

def listAddPrev (l : Links α) (lNew r : α) : Links α := addBetweenPrev l lNew r (l.prev r)

/-- `__list_del` -/
def delBetween (l : Links α) (prev next : α) : Links α :=
  let l := setPrev l next prev
  setNext l prev next

def listDel (l : Links α) (entry : α) : Links α := delBetween l (l.prev entry) (l.next entry)

def listMove (l : Links α) (a head : α) : Links α :=
  let l := listDel l a
  listAddPost l a head

def listReplace (l : Links α) (old new : α) : Links α :=
  let l := setNext l new (l.next old)
  let l := setPrev l (l.next new) new
  let l := setPrev l new (l.prev old)
  setNext l (l.prev new) new

def listSwap (l : Links α) (entry1 entry2 : α) : Links α :=
  let p := l.prev entry2
  let l := listDel l entry2
  let l := listReplace l entry1 entry2
  let p := if p = entry1 then entry2 else p
  listAddPost l entry1 p

/-- An operation has turned the list of entries `xs` into `xs'`, and nothing else has changed. -/
structure Becomes (l l' : Links α) (head : α) (xs xs' : List α) : Prop where
  ring : Ring l' head xs'
  unchanged : Unchanged l l' (head :: (xs ++ xs'))

section Writes

variable {l : Links α} {old new r : α}

lemma listAddPost_eq (l : Links α) (nw curr : α) : listAddPost l nw curr = l.add nw curr :=
  rfl

lemma listDel_eq (l : Links α) (entry : α) : listDel l entry = l.del entry :=
  rfl

lemma listAddPrev_eq (hr : l.next (l.prev r) = r) (hn : new ≠ r) :
    listAddPrev l new r = l.add new (l.prev r) := by
  apply Links.eq_of_fields
  · rw [Links.add_next, hr]
    rfl
  · rw [Links.add_prev, hr, Function.update_comm hn.symm]
    rfl

lemma listReplace_next (hold : l.next old ≠ old) : (listReplace l old new).next =
    Function.update (Function.update l.next new (l.next old)) (l.prev old) new := by
  simp [listReplace, setNext, setPrev, Function.update_of_ne hold.symm]

lemma listReplace_prev (hold : l.next old ≠ old) : (listReplace l old new).prev =
    Function.update (Function.update l.prev (l.next old) new) new (l.prev old) := by
  simp [listReplace, setNext, setPrev, Function.update_of_ne hold.symm]

end Writes

section Operations

variable {l : Links α} {a b old new curr x head : α} {xs ys zs ws : List α}

lemma listAddPost_ring (h : Ring l head xs) (hn : new ∉ head :: xs) (hc : head :: xs = ys ++ curr :: zs) :
    ∃ xs', head :: xs' = ys ++ curr :: new :: zs ∧ Ring (listAddPost l new curr) head xs' := by
  rw [listAddPost_eq]
  cases ys with
  | nil =>
    obtain ⟨rfl, rfl⟩ := List.cons.inj hc
    exact ⟨new :: xs, rfl, h.add hn⟩
  | cons y ys =>
    obtain ⟨rfl, rfl⟩ := List.cons.inj hc
    exact ⟨ys ++ curr :: new :: zs, rfl, h.insert hn⟩

lemma listAddPrev_ring (h : Ring l head xs) (hn : new ∉ head :: xs) (hc : xs ++ [head] = ys ++ curr :: zs) :
    ∃ xs', xs' ++ [head] = ys ++ new :: curr :: zs ∧ Ring (listAddPrev l new curr) head xs' := by
  have hmem : curr ∈ head :: xs := by
    rw [List.mem_cons, or_comm, ← List.mem_singleton, ← List.mem_append, hc]
    exact List.mem_append_right ys List.mem_cons_self
  have hne : new ≠ curr := by
    rintro rfl
    exact hn hmem
  rw [listAddPrev_eq (h.next_prev hmem) hne]
  rcases List.eq_nil_or_concat' zs with rfl | ⟨zs, z, rfl⟩
  · obtain ⟨rfl, he⟩ := List.append_inj' hc rfl
    obtain rfl := List.head_eq_of_cons_eq he
    refine ⟨xs ++ [new], by rw [List.append_assoc]; rfl, ?_⟩
    rw [h.chain.prev_eq]
    rw [← List.append_nil xs] at h hn
    exact h.insert_behind hn
  · rw [← List.cons_append, ← List.append_assoc] at hc
    obtain ⟨rfl, he⟩ := List.append_inj' hc rfl
    obtain rfl := List.head_eq_of_cons_eq he
    refine ⟨ys ++ new :: curr :: zs, by simp, ?_⟩
    rw [h.prev_eq]
    exact h.insert_behind hn

lemma listDel_ring (h : Ring l head (ys ++ x :: zs)) : Ring (listDel l x) head (ys ++ zs) := by
  rw [listDel_eq]
  exact h.remove

lemma listReplace_ring (h : Ring l head (ys ++ old :: zs)) (hn : new ∉ head :: (ys ++ old :: zs)) :
    Ring (listReplace l old new) head (ys ++ new :: zs) := by
  have hold : old ∈ head :: (ys ++ old :: zs) :=
    List.mem_cons_of_mem head (List.mem_append_right ys List.mem_cons_self)
  have hno : new ≠ old := fun he => hn (he ▸ hold)
  have hnext := h.next_ne
  have hremoved : Ring ((l.add new old).del old) head (ys ++ new :: zs) := (h.insert hn).remove
  have haddNext : (l.add new old).next old = new := by
    rw [Links.add_next, Function.update_self]
  have haddPrev : (l.add new old).prev old = l.prev old := by
    rw [Links.add_prev, Function.update_of_ne hno.symm, Function.update_of_ne hnext.symm]
  apply hremoved.congr
  · intro y hy
    have hy : y ≠ old := by
      rintro rfl
      have hnodup := h.nodup
      simp only [List.mem_cons, List.mem_append, List.nodup_cons, List.nodup_append, not_or] at hy hnodup
      grind
    rw [listReplace_next hnext, Links.del_next, haddNext, haddPrev, Links.add_next]
    by_cases hprev : y = l.prev old
    · rw [hprev, Function.update_self, Function.update_self]
    · rw [Function.update_of_ne hprev, Function.update_of_ne hprev, Function.update_of_ne hy]
  · intro y hy
    rw [listReplace_prev hnext, Links.del_prev, haddNext, haddPrev, Links.add_prev,
      Function.update_idem]

lemma listReplace_unchanged (h : Ring l head (ys ++ old :: zs)) (new : α) :
    Unchanged l (listReplace l old new) (new :: head :: (ys ++ old :: zs)) := by
  have hold : old ∈ head :: (ys ++ old :: zs) :=
    List.mem_cons_of_mem head (List.mem_append_right ys List.mem_cons_self)
  intro y hy
  rw [List.mem_cons, not_or] at hy
  have hprev : y ≠ l.prev old := fun he => hy.2 (he ▸ h.prev_mem hold)
  have hnext : y ≠ l.next old := fun he => hy.2 (he ▸ h.next_mem hold)
  refine ⟨?_, ?_⟩
  · rw [listReplace_next h.next_ne, Function.update_of_ne hprev, Function.update_of_ne hy.1]
  · rw [listReplace_prev h.next_ne, Function.update_of_ne hy.1, Function.update_of_ne hnext]

end Operations

section Becomes

variable {l l' : Links α} {a b old new curr x head : α} {xs xs' ys zs ws s : List α}

lemma listAddPost_becomes (h : Ring l head xs) (hn : new ∉ head :: xs) (hc : head :: xs = ys ++ curr :: zs) :
    ∃ xs', head :: xs' = ys ++ curr :: new :: zs ∧ Becomes l (listAddPost l new curr) head xs xs' := by
  obtain ⟨xs', he, hring⟩ := listAddPost_ring h hn hc
  have hcurr : curr ∈ head :: xs := by
    rw [hc]
    exact List.mem_append_right ys List.mem_cons_self
  have hnew : new ∈ head :: xs' := by
    rw [he]
    exact List.mem_append_right ys (List.mem_cons_of_mem curr List.mem_cons_self)
  refine ⟨xs', he, hring, (h.add_unchanged hcurr new).mono ?_⟩
  intro y hy
  simp only [List.mem_cons, List.mem_append] at hy hnew ⊢
  rcases hy with rfl | hy | hy <;> tauto

lemma listAddPrev_becomes (h : Ring l head xs) (hn : new ∉ head :: xs) (hc : xs ++ [head] = ys ++ curr :: zs) :
    ∃ xs', xs' ++ [head] = ys ++ new :: curr :: zs ∧ Becomes l (listAddPrev l new curr) head xs xs' := by
  obtain ⟨xs', he, hring⟩ := listAddPrev_ring h hn hc
  have hcurr : curr ∈ head :: xs := by
    rw [List.mem_cons, or_comm, ← List.mem_singleton, ← List.mem_append, hc]
    exact List.mem_append_right ys List.mem_cons_self
  have hnew : new ∈ xs' ++ [head] := by
    rw [he]
    exact List.mem_append_right ys List.mem_cons_self
  have hne : new ≠ curr := by
    rintro rfl
    exact hn hcurr
  refine ⟨xs', he, hring, ?_⟩
  rw [listAddPrev_eq (h.next_prev hcurr) hne]
  apply (h.add_unchanged (h.prev_mem hcurr) new).mono
  intro y hy
  simp only [List.mem_cons, List.mem_append, List.not_mem_nil, or_false] at hy hnew ⊢
  rcases hy with rfl | hy | hy <;> tauto

lemma listDel_becomes (h : Ring l head (ys ++ x :: zs)) :
    Becomes l (listDel l x) head (ys ++ x :: zs) (ys ++ zs) := by
  refine ⟨listDel_ring h, ?_⟩
  have hx : x ∈ head :: (ys ++ x :: zs) :=
    List.mem_cons_of_mem head (List.mem_append_right ys List.mem_cons_self)
  rw [listDel_eq, ← List.cons_append]
  exact (h.del_unchanged hx).mono (List.subset_append_left _ _)

lemma listReplace_becomes (h : Ring l head (ys ++ old :: zs)) (hn : new ∉ head :: (ys ++ old :: zs)) :
    Becomes l (listReplace l old new) head (ys ++ old :: zs) (ys ++ new :: zs) := by
  refine ⟨listReplace_ring h hn, ?_⟩
  apply (listReplace_unchanged h new).mono
  intro y hy
  simp only [List.mem_cons, List.mem_append] at hy ⊢
  tauto

omit [DecidableEq α] in
lemma Becomes.trans (h : Becomes l l' head xs xs') {l'' : Links α} (h' : Becomes l' l'' head xs' ys)
    (hsub : xs' ⊆ xs ++ ys) : Becomes l l'' head xs ys := by
  refine ⟨h'.ring, (h.unchanged.mono ?_).trans (h'.unchanged.mono ?_)⟩
  · exact List.cons_subset_cons head (List.append_subset.mpr ⟨List.subset_append_left _ _, hsub⟩)
  · exact List.cons_subset_cons head (List.append_subset.mpr ⟨hsub, List.subset_append_right _ _⟩)

lemma listAddPost_behind (h : Ring l head (xs ++ ys)) (hn : new ∉ head :: (xs ++ ys)) :
    Becomes l (listAddPost l new (xs.getLastD head)) head (xs ++ ys) (xs ++ new :: ys) := by
  refine ⟨h.insert_behind hn, ?_⟩
  have hlast : xs.getLastD head ∈ head :: (xs ++ ys) := by
    rw [← List.cons_append]
    exact List.mem_append_left ys List.getLastD_mem_cons
  apply (h.add_unchanged hlast new).mono
  intro y hy
  simp only [List.mem_cons, List.mem_append] at hy ⊢
  tauto

lemma listAddPost_front (h : Ring l head xs) (hn : new ∉ head :: xs) :
    Becomes l (listAddPost l new head) head xs (new :: xs) := by
  obtain ⟨xs', he, hbecomes⟩ := listAddPost_becomes h hn (List.nil_append (head :: xs)).symm
  obtain ⟨-, rfl⟩ := List.cons.inj he
  exact hbecomes

lemma listMove_becomes (h : Ring l head (ys ++ x :: zs)) :
    Becomes l (listMove l x head) head (ys ++ x :: zs) (x :: (ys ++ zs)) := by
  have hdel := listDel_becomes h
  have hx : x ∉ head :: (ys ++ zs) := by
    have hnodup := h.nodup
    simp only [List.nodup_cons, List.nodup_append, List.mem_cons, List.mem_append, not_or] at hnodup ⊢
    grind
  refine hdel.trans (listAddPost_front hdel.ring hx) ?_
  intro y hy
  simp only [List.mem_cons, List.mem_append] at hy ⊢
  tauto

end Becomes

section Swap

variable {l : Links α} {a b head : α} {ys zs ws : List α}

omit [DecidableEq α] in
lemma nodup_pair (h : (head :: (ys ++ a :: (zs ++ b :: ws))).Nodup) :
    a ∉ head :: (ys ++ b :: (zs ++ ws)) ∧ b ∉ head :: (ys ++ a :: (zs ++ ws)) := by
  simp only [List.nodup_cons, List.nodup_append, List.mem_cons, List.mem_append, not_or] at h ⊢
  grind

lemma listSwap_eq (l : Links α) (entry1 entry2 : α) : listSwap l entry1 entry2 =
    listAddPost (listReplace (listDel l entry2) entry1 entry2) entry1
      (if l.prev entry2 = entry1 then entry2 else l.prev entry2) :=
  rfl

/-- The first entry goes behind what stood before the second one, and that is the second one itself if
the two are neighbours. -/
lemma listSwap_becomes (h : Ring l head (ys ++ a :: (zs ++ b :: ws))) :
    Becomes l (listSwap l a b) head (ys ++ a :: (zs ++ b :: ws)) (ys ++ b :: (zs ++ a :: ws)) := by
  obtain ⟨ha, hb⟩ := nodup_pair h.nodup
  have hdel : Becomes l (listDel l b) head (ys ++ a :: (zs ++ b :: ws)) (ys ++ a :: (zs ++ ws)) := by
    have h' := h
    rw [← List.cons_append, ← List.append_assoc] at h'
    have hrest := listDel_becomes h'
    rwa [List.append_assoc, List.append_assoc] at hrest
  have hreplace := listReplace_becomes hdel.ring hb
  have hfresh : a ∉ head :: ((ys ++ b :: zs) ++ ws) := by
    rwa [List.append_assoc, List.cons_append]
  have hring := hreplace.ring
  rw [← List.cons_append, ← List.append_assoc] at hring
  have hadd := listAddPost_behind hring hfresh
  rw [List.append_assoc, List.append_assoc, List.cons_append, List.cons_append] at hadd
  have hprev : l.prev b = zs.getLastD a :=
    (chain_append.mp (chain_append.mp h.chain).2).1.prev_eq
  have hbehind : (if l.prev b = a then b else l.prev b) = (ys ++ b :: zs).getLastD head := by
    rcases List.eq_nil_or_concat' zs with rfl | ⟨zs, z, rfl⟩
    · rw [hprev, List.getLastD_nil, if_pos rfl, List.getLastD_concat]
    · rw [List.getLastD_concat] at hprev
      rw [hprev, ← List.cons_append, ← List.append_assoc, List.getLastD_concat, if_neg]
      rintro rfl
      exact ha (by simp)
  rw [listSwap_eq, hbehind]
  refine (hdel.trans hreplace ?_).trans hadd ?_
  · intro y hy
    simp only [List.mem_cons, List.mem_append] at hy ⊢
    tauto
  · intro y hy
    simp only [List.mem_cons, List.mem_append] at hy ⊢
    tauto

/-- The second entry is taken out of its place first, and the first one is put there. -/
lemma listSwap_becomes_back (h : Ring l head (ys ++ a :: (zs ++ b :: ws))) :
    Becomes l (listSwap l b a) head (ys ++ a :: (zs ++ b :: ws)) (ys ++ b :: (zs ++ a :: ws)) := by
  obtain ⟨ha, hb⟩ := nodup_pair h.nodup
  have hdel := listDel_becomes h
  rw [← List.append_assoc ys zs] at hdel
  have hfresh : a ∉ head :: ((ys ++ zs) ++ b :: ws) := by
    simp only [List.mem_cons, List.mem_append, not_or] at ha ⊢
    tauto
  have hreplace := listReplace_becomes hdel.ring hfresh
  rw [List.append_assoc ys zs (a :: ws)] at hreplace
  have hfresh' : b ∉ head :: (ys ++ (zs ++ a :: ws)) := by
    simp only [List.mem_cons, List.mem_append, not_or] at hb ⊢
    tauto
  have hadd := listAddPost_behind hreplace.ring hfresh'
  have hne : ys.getLastD head ≠ b := by
    intro he
    apply hb
    rw [← he, ← List.cons_append]
    exact List.mem_append_left _ List.getLastD_mem_cons
  rw [listSwap_eq, h.prev_eq, if_neg hne]
  refine (hdel.trans hreplace ?_).trans hadd ?_
  · intro y hy
    simp only [List.mem_cons, List.mem_append] at hy ⊢
    tauto
  · intro y hy
    simp only [List.mem_cons, List.mem_append] at hy ⊢
    tauto

end Swap

theorem operations_refine {l : Links α} {head : α} {xs : List α} (h : Ring l head xs) :
    (∀ nw ∉ head :: xs, ∀ curr ys zs, head :: xs = ys ++ curr :: zs →
      ∃ xs', head :: xs' = ys ++ curr :: nw :: zs ∧ Becomes l (listAddPost l nw curr) head xs xs') ∧
    (∀ lNew ∉ head :: xs, ∀ r ys zs, xs ++ [head] = ys ++ r :: zs →
      ∃ xs', xs' ++ [head] = ys ++ lNew :: r :: zs ∧ Becomes l (listAddPrev l lNew r) head xs xs') ∧
    (∀ entry ys zs, xs = ys ++ entry :: zs → Becomes l (listDel l entry) head xs (ys ++ zs)) ∧
    (∀ new ∉ head :: xs, ∀ old ys zs, xs = ys ++ old :: zs →
      Becomes l (listReplace l old new) head xs (ys ++ new :: zs)) ∧
    (∀ a ys zs, xs = ys ++ a :: zs → Becomes l (listMove l a head) head xs (a :: (ys ++ zs))) ∧
    (∀ a b ys zs ws, xs = ys ++ a :: (zs ++ b :: ws) →
      Becomes l (listSwap l a b) head xs (ys ++ b :: (zs ++ a :: ws)) ∧
      Becomes l (listSwap l b a) head xs (ys ++ b :: (zs ++ a :: ws))) := by
  refine ⟨fun nw hn curr ys zs hc => listAddPost_becomes h hn hc,
    fun lNew hn r ys zs hc => listAddPrev_becomes h hn hc, ?_, ?_, ?_, ?_⟩
  · intro entry ys zs hxs
    subst hxs
    exact listDel_becomes h
  · intro new hn old ys zs hxs
    subst hxs
    exact listReplace_becomes h hn
  · intro a ys zs hxs
    subst hxs
    exact listMove_becomes h
  · intro a b ys zs ws hxs
    subst hxs
    exact ⟨listSwap_becomes h, listSwap_becomes_back h⟩

def twoEntries : Links ℕ where
  next n := if n = 2 then 0 else n + 1
  prev n := if n = 0 then 2 else n - 1

lemma twoEntries_ring : Ring twoEntries 0 [1, 2] where
  nodup := by decide
  chain := ⟨⟨rfl, rfl⟩, ⟨rfl, rfl⟩, rfl, rfl⟩

theorem twoEntries_swapped : Becomes twoEntries (listSwap twoEntries 1 2) 0 [1, 2] [2, 1] ∧
    Becomes twoEntries (listSwap twoEntries 2 1) 0 [1, 2] [2, 1] :=
  (operations_refine twoEntries_ring).2.2.2.2.2 1 2 [] [] [] rfl

end TeamspeakWebserver.Lists
