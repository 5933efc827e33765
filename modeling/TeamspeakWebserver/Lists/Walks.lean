import TeamspeakWebserver.Lists.Operations

/-! The questions and the loops of `man/list.h`. -/

namespace TeamspeakWebserver.Lists

open Linked

variable {α σ : Type*} [DecidableEq α]

def listEmpty (l : Links α) (head : α) : Bool := decide (l.next head = head)

def listIsSingluar (l : Links α) (head : α) : Bool := !listEmpty l head && decide (l.next head = l.prev head)

def listIsTail (l : Links α) (a head : α) : Bool := decide (l.prev head = a)

def listIsFirst (l : Links α) (a head : α) : Bool := decide (l.prev a = head)

def listReplaceNode (l : Links α) (new old : α) : Links α :=
  let l := setNext l new (l.next old)
  let l := setPrev l (l.next new) new
  let l := setPrev l new (l.prev old)
  setNext l (l.prev new) new

/-- `__list_del_node` -/
def delBetweenNode (l : Links α) (lPrev lNext : α) : Links α :=
  let l := setNext l lPrev lNext
  setPrev l lNext lPrev

def listDelNode (l : Links α) (a : α) : Links α := delBetweenNode l (l.prev a) (l.next a)

def listDelInit (l : Links α) (a : α) : Links α :=
  let l := delBetweenNode l (l.prev a) (l.next a)
  l.init a

/-! The body of a loop gets the memory, and what else the caller keeps. Without fuel a loop is not
over. -/

/-- `list_for_each`, and `list_for_each_entry`, from a cursor on. -/
def forEachFrom (body : α → Links α × σ → Links α × σ) (head : α) :
    ℕ → α → Links α × σ → Option (Links α × σ)
  | 0, _, _ => none
  | n + 1, cursor, m =>
    if cursor = head then some m
    else
      let m := body cursor m
      forEachFrom body head n (m.1.next cursor) m

def forEach (body : α → Links α × σ → Links α × σ) (head : α) (n : ℕ) (m : Links α × σ) :
    Option (Links α × σ) :=
  forEachFrom body head n (m.1.next head) m

def forEachRevFrom (body : α → Links α × σ → Links α × σ) (head : α) :
    ℕ → α → Links α × σ → Option (Links α × σ)
  | 0, _, _ => none
  | n + 1, cursor, m =>
    if cursor = head then some m
    else
      let m := body cursor m
      forEachRevFrom body head n (m.1.prev cursor) m

/-- `list_for_each_rev`, and `list_for_each_entry_reverse` -/
def forEachRev (body : α → Links α × σ → Links α × σ) (head : α) (n : ℕ) (m : Links α × σ) :
    Option (Links α × σ) :=
  forEachRevFrom body head n (m.1.prev head) m

/-- The second cursor has been read before the body sees the first one. -/
def forEachEntrySafeFrom (body : α → Links α × σ → Links α × σ) (head : α) :
    ℕ → α → α → Links α × σ → Option (Links α × σ)
  | 0, _, _, _ => none
  | k + 1, pos, n, m =>
    if pos = head then some m
    else
      let m := body pos m
      forEachEntrySafeFrom body head k n (m.1.next n) m

def forEachEntrySafe (body : α → Links α × σ → Links α × σ) (head : α) (k : ℕ) (m : Links α × σ) :
    Option (Links α × σ) :=
  let pos := m.1.next head
  forEachEntrySafeFrom body head k pos (m.1.next pos) m

section ForEachSafe

/-! `list_for_each_safe` gets the names of two variables, and its text also names a variable `n`. -/

def forEachSafeFrom (body : α → Links α × σ → Links α × σ) (head : α) (cursor ahead : String) :
    ℕ → (String → α) → Links α × σ → Option (Links α × σ)
  | 0, _, _ => none
  | k + 1, v, m =>
    if v cursor = head then some m
    else
      let m := body (v cursor) m
      let v := Function.update v cursor (v ahead)
      let v := Function.update v "n" (m.1.next (v cursor))
      forEachSafeFrom body head cursor ahead k v m

def forEachSafe (body : α → Links α × σ → Links α × σ) (head : α) (cursor ahead : String) (k : ℕ)
    (v : String → α) (m : Links α × σ) : Option (Links α × σ) :=
  let v := Function.update v cursor (m.1.next head)
  let v := Function.update v ahead (m.1.next (v cursor))
  forEachSafeFrom body head cursor ahead k v m

end ForEachSafe

section Questions

variable {l : Links α} {a head : α} {xs : List α}

lemma listEmpty_iff (h : Ring l head xs) : listEmpty l head = true ↔ xs = [] := by
  obtain ⟨hnodup, hchain⟩ := h
  rw [listEmpty, decide_eq_true_eq]
  cases xs with
  | nil => exact iff_of_true hchain.1 rfl
  | cons x xs =>
    rw [hchain.1.1]
    refine iff_of_false (fun he => ?_) (List.cons_ne_nil x xs)
    exact (List.nodup_cons.mp hnodup).1 (he ▸ List.mem_cons_self)

lemma listIsTail_iff (h : Ring l head xs) : listIsTail l a head = true ↔ a = xs.getLastD head := by
  rw [listIsTail, decide_eq_true_eq, h.chain.prev_eq, eq_comm]

lemma listIsFirst_iff (h : Ring l head xs) (ha : a ∈ head :: xs) :
    listIsFirst l a head = true ↔ a = xs.headD head := by
  rw [listIsFirst, decide_eq_true_eq, ← h.chain.next_eq]
  constructor
  · intro hprev
    rw [← hprev, h.next_prev ha]
  · intro hnext
    rw [hnext, h.prev_next List.mem_cons_self]

lemma listIsSingluar_iff (h : Ring l head xs) : listIsSingluar l head = true ↔ ∃ x, xs = [x] := by
  rw [listIsSingluar, Bool.and_eq_true, Bool.not_eq_true', ← Bool.not_eq_true, listEmpty_iff h,
    decide_eq_true_eq, h.chain.prev_eq]
  cases xs with
  | nil => simp
  | cons x xs =>
    rw [h.chain.1.1, List.getLastD_cons]
    cases xs with
    | nil => simp
    | cons y ys =>
      have hlast : x ≠ (y :: ys).getLastD x := by
        intro he
        have hx := (List.nodup_cons.mp (List.nodup_cons.mp h.nodup).2).1
        rw [List.getLastD_cons] at he
        exact hx (he ▸ List.getLastD_mem_cons)
      exact iff_of_false (fun hc => hlast hc.2) (by simp)

lemma listDelNode_eq (l : Links α) (a : α) : listDelNode l a = l.del a :=
  rfl

lemma listDelInit_eq (l : Links α) (a : α) : listDelInit l a = (l.del a).init a :=
  rfl

lemma listReplaceNode_eq (l : Links α) (new old : α) : listReplaceNode l new old = listReplace l old new :=
  rfl

end Questions

section Loops

variable {body : α → Links α × σ → Links α × σ} {head : α} {m : Links α × σ} {xs ys zs : List α} {n : ℕ}

omit [DecidableEq α] in
lemma ring_ne_head {l : Links α} {x : α} (ys : List α) (h : Ring l head (ys ++ x :: zs)) : x ≠ head := by
  rintro rfl
  exact (List.nodup_cons.mp h.nodup).1 (List.mem_append_right ys List.mem_cons_self)

lemma forEachFrom_turn {cursor : α} (hc : cursor ≠ head) : forEachFrom body head (n + 1) cursor m =
    forEachFrom body head n ((body cursor m).1.next cursor) (body cursor m) := by
  rw [forEachFrom, if_neg hc]

lemma forEachRevFrom_turn {cursor : α} (hc : cursor ≠ head) : forEachRevFrom body head (n + 1) cursor m =
    forEachRevFrom body head n ((body cursor m).1.prev cursor) (body cursor m) := by
  rw [forEachRevFrom, if_neg hc]

/-- The body may change what has been passed, and the way back from the current entry. -/
lemma forEachFrom_eq
    (hbody : ∀ x ys zs m, Ring m.1 head (ys ++ x :: zs) → ∃ ys', Ring (body x m).1 head (ys' ++ x :: zs))
    (ys : List α) (h : Ring m.1 head (ys ++ zs)) (hn : zs.length < n) :
    forEachFrom body head n (zs.headD head) m = some (zs.foldl (fun m x => body x m) m) := by
  induction zs generalizing ys m n with
  | nil =>
    obtain ⟨n, rfl⟩ := Nat.exists_eq_succ_of_ne_zero (Nat.pos_iff_ne_zero.mp hn)
    rw [List.headD_nil, forEachFrom, if_pos rfl, List.foldl_nil]
  | cons z zs ih =>
    rw [List.length_cons] at hn
    obtain ⟨n, rfl⟩ := Nat.exists_eq_succ_of_ne_zero (by omega : n ≠ 0)
    obtain ⟨ys', h'⟩ := hbody z ys zs m h
    have hnext : (body z m).1.next z = zs.headD head := (chain_append.mp h'.chain).2.next_eq
    rw [List.headD_cons, forEachFrom_turn (ring_ne_head ys h), hnext, List.foldl_cons]
    rw [List.append_cons] at h'
    exact ih _ h' (by omega)

/-- What comes behind the current entry may be changed, as it has been passed. -/
lemma forEachRevFrom_eq
    (hbody : ∀ x ys zs m, Ring m.1 head (ys ++ x :: zs) → ∃ zs', Ring (body x m).1 head (ys ++ x :: zs'))
    (zs : List α) (h : Ring m.1 head (ys ++ zs)) (hn : ys.length < n) :
    forEachRevFrom body head n (ys.getLastD head) m = some (ys.reverse.foldl (fun m x => body x m) m) := by
  induction ys using List.reverseRecOn generalizing zs m n with
  | nil =>
    obtain ⟨n, rfl⟩ := Nat.exists_eq_succ_of_ne_zero (Nat.pos_iff_ne_zero.mp hn)
    rw [List.getLastD_nil, forEachRevFrom, if_pos rfl, List.reverse_nil, List.foldl_nil]
  | append_singleton ys y ih =>
    rw [List.length_append, List.length_singleton] at hn
    obtain ⟨n, rfl⟩ := Nat.exists_eq_succ_of_ne_zero (by omega : n ≠ 0)
    rw [← List.append_cons] at h
    obtain ⟨zs', h'⟩ := hbody y ys zs m h
    rw [List.getLastD_concat, forEachRevFrom_turn (ring_ne_head ys h), h'.prev_eq, List.reverse_append,
      List.reverse_singleton, List.singleton_append, List.foldl_cons]
    exact ih _ h' (by omega)

/-- The body may also take the current entry out, as the second cursor is on the next one already. -/
lemma forEachEntrySafeFrom_eq
    (hbody : ∀ x ys zs m, Ring m.1 head (ys ++ x :: zs) → ∃ ys', Ring (body x m).1 head (ys' ++ zs))
    (ys : List α) (h : Ring m.1 head (ys ++ zs)) (hn : zs.length < n) :
    forEachEntrySafeFrom body head n (zs.headD head) (m.1.next (zs.headD head)) m =
      some (zs.foldl (fun m x => body x m) m) := by
  induction zs generalizing ys m n with
  | nil =>
    obtain ⟨n, rfl⟩ := Nat.exists_eq_succ_of_ne_zero (Nat.pos_iff_ne_zero.mp hn)
    rw [List.headD_nil, forEachEntrySafeFrom, if_pos rfl, List.foldl_nil]
  | cons z zs ih =>
    rw [List.length_cons] at hn
    obtain ⟨n, rfl⟩ := Nat.exists_eq_succ_of_ne_zero (by omega : n ≠ 0)
    obtain ⟨ys', h'⟩ := hbody z ys zs m h
    have hnext : m.1.next z = zs.headD head := (chain_append.mp h.chain).2.next_eq
    rw [List.headD_cons, forEachEntrySafeFrom, if_neg (ring_ne_head ys h), List.foldl_cons, hnext]
    exact ih _ h' (by omega)

end Loops

theorem loops_visit {l : Links α} {head : α} {xs : List α} (h : Ring l head xs)
    (body : α → Links α × σ → Links α × σ) (s : σ) :
    ((∀ x ys zs m, Ring m.1 head (ys ++ x :: zs) → ∃ ys', Ring (body x m).1 head (ys' ++ x :: zs)) →
      ∀ n > xs.length, forEach body head n (l, s) = some (xs.foldl (fun m x => body x m) (l, s))) ∧
    ((∀ x ys zs m, Ring m.1 head (ys ++ x :: zs) → ∃ zs', Ring (body x m).1 head (ys ++ x :: zs')) →
      ∀ n > xs.length, forEachRev body head n (l, s) = some (xs.reverse.foldl (fun m x => body x m) (l, s))) ∧
    ((∀ x ys zs m, Ring m.1 head (ys ++ x :: zs) → ∃ ys', Ring (body x m).1 head (ys' ++ zs)) →
      ∀ n > xs.length,
        forEachEntrySafe body head n (l, s) = some (xs.foldl (fun m x => body x m) (l, s))) := by
  have hfirst : l.next head = xs.headD head := h.chain.next_eq
  have hlast : l.prev head = xs.getLastD head := h.chain.prev_eq
  refine ⟨fun hbody n hn => ?_, fun hbody n hn => ?_, fun hbody n hn => ?_⟩
  · rw [forEach, hfirst]
    exact forEachFrom_eq hbody [] h hn
  · rw [forEachRev, hlast]
    exact forEachRevFrom_eq hbody [] (by rwa [List.append_nil]) hn
  · rw [forEachEntrySafe, hfirst]
    exact forEachEntrySafeFrom_eq hbody [] h hn

def note (x : α) (m : Links α × List α) : Links α × List α := (m.1, m.2 ++ [x])

theorem loops_visit_two : forEach note 0 3 (twoEntries, []) = some (twoEntries, [1, 2]) ∧
    forEachRev note 0 3 (twoEntries, []) = some (twoEntries, [2, 1]) ∧
    forEachEntrySafe note 0 3 (twoEntries, []) = some (twoEntries, [1, 2]) := by
  obtain ⟨hforward, hback, hsafe⟩ := loops_visit twoEntries_ring note []
  refine ⟨hforward ?_ 3 (by decide), hback ?_ 3 (by decide), hsafe ?_ 3 (by decide)⟩
  · exact fun x ys zs m h => ⟨ys, h⟩
  · exact fun x ys zs m h => ⟨zs, h⟩
  · exact fun x ys zs m h => ⟨ys ++ [x], by rwa [note, ← List.append_cons]⟩

section Sweep

variable {l l' : Links α} {head x : α} {xs ys zs rs : List α} {p : α → Bool} {m : Links α × List α} {n : ℕ}

def takeOut (p : α → Bool) (x : α) (m : Links α × List α) : Links α × List α :=
  if p x then (listDelInit m.1 x, m.2 ++ [x]) else m

structure Swept (l : Links α) (head : α) (xs rs : List α) : Prop where
  ring : Ring l head xs
  alone : ∀ r ∈ rs, Ring l r []
  apart : ∀ r ∈ rs, r ∉ head :: xs

lemma listDelInit_next_of_ne {y : α} (hy : y ≠ x) : (listDelInit l x).next y = (l.del x).next y := by
  rw [listDelInit_eq, Links.init_next, Function.update_of_ne hy]

lemma listDelInit_prev_of_ne {y : α} (hy : y ≠ x) : (listDelInit l x).prev y = (l.del x).prev y := by
  rw [listDelInit_eq, Links.init_prev, Function.update_of_ne hy]

lemma listDelInit_alone (l : Links α) (x : α) : Ring (listDelInit l x) x [] :=
  Ring.init (l.del x) x

omit [DecidableEq α] in
lemma not_mem_remaining (h : Ring l head (ys ++ x :: zs)) : x ∉ head :: (ys ++ zs) := by
  have hnodup := h.nodup
  simp only [List.nodup_cons, List.nodup_append, List.mem_cons, List.mem_append, not_or] at hnodup ⊢
  grind

lemma listDelInit_ring (h : Ring l head (ys ++ x :: zs)) : Ring (listDelInit l x) head (ys ++ zs) := by
  have hx := not_mem_remaining h
  apply h.remove.congr
  · exact fun y hy => listDelInit_next_of_ne fun he => hx (he ▸ hy)
  · exact fun y hy => listDelInit_prev_of_ne fun he => hx (he ▸ hy)

lemma listDelInit_unchanged (h : Ring l head (ys ++ x :: zs)) :
    Unchanged l (listDelInit l x) (head :: (ys ++ x :: zs)) := by
  intro y hy
  have hx : x ∈ head :: (ys ++ x :: zs) :=
    List.mem_cons_of_mem head (List.mem_append_right ys List.mem_cons_self)
  have hyx : y ≠ x := fun he => hy (he ▸ hx)
  rw [listDelInit_next_of_ne hyx, listDelInit_prev_of_ne hyx]
  exact h.del_unchanged hx y hy

lemma Swept.step (h : Swept l head (ys ++ x :: zs) rs) : Swept (listDelInit l x) head (ys ++ zs) (rs ++ [x]) := by
  refine ⟨listDelInit_ring h.ring, ?_, ?_⟩
  · intro r hr
    rcases List.mem_append.mp hr with hr | hr
    · apply (h.alone r hr).of_unchanged (listDelInit_unchanged h.ring)
      intro y hy
      rw [List.mem_singleton.mp hy]
      exact h.apart r hr
    · rw [List.mem_singleton.mp hr]
      exact listDelInit_alone l x
  · intro r hr
    rcases List.mem_append.mp hr with hr | hr
    · have hapart := h.apart r hr
      simp only [List.mem_cons, List.mem_append, not_or] at hapart ⊢
      exact ⟨hapart.1, hapart.2.1, hapart.2.2.2⟩
    · rw [List.mem_singleton.mp hr]
      exact not_mem_remaining h.ring

lemma foldl_takeOut (h : Swept m.1 head (ys ++ zs) m.2) :
    Swept (zs.foldl (fun m x => takeOut p x m) m).1 head (ys ++ zs.filter (!p ·)) (m.2 ++ zs.filter p) ∧
      (zs.foldl (fun m x => takeOut p x m) m).2 = m.2 ++ zs.filter p ∧
      Unchanged m.1 (zs.foldl (fun m x => takeOut p x m) m).1 (head :: (ys ++ zs)) := by
  induction zs generalizing ys m with
  | nil =>
    rw [List.filter_nil, List.filter_nil, List.append_nil, List.append_nil] at *
    exact ⟨h, rfl, fun y _ => ⟨rfl, rfl⟩⟩
  | cons z zs ih =>
    rw [List.foldl_cons]
    by_cases hp : p z = true
    · have hbody : takeOut p z m = (listDelInit m.1 z, m.2 ++ [z]) := if_pos hp
      obtain ⟨hswept, hlog, hunchanged⟩ := ih (m := (listDelInit m.1 z, m.2 ++ [z])) h.step
      rw [List.filter_cons_of_pos hp, List.filter_cons_of_neg (by simp [hp]), hbody,
        List.append_cons m.2 z (zs.filter p)]
      refine ⟨hswept, hlog, (listDelInit_unchanged h.ring).trans (hunchanged.mono ?_)⟩
      intro y hy
      simp only [List.mem_cons, List.mem_append] at hy ⊢
      tauto
    · have hbody : takeOut p z m = m := if_neg hp
      rw [List.append_cons] at h
      obtain ⟨hswept, hlog, hunchanged⟩ := ih h
      rw [List.filter_cons_of_neg hp, List.filter_cons_of_pos (by simp [hp]), hbody, List.append_cons,
        List.append_cons ys z zs]
      exact ⟨hswept, hlog, hunchanged⟩

lemma takeOut_keeps (x : α) (ys zs : List α) (m : Links α × List α) (h : Ring m.1 head (ys ++ x :: zs)) :
    ∃ ys', Ring (takeOut p x m).1 head (ys' ++ zs) := by
  by_cases hp : p x = true
  · rw [takeOut, if_pos hp]
    exact ⟨ys, listDelInit_ring h⟩
  · rw [takeOut, if_neg hp]
    exact ⟨ys ++ [x], by rwa [← List.append_cons]⟩

lemma forEachFrom_stuck (hp : p x = true) (hx : x ≠ head) (m : Links α × List α) (n : ℕ) :
    forEachFrom (takeOut p) head n x m = none := by
  induction n generalizing m with
  | zero => rfl
  | succ n ih =>
    have hbody : takeOut p x m = (listDelInit m.1 x, m.2 ++ [x]) := if_pos hp
    have hnext : (listDelInit m.1 x).next x = x := (listDelInit_alone m.1 x).chain.1
    rw [forEachFrom_turn hx, hbody, hnext, ih]

lemma forEachFrom_takeOut (ys : List α) (h : Ring m.1 head (ys ++ zs)) (hn : zs.length < n) :
    forEachFrom (takeOut p) head n (zs.headD head) m = if zs.any p then none else some m := by
  induction zs generalizing ys n with
  | nil =>
    obtain ⟨n, rfl⟩ := Nat.exists_eq_succ_of_ne_zero (Nat.pos_iff_ne_zero.mp hn)
    rw [List.headD_nil, forEachFrom, if_pos rfl, List.any_nil, if_neg Bool.false_ne_true]
  | cons z zs ih =>
    rw [List.length_cons] at hn
    obtain ⟨n, rfl⟩ := Nat.exists_eq_succ_of_ne_zero (by omega : n ≠ 0)
    have hz := ring_ne_head ys h
    rw [List.headD_cons, List.any_cons]
    by_cases hp : p z = true
    · rw [forEachFrom_stuck hp hz, hp, Bool.true_or, if_pos rfl]
    · have hbody : takeOut p z m = m := if_neg hp
      have hnext : m.1.next z = zs.headD head := (chain_append.mp h.chain).2.next_eq
      rw [List.append_cons] at h
      rw [forEachFrom_turn hz, hbody, hnext, ih _ h (by omega), (Bool.not_eq_true _).mp hp, Bool.false_or]

end Sweep

theorem sweep_takes_out {l : Links α} {head : α} {xs : List α} (h : Ring l head xs) (p : α → Bool) {n : ℕ}
    (hn : xs.length < n) :
    (∃ l', forEachEntrySafe (takeOut p) head n (l, []) = some (l', xs.filter p) ∧
      Ring l' head (xs.filter (!p ·)) ∧ (∀ x ∈ xs, p x = true → Ring l' x []) ∧
      Unchanged l l' (head :: xs) ∧ (listEmpty l' head = true ↔ ∀ x ∈ xs, p x = true)) ∧
    forEach (takeOut p) head n (l, []) = if xs.any p then none else some (l, []) := by
  have hfirst : l.next head = xs.headD head := h.chain.next_eq
  have hswept : Swept (l, ([] : List α)).1 head ([] ++ xs) [] := ⟨h, by simp, by simp⟩
  constructor
  · have hloop := forEachEntrySafeFrom_eq (m := (l, [])) (takeOut_keeps (p := p)) [] h hn
    obtain ⟨hdone, hlog, hunchanged⟩ := foldl_takeOut (p := p) hswept
    refine ⟨_, ?_, hdone.ring, ?_, hunchanged, ?_⟩
    · rw [forEachEntrySafe, hfirst, hloop, ← List.nil_append (xs.filter p), ← hlog]
    · intro x hx hp
      exact hdone.alone x (List.mem_filter.mpr ⟨hx, hp⟩)
    · rw [listEmpty_iff hdone.ring, List.nil_append, List.filter_eq_nil_iff]
      simp
  · rw [forEach, hfirst]
    exact forEachFrom_takeOut [] h hn

theorem sweep_takes_out_two :
    (∃ l', forEachEntrySafe (takeOut (· == 1)) 0 3 (twoEntries, []) = some (l', [1]) ∧ Ring l' 0 [2] ∧
      Ring l' 1 []) ∧
    forEach (takeOut (· == 1)) 0 3 (twoEntries, []) = none := by
  obtain ⟨⟨l', hloop, hring, halone, -⟩, hplain⟩ :=
    sweep_takes_out twoEntries_ring (· == 1) (by decide : [1, 2].length < 3)
  exact ⟨⟨l', hloop, hring, halone 1 (by decide) (by decide)⟩, hplain⟩

section Named

variable {body : α → Links α × σ → Links α × σ} {head : α} {m : Links α × σ} {cursor ahead : String}
variable {v : String → α} {k : ℕ}

/-- Where the second variable is called `n`, it is the one that the text advances. -/
lemma forEachSafeFrom_n (hc : cursor ≠ "n") : forEachSafeFrom body head cursor "n" k v m =
    forEachEntrySafeFrom body head k (v cursor) (v "n") m := by
  induction k generalizing v m with
  | zero => rfl
  | succ k ih =>
    rw [forEachSafeFrom, forEachEntrySafeFrom]
    split
    case isTrue => rfl
    case isFalse =>
      simp only [ih, Function.update_of_ne hc, Function.update_self]

lemma forEachSafeFrom_ahead (hc : cursor ≠ "n") (ha : ahead ≠ "n") (hca : cursor ≠ ahead)
    (hcursor : v cursor ≠ head) (hahead : v ahead ≠ head) :
    forEachSafeFrom body head cursor ahead k v m = none := by
  induction k generalizing v m with
  | zero => rfl
  | succ k ih =>
    rw [forEachSafeFrom, if_neg hcursor]
    apply ih
    · rwa [Function.update_of_ne hc, Function.update_self]
    · rwa [Function.update_of_ne ha, Function.update_of_ne hca.symm]

end Named

theorem forEachSafe_ends {l : Links α} {head : α} {xs : List α} (h : Ring l head xs)
    (body : α → Links α × σ → Links α × σ) (s : σ) (v : String → α) {cursor ahead : String}
    (hc : cursor ≠ "n") (hca : cursor ≠ ahead) :
    (ahead = "n" → ∀ k, forEachSafe body head cursor ahead k v (l, s) = forEachEntrySafe body head k (l, s)) ∧
    (ahead ≠ "n" →
      ((∃ k m, forEachSafe body head cursor ahead k v (l, s) = some m) ↔ xs.length ≤ 1)) := by
  have hfirst : l.next head = xs.headD head := h.chain.next_eq
  constructor
  · rintro rfl k
    rw [forEachSafe, forEachSafeFrom_n hc, forEachEntrySafe, Function.update_of_ne hc, Function.update_self,
      Function.update_self]
  · intro ha
    constructor
    · rintro ⟨k, m, hk⟩
      by_contra hlen
      obtain ⟨x, y, ys, rfl⟩ : ∃ x y ys, xs = x :: y :: ys := by
        match xs, hlen with
        | x :: y :: ys, _ => exact ⟨x, y, ys, rfl⟩
        | [_], hlen => exact absurd (Nat.le_refl 1) hlen
        | [], hlen => exact absurd (Nat.zero_le 1) hlen
      have hx : x ≠ head := ring_ne_head [] h
      have hy : y ≠ head := ring_ne_head [x] h
      have hsecond : l.next x = y := h.chain.2.1.1
      rw [forEachSafe, forEachSafeFrom_ahead hc ha hca] at hk
      · exact Option.some_ne_none m hk.symm
      · rwa [Function.update_of_ne hca, Function.update_self, hfirst]
      · rwa [Function.update_self, Function.update_self, hfirst, List.headD_cons, hsecond]
    · intro hlen
      match xs, hlen with
      | [], _ =>
        refine ⟨1, (l, s), ?_⟩
        rw [forEachSafe, forEachSafeFrom, if_pos]
        rwa [Function.update_of_ne hca, Function.update_self]
      | [x], _ =>
        have hback : l.next x = head := h.chain.2.1
        refine ⟨2, body x (l, s), ?_⟩
        simp only [forEachSafe, forEachSafeFrom, Function.update_of_ne hca, Function.update_of_ne hc,
          Function.update_self, hfirst, List.headD_cons, hback, if_neg (ring_ne_head [] h), if_pos]

theorem forEachSafe_ends_two :
    ¬∃ k m, forEachSafe note 0 "cursor" "l" k (fun _ => 0) (twoEntries, []) = some m := by
  intro hend
  have hshort := ((forEachSafe_ends twoEntries_ring note [] (fun _ => 0) (by decide)
    (by decide)).2 (by decide)).mp hend
  exact absurd hshort (by decide)

end TeamspeakWebserver.Lists
