import Mathlib.Algebra.BigOperators.Group.Finset.Basic
import Mathlib.Order.Interval.Finset.Nat
import Mathlib.Tactic

/-! The busy periods of a level that a sequence of events raises and lowers. An event changes the
level by `effect`; a period that an event outside `closes` ends is not complete. -/

namespace TeamspeakWebserver.Occupancy

variable {E : Type*} (effect : ℕ → E → ℕ) (closes : E → Prop)

def level (es : List E) : ℕ := es.foldl effect 0

def Busy (es : List E) (i k : ℕ) : Prop :=
  i < k ∧ level effect (es.take i) = 0 ∧ ∀ m ∈ Finset.Ioc i k, 0 < level effect (es.take m)

instance (es : List E) (i k : ℕ) : Decidable (Busy effect es i k) :=
  inferInstanceAs (Decidable (_ ∧ _ ∧ _))

def IsPeriod (es : List E) (i j : ℕ) : Prop :=
  Busy effect es i j ∧ level effect (es.take (j + 1)) = 0 ∧ ∀ e ∈ es[j]?, closes e

instance [DecidablePred closes] (es : List E) (i j : ℕ) : Decidable (IsPeriod effect closes es i j) :=
  inferInstanceAs (Decidable (_ ∧ _ ∧ _))

def periods [DecidablePred closes] (es : List E) : Finset (ℕ × ℕ) :=
  (Finset.range es.length ×ˢ Finset.range es.length).filter fun p => IsPeriod effect closes es p.1 p.2

def opening (es : List E) : Option ℕ :=
  ((List.range es.length).filter fun i =>
    level effect (es.take i) = 0 ∧ 0 < level effect (es.take (i + 1))).getLast?

section Snoc

variable {effect closes} {es : List E} {e : E} {i j k : ℕ}

lemma level_snoc (es : List E) (e : E) : level effect (es ++ [e]) = effect (level effect es) e := by
  simp [level, List.foldl_append]

lemma level_take_snoc (e : E) (h : k ≤ es.length) :
    level effect ((es ++ [e]).take k) = level effect (es.take k) := by
  rw [List.take_append_of_le_length h]

lemma take_length_snoc (es : List E) (e : E) : (es ++ [e]).take (es.length + 1) = es ++ [e] := by
  apply List.take_of_length_le
  rw [List.length_append, List.length_singleton]

lemma opening_snoc (es : List E) (e : E) :
    opening effect (es ++ [e]) =
      if level effect es = 0 ∧ 0 < level effect (es ++ [e]) then some es.length
      else opening effect es := by
  have hold : (List.range es.length).filter (fun i =>
        level effect ((es ++ [e]).take i) = 0 ∧ 0 < level effect ((es ++ [e]).take (i + 1))) =
      (List.range es.length).filter fun i =>
        level effect (es.take i) = 0 ∧ 0 < level effect (es.take (i + 1)) := by
    apply List.filter_congr
    intro i hi
    have hlt := List.mem_range.mp hi
    rw [level_take_snoc e (by omega), level_take_snoc e (by omega)]
  rw [opening, List.length_append, List.length_singleton, List.range_succ, List.filter_append, hold,
    List.filter_singleton, level_take_snoc e le_rfl, List.take_length, take_length_snoc]
  by_cases h : level effect es = 0 ∧ 0 < level effect (es ++ [e])
  · rw [if_pos h]
    simp [h]
  · rw [if_neg h]
    simp only [h, decide_false, cond_false, List.append_nil]
    rfl

lemma opening_lt {i : ℕ} (h : opening effect es = some i) :
    i < es.length ∧ level effect (es.take i) = 0 ∧ 0 < level effect (es.take (i + 1)) := by
  have hm := List.mem_filter.mp (List.mem_of_getLast? h)
  exact ⟨List.mem_range.mp hm.1, of_decide_eq_true hm.2⟩

lemma busy_snoc (e : E) (hk : k ≤ es.length) : Busy effect (es ++ [e]) i k ↔ Busy effect es i k := by
  unfold Busy
  constructor
  · rintro ⟨hik, h0, hp⟩
    refine ⟨hik, ?_, ?_⟩
    · rwa [level_take_snoc e (by omega)] at h0
    · intro m hm
      have hmk := (Finset.mem_Ioc.mp hm).2
      rw [← level_take_snoc e (by omega)]
      exact hp m hm
  · rintro ⟨hik, h0, hp⟩
    refine ⟨hik, ?_, ?_⟩
    · rwa [level_take_snoc e (by omega)]
    · intro m hm
      have hmk := (Finset.mem_Ioc.mp hm).2
      rw [level_take_snoc e (by omega)]
      exact hp m hm

lemma busy_unique (hi : Busy effect es i k) (hj : Busy effect es j k) : i = j := by
  rcases lt_trichotomy i j with h | h | h
  · have hp := hi.2.2 j (Finset.mem_Ioc.mpr ⟨h, hj.1.le⟩)
    rw [hj.2.1] at hp
    omega
  · exact h
  · have hp := hj.2.2 i (Finset.mem_Ioc.mpr ⟨h, hi.1.le⟩)
    rw [hi.2.1] at hp
    omega

lemma opening_busy (h : 0 < level effect es) :
    ∃ i, opening effect es = some i ∧ Busy effect es i es.length := by
  induction es using List.reverseRecOn with
  | nil => exact absurd h (Nat.lt_irrefl 0)
  | append_singleton es e ih =>
    rw [opening_snoc, List.length_append, List.length_singleton]
    by_cases h0 : level effect es = 0
    · rw [if_pos ⟨h0, h⟩]
      refine ⟨es.length, rfl, Nat.lt_succ_self _, ?_, ?_⟩
      · rwa [level_take_snoc e le_rfl, List.take_length]
      · intro m hm
        have hmem := Finset.mem_Ioc.mp hm
        obtain rfl : m = es.length + 1 := by omega
        rwa [take_length_snoc]
    · rw [if_neg fun hc => h0 hc.1]
      obtain ⟨i, ho, hb⟩ := ih (Nat.pos_of_ne_zero h0)
      refine ⟨i, ho, hb.1.trans (Nat.lt_succ_self _), ?_, ?_⟩
      · rw [level_take_snoc e hb.1.le]
        exact hb.2.1
      · intro m hm
        obtain ⟨him, hmk⟩ := Finset.mem_Ioc.mp hm
        rcases Nat.lt_or_ge es.length m with hl | hl
        · obtain rfl : m = es.length + 1 := by omega
          rwa [take_length_snoc]
        · rw [level_take_snoc e hl]
          exact hb.2.2 m (Finset.mem_Ioc.mpr ⟨him, hl⟩)

lemma isPeriod_snoc (e : E) (hj : j < es.length) :
    IsPeriod effect closes (es ++ [e]) i j ↔ IsPeriod effect closes es i j := by
  unfold IsPeriod
  rw [busy_snoc e hj.le, level_take_snoc e hj, List.getElem?_append_left hj]

lemma isPeriod_last (es : List E) (e : E) (i : ℕ) :
    IsPeriod effect closes (es ++ [e]) i es.length ↔
      (0 < level effect es ∧ level effect (es ++ [e]) = 0 ∧ closes e) ∧
        opening effect es = some i := by
  unfold IsPeriod
  rw [busy_snoc e le_rfl, take_length_snoc, List.getElem?_concat_length]
  constructor
  · rintro ⟨hb, h0, hc⟩
    have hp : 0 < level effect es := by
      have hl := hb.2.2 es.length (Finset.mem_Ioc.mpr ⟨hb.1, le_rfl⟩)
      rwa [List.take_length] at hl
    obtain ⟨i', ho, hb'⟩ := opening_busy hp
    rw [busy_unique hb hb']
    exact ⟨⟨hp, h0, hc e rfl⟩, ho⟩
  · rintro ⟨⟨hp, h0, hc⟩, ho⟩
    obtain ⟨i', ho', hb⟩ := opening_busy hp
    obtain rfl := Option.some.inj (ho.symm.trans ho')
    refine ⟨hb, h0, ?_⟩
    intro e' he
    rwa [← Option.some.inj he]

end Snoc

section Map

variable {effect closes} {D : Type*} (f : D → E) (ds : List D)

lemma level_map : level effect (ds.map f) = level (fun n d => effect n (f d)) ds := List.foldl_map

lemma opening_map : opening effect (ds.map f) = opening (fun n d => effect n (f d)) ds := by
  simp only [opening, List.length_map, ← List.map_take, level_map]

lemma isPeriod_map (i j : ℕ) : IsPeriod effect closes (ds.map f) i j ↔
    IsPeriod (fun n d => effect n (f d)) (fun d => closes (f d)) ds i j := by
  simp only [IsPeriod, Busy, ← List.map_take, level_map, List.getElem?_map, Option.mem_def,
    Option.map_eq_some_iff]
  constructor
  · rintro ⟨hb, h0, hc⟩
    exact ⟨hb, h0, fun d hd => hc (f d) ⟨d, hd, rfl⟩⟩
  · rintro ⟨hb, h0, hc⟩
    refine ⟨hb, h0, ?_⟩
    rintro e ⟨d, hd, rfl⟩
    exact hc d hd

end Map

section Total

variable {effect closes} [DecidablePred closes] {τ : Type*} [AddCommGroup τ] (time : E → τ)

def timeAt (es : List E) (i : ℕ) : τ := (es[i]?).elim 0 time

variable (effect closes) in
def total (es : List E) : τ := ∑ p ∈ periods effect closes es, (timeAt time es p.2 - timeAt time es p.1)

lemma timeAt_snoc {es : List E} (e : E) {i : ℕ} (h : i < es.length) :
    timeAt time (es ++ [e]) i = timeAt time es i := by
  rw [timeAt, timeAt, List.getElem?_append_left h]

lemma timeAt_last (es : List E) (e : E) : timeAt time (es ++ [e]) es.length = time e := by
  rw [timeAt, List.getElem?_concat_length]
  rfl

lemma mem_periods {es : List E} {p : ℕ × ℕ} :
    p ∈ periods effect closes es ↔ p.2 < es.length ∧ IsPeriod effect closes es p.1 p.2 := by
  rw [periods, Finset.mem_filter, Finset.mem_product, Finset.mem_range, Finset.mem_range]
  constructor
  · rintro ⟨⟨-, hj⟩, hp⟩
    exact ⟨hj, hp⟩
  · rintro ⟨hj, hp⟩
    exact ⟨⟨hp.1.1.trans hj, hj⟩, hp⟩

lemma total_of_opening_none {es : List E} (h : opening effect es = none) :
    total effect closes time es = 0 := by
  apply Finset.sum_eq_zero
  intro p hp
  obtain ⟨hj, hb, -⟩ := mem_periods.mp hp
  have hi : p.1 ∈ (List.range es.length).filter fun i =>
      level effect (es.take i) = 0 ∧ 0 < level effect (es.take (i + 1)) := by
    apply List.mem_filter.mpr
    refine ⟨List.mem_range.mpr (hb.1.trans hj), decide_eq_true ⟨hb.2.1, ?_⟩⟩
    exact hb.2.2 (p.1 + 1) (Finset.mem_Ioc.mpr ⟨Nat.lt_succ_self _, hb.1⟩)
  rw [List.getLast?_eq_none_iff.mp h] at hi
  cases hi

lemma mem_periods_snoc {es : List E} {e : E} {p : ℕ × ℕ} : p ∈ periods effect closes (es ++ [e]) ↔
    p ∈ periods effect closes es ∨
      p.2 = es.length ∧ IsPeriod effect closes (es ++ [e]) p.1 es.length := by
  obtain ⟨i, j⟩ := p
  rw [mem_periods, mem_periods, List.length_append, List.length_singleton]
  constructor
  · rintro ⟨hj, hp⟩
    rcases Nat.lt_or_ge j es.length with hl | hl
    · exact Or.inl ⟨hl, (isPeriod_snoc e hl).mp hp⟩
    · obtain rfl : j = es.length := by
        dsimp only at hj
        omega
      exact Or.inr ⟨rfl, hp⟩
  · rintro (⟨hj, hp⟩ | ⟨rfl, hp⟩)
    · exact ⟨Nat.lt_succ_of_lt hj, (isPeriod_snoc e hj).mpr hp⟩
    · exact ⟨Nat.lt_succ_self _, hp⟩

lemma sum_periods_snoc (es : List E) (e : E) :
    ∑ p ∈ periods effect closes es, (timeAt time (es ++ [e]) p.2 - timeAt time (es ++ [e]) p.1) =
      total effect closes time es := by
  apply Finset.sum_congr rfl
  intro p hp
  obtain ⟨hj, hb⟩ := mem_periods.mp hp
  rw [timeAt_snoc time e hj, timeAt_snoc time e (hb.1.1.trans hj)]

lemma total_snoc_same {es : List E} {e : E}
    (h : ¬(0 < level effect es ∧ level effect (es ++ [e]) = 0 ∧ closes e)) :
    total effect closes time (es ++ [e]) = total effect closes time es := by
  have hper : periods effect closes (es ++ [e]) = periods effect closes es := by
    ext p
    rw [mem_periods_snoc, or_iff_left]
    rintro ⟨-, hp⟩
    exact h ((isPeriod_last es e p.1).mp hp).1
  rw [total, hper, sum_periods_snoc]

lemma total_snoc_close {es : List E} {e : E} {i : ℕ} (ho : opening effect es = some i)
    (h : 0 < level effect es ∧ level effect (es ++ [e]) = 0 ∧ closes e) :
    total effect closes time (es ++ [e]) =
      total effect closes time es + (time e - timeAt time es i) := by
  have hlast := (isPeriod_last es e i).mpr ⟨h, ho⟩
  have hper : periods effect closes (es ++ [e]) =
      insert (i, es.length) (periods effect closes es) := by
    ext ⟨i', j⟩
    rw [Finset.mem_insert, mem_periods_snoc, or_comm, Prod.mk.injEq]
    apply or_congr_left
    constructor
    · rintro ⟨rfl, hp⟩
      exact ⟨busy_unique hp.1 hlast.1, rfl⟩
    · rintro ⟨rfl, rfl⟩
      exact ⟨rfl, hlast⟩
  have hnew : (i, es.length) ∉ periods effect closes es := by
    intro hm
    exact Nat.lt_irrefl _ (mem_periods.mp hm).1
  rw [total, hper, Finset.sum_insert hnew, sum_periods_snoc, timeAt_last,
    timeAt_snoc time e hlast.1.1, add_comm]

end Total

end TeamspeakWebserver.Occupancy
