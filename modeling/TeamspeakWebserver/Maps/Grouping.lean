import Mathlib.Data.List.AList
import Mathlib.Tactic

/-! Maps to lists, to which a value is appended under its key. -/

namespace TeamspeakWebserver.Maps

variable {κ ν : Type*} [DecidableEq κ]

abbrev Groups (κ ν : Type*) := AList fun _ : κ => List ν

/-- `m[k] = append(m[k], v)`: an absent key counts as the empty list. -/
def append (k : κ) (v : ν) (m : Groups κ ν) : Groups κ ν :=
  m.insert k ((m.lookup k).getD [] ++ [v])

def group (ps : List (κ × ν)) : Groups κ ν :=
  ps.foldl (fun m p => append p.1 p.2 m) ∅

def values (ps : List (κ × ν)) (k : κ) : List ν :=
  (ps.filter fun p => p.1 = k).map Prod.snd

section Group

lemma group_concat (ps : List (κ × ν)) (p : κ × ν) :
    group (ps ++ [p]) = append p.1 p.2 (group ps) := by
  rw [group, List.foldl_append]
  rfl

lemma mem_append {k k' : κ} {v : ν} {m : Groups κ ν} : k' ∈ append k v m ↔ k' = k ∨ k' ∈ m :=
  AList.mem_insert m

lemma mem_group {ps : List (κ × ν)} {k : κ} : k ∈ group ps ↔ k ∈ ps.map Prod.fst := by
  induction ps using List.reverseRecOn with
  | nil => simp [group]
  | append_singleton ps p ih =>
    rw [group_concat, mem_append, ih, List.map_append, List.mem_append, List.map_singleton,
      List.mem_singleton, or_comm]

lemma values_concat (ps : List (κ × ν)) (p : κ × ν) (k : κ) :
    values (ps ++ [p]) k = if p.1 = k then values ps k ++ [p.2] else values ps k := by
  rw [values, List.filter_append, List.map_append]
  split
  case isTrue h => simp [values, h]
  case isFalse h => simp [values, h]

lemma values_flatMap {α : Type*} (as : List α) (f : α → List (κ × ν)) (k : κ) :
    values (as.flatMap f) k = as.flatMap fun a => values (f a) k := by
  rw [values, List.filter_flatMap, List.map_flatMap]
  rfl

lemma getD_lookup_group (ps : List (κ × ν)) (k : κ) :
    ((group ps).lookup k).getD [] = values ps k := by
  induction ps using List.reverseRecOn with
  | nil => rfl
  | append_singleton ps p ih =>
    rw [group_concat, values_concat, append]
    split
    case isTrue h =>
      subst h
      rw [AList.lookup_insert, Option.getD_some, ih]
    case isFalse h => rw [AList.lookup_insert_ne (Ne.symm h), ih]

theorem entries_group (ps : List (κ × ν)) :
    (group ps).entries = (group ps).keys.map fun k => ⟨k, values ps k⟩ := by
  rw [AList.keys, List.keys, List.map_map]
  refine (List.map_id _).symm.trans (List.map_congr_left fun e he => ?_)
  have hlookup := AList.mem_lookup_iff.mpr he
  rw [Function.comp_apply, ← getD_lookup_group, hlookup]
  rfl

end Group

section Partition

lemma flatMap_filter_perm {α : Type*} (key : α → κ) {ks : List κ} (hks : ks.Nodup) (as : List α)
    (h : ∀ a ∈ as, key a ∈ ks) : (ks.flatMap fun k => as.filter fun a => key a = k).Perm as := by
  induction ks generalizing as with
  | nil =>
    have hnil : as = [] := List.eq_nil_iff_forall_not_mem.mpr fun a ha => List.not_mem_nil (h a ha)
    rw [hnil]
    rfl
  | cons k ks ih =>
    obtain ⟨hk, hks⟩ := List.nodup_cons.mp hks
    let others := as.filter fun a => !decide (key a = k)
    have hothers : (ks.flatMap fun j => as.filter fun a => key a = j) =
        ks.flatMap fun j => others.filter fun a => key a = j := by
      refine List.flatMap_congr fun j hj => ?_
      rw [List.filter_filter]
      refine List.filter_congr fun a _ => ?_
      have hjk : j ≠ k := ne_of_mem_of_not_mem hj hk
      grind
    rw [List.flatMap_cons, hothers]
    refine List.Perm.trans (List.Perm.append_left _ (ih hks others fun a ha => ?_))
      (List.filter_append_perm _ as)
    obtain ⟨ha, hne⟩ := List.mem_filter.mp ha
    exact (List.mem_cons.mp (h a ha)).resolve_left (by simpa using hne)

theorem flatMap_values_perm (ps : List (κ × ν)) :
    ((group ps).keys.flatMap (values ps)).Perm (ps.map Prod.snd) := by
  have hkeys : ∀ p ∈ ps, p.1 ∈ (group ps).keys := fun p hp =>
    AList.mem_keys.mp (mem_group.mpr (List.mem_map_of_mem hp))
  have hperm := (flatMap_filter_perm Prod.fst (group ps).keys_nodup ps hkeys).map Prod.snd
  rwa [List.map_flatMap] at hperm

end Partition

end TeamspeakWebserver.Maps
