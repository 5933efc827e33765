import TeamspeakWebserver.Ltc.Pipelines

/-! The client of an id in the table of `main.rs` comes from the files that tell of it. -/

namespace TeamspeakWebserver.Ltc

namespace Event

variable {τ : Type*}

/-- A reset is about every client. -/
def isOf (id : UInt32) : Event τ → Bool
  | connect i _ _ => i = id
  | disconnect i _ => i = id
  | reset => true

end Event

namespace Rust

def tableOf (batches : List (List (Event ℤ))) : ClientMap ℤ :=
  batches.foldl (fun db es => clearClients (es.foldl apply db)) noClients

variable {id : UInt32} {map map' : ClientMap ℤ}

lemma insert_self (id : UInt32) (c : Client ℤ) : map.insert id c id = some c :=
  Function.update_self ..

lemma insert_of_ne {i : UInt32} (h : i ≠ id) (c : Client ℤ) : map.insert i c id = map id :=
  Function.update_of_ne h.symm ..

lemma apply_other {e : Event ℤ} (h : e.isOf id = false) : apply map e id = map id := by
  cases e with
  | connect i name t =>
    have hi : i ≠ id := of_decide_eq_false h
    simp only [apply, logConnect]
    split
    · rfl
    · split
      · exact insert_of_ne hi _
      · exact insert_of_ne hi _
  | disconnect i t =>
    have hi : i ≠ id := of_decide_eq_false h
    simp only [apply, logDisconnect]
    split
    · rfl
    · cases map i with
      | none => rfl
      | some c =>
        dsimp only
        split
        · exact insert_of_ne hi _
        · rfl
  | reset => cases h

lemma apply_congr (h : map id = map' id) (e : Event ℤ) : apply map e id = apply map' e id := by
  by_cases ho : e.isOf id = true
  · cases e with
    | connect i name t =>
      obtain rfl : i = id := of_decide_eq_true ho
      simp only [apply, logConnect, h]
      split
      · exact h
      · split
        · rw [insert_self, insert_self]
        · rw [insert_self, insert_self]
    | disconnect i t =>
      obtain rfl : i = id := of_decide_eq_true ho
      simp only [apply, logDisconnect]
      split
      · exact h
      · rw [h]
        cases hc : map' i with
        | none => exact h
        | some c =>
          dsimp only
          split
          · rw [insert_self, insert_self]
          · exact h
    | reset => simp only [apply, clearClients, h]
  · have hother : e.isOf id = false := by simpa using ho
    rw [apply_other hother, apply_other hother, h]

lemma foldl_congr (h : map id = map' id) (es : List (Event ℤ)) :
    es.foldl apply map id = es.foldl apply map' id := by
  induction es generalizing map map' with
  | nil => exact h
  | cons e es ih => exact ih (apply_congr h e)

lemma foldl_other {es : List (Event ℤ)} (h : es.any (Event.isOf id) = false) :
    es.foldl apply map id = map id := by
  induction es generalizing map with
  | nil => rfl
  | cons e es ih =>
    rw [List.any_cons, Bool.or_eq_false_iff] at h
    rw [List.foldl_cons, ih h.2, apply_other h.1]

lemma tableOf_snoc (batches : List (List (Event ℤ))) (es : List (Event ℤ)) :
    tableOf (batches ++ [es]) = clearClients (es.foldl apply (tableOf batches)) := by
  rw [tableOf, List.foldl_append]
  rfl

lemma clearClients_tableOf (batches : List (List (Event ℤ))) :
    clearClients (tableOf batches) = tableOf batches := by
  cases batches using List.reverseRecOn with
  | nil => rfl
  | append_singleton batches es =>
    funext id
    rw [tableOf_snoc, clearClients, clearClients, Option.map_map]
    rfl

lemma tableOf_filter (id : UInt32) (batches : List (List (Event ℤ))) :
    tableOf (batches.filter fun es => es.any (Event.isOf id)) id = tableOf batches id := by
  induction batches using List.reverseRecOn with
  | nil => rfl
  | append_singleton batches es ih =>
    rw [List.filter_append, tableOf_snoc, clearClients]
    cases hany : es.any (Event.isOf id) with
    | true =>
      rw [List.filter_singleton, hany, cond_true, tableOf_snoc, clearClients, foldl_congr ih]
    | false =>
      have hidle := congrFun (clearClients_tableOf batches) id
      rw [List.filter_singleton, hany, cond_false, List.append_nil, ih, foldl_other hany]
      exact hidle.symm

end Rust

end TeamspeakWebserver.Ltc
