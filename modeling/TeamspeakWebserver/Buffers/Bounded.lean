import Mathlib.Tactic

/-! Arrays of a fixed size. An access outside of the array has no result. -/

namespace TeamspeakWebserver.Buffers

structure Buffer (α : Type*) (size : ℕ) where
  cells : List α
  length_cells : cells.length = size

namespace Buffer

variable {α : Type*} {size i n : ℕ} {b : Buffer α size} {p q old data : List α}

def fill (size : ℕ) (a : α) : Buffer α size := ⟨List.replicate size a, List.length_replicate⟩

lemma fill_cells (size : ℕ) (a : α) : (fill size a).cells = List.replicate size a :=
  rfl

lemma length_stored (b : Buffer α size) (h : i + data.length ≤ size) :
    (b.cells.take i ++ (data ++ b.cells.drop (i + data.length))).length = size := by
  rw [List.length_append, List.length_append, List.length_take, List.length_drop, b.length_cells]
  omega

def store (b : Buffer α size) (i : ℕ) (data : List α) : Option (Buffer α size) :=
  if h : i + data.length ≤ size then
    some ⟨b.cells.take i ++ (data ++ b.cells.drop (i + data.length)), b.length_stored h⟩
  else none

def load (b : Buffer α size) (i n : ℕ) : Option (List α) :=
  if i + n ≤ size then some ((b.cells.drop i).take n) else none

lemma store_eq_none (h : size < i + data.length) : b.store i data = none :=
  dif_neg (Nat.not_le_of_lt h)

lemma length_load (h : b.load i n = some data) : data.length = n := by
  rw [load] at h
  split at h
  case isTrue hle =>
    rw [← Option.some.inj h, List.length_take, List.length_drop, b.length_cells]
    omega
  case isFalse => cases h

lemma exists_window (b : Buffer α size) (h : i + n ≤ size) :
    ∃ p old q, b.cells = p ++ (old ++ q) ∧ p.length = i ∧ old.length = n := by
  have hlen := b.length_cells
  refine ⟨b.cells.take i, (b.cells.drop i).take n, b.cells.drop (i + n), ?_, ?_, ?_⟩
  · rw [← List.drop_drop, List.take_append_drop, List.take_append_drop]
  · rw [List.length_take]
    omega
  · rw [List.length_take, List.length_drop]
    omega

lemma store_window (h : b.cells = p ++ (old ++ q)) (hlen : data.length = old.length) :
    ∃ b', b.store p.length data = some b' ∧ b'.cells = p ++ (data ++ q) := by
  have hsize : p.length + data.length ≤ size := by
    rw [← b.length_cells, h, List.length_append, List.length_append]
    omega
  refine ⟨_, dif_pos hsize, ?_⟩
  change b.cells.take p.length ++ (data ++ b.cells.drop (p.length + data.length)) = _
  rw [hlen, ← List.drop_drop, h, List.take_left, List.drop_left, List.drop_left]

lemma store_cell {a : α} (h : b.cells = p ++ a :: q) (c : α) :
    ∃ b', b.store p.length [c] = some b' ∧ b'.cells = p ++ c :: q :=
  have h : b.cells = p ++ ([a] ++ q) := h
  store_window h rfl

lemma load_window (h : b.cells = p ++ (data ++ q)) : b.load p.length data.length = some data := by
  have hsize : p.length + data.length ≤ size := by
    rw [← b.length_cells, h, List.length_append, List.length_append]
    omega
  rw [load, if_pos hsize, h, List.drop_left, List.take_left]

lemma load_front (h : b.cells = data ++ q) : b.load 0 data.length = some data :=
  load_window (p := []) h

lemma load_all (b : Buffer α size) : b.load 0 size = some b.cells := by
  have h := load_front (b := b) (List.append_nil b.cells).symm
  rwa [b.length_cells] at h

end Buffer

end TeamspeakWebserver.Buffers
