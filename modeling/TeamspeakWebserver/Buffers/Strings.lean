import TeamspeakWebserver.Buffers.Bounded
import TeamspeakWebserver.Text.Bytes

/-! The strings of C in arrays of bytes. -/

namespace TeamspeakWebserver.Buffers

open Text

def intMax : ℕ := 2 ^ 31 - 1

/-- What `snprintf` returns for the text that its format makes: the length it has, whether it is stored
as a whole or not, and a negative value if this is no `int`. -/
def printedLen (text : Bytes) : ℤ := if text.length ≤ intMax then text.length else -1

namespace Buffer

variable {size i n : ℕ} {b : Buffer UInt8 size} {p q old text : Bytes}

def string (b : Buffer UInt8 size) : Option Bytes :=
  if 0 ∈ b.cells then some (cstring b.cells) else none

def snprintf (b : Buffer UInt8 size) (i n : ℕ) (text : Bytes) : Option (Buffer UInt8 size × ℤ) :=
  if n = 0 then some (b, printedLen text)
  else (b.store i (text.take (n - 1) ++ [0])).map fun b => (b, printedLen text)

lemma not_mem_cstring (text : Bytes) : 0 ∉ cstring text := by
  intro hm
  have h := List.mem_takeWhile_imp hm
  simp at h

lemma cstring_append (text q : Bytes) : cstring (text ++ 0 :: q) = cstring text := by
  induction text with
  | nil => rfl
  | cons c text ih =>
    rw [cstring, cstring, List.cons_append, List.takeWhile_cons, List.takeWhile_cons]
    rw [cstring, cstring] at ih
    rw [ih]

lemma string_of_cells (h : b.cells = text ++ 0 :: q) : b.string = some (cstring text) := by
  rw [string, h, if_pos (List.mem_append_right text List.mem_cons_self), cstring_append]

lemma length_string (h : b.string = some text) : text.length < size := by
  rw [string] at h
  split at h
  case isTrue hm =>
    obtain ⟨p, q, hcells⟩ := List.append_of_mem hm
    have hlen := b.length_cells
    have hle := length_cstring_le p
    rw [← Option.some.inj h]
    rw [hcells, List.length_append, List.length_cons] at hlen
    rw [hcells, cstring_append]
    omega
  case isFalse => cases h

lemma store_string (b : Buffer UInt8 size) (h : text.length < size) : ∃ b' b'' q,
    b.store 0 text = some b' ∧ b'.store text.length [0] = some b'' ∧ b''.cells = text ++ 0 :: q := by
  obtain ⟨p, old, q, hcells, hp, hold⟩ := b.exists_window (i := 0) (n := text.length + 1) (by omega)
  obtain rfl := List.length_eq_zero_iff.mp hp
  obtain ⟨old, c, rfl⟩ : ∃ old' c, old = old' ++ [c] := by
    rcases List.eq_nil_or_concat' old with rfl | h
    · cases hold
    · exact h
  rw [List.append_assoc] at hcells
  rw [List.length_append, List.length_singleton] at hold
  obtain ⟨b', hb', hcells'⟩ := store_window hcells (Nat.succ.inj hold).symm
  obtain ⟨b'', hb'', hcells''⟩ := store_cell hcells' 0
  exact ⟨b', b'', q, hb', hb'', hcells''⟩

lemma snprintf_window (hn : 0 < n) (h : b.cells = p ++ (old ++ q))
    (hlen : old.length = (text.take (n - 1)).length + 1) :
    ∃ b', b.snprintf p.length n text = some (b', printedLen text) ∧
      b'.cells = p ++ (text.take (n - 1) ++ 0 :: q) := by
  have hdata : (text.take (n - 1) ++ [0]).length = old.length := by
    rw [List.length_append, hlen]
    rfl
  obtain ⟨b', hstore, hcells⟩ := store_window h hdata
  refine ⟨b', ?_, ?_⟩
  · rw [snprintf, if_neg (Nat.pos_iff_ne_zero.mp hn), hstore, Option.map_some]
  · rw [hcells, List.append_assoc]
    rfl

lemma snprintf_inside (b : Buffer UInt8 size) (h : i + n ≤ size) (hn : 0 < n) (text : Bytes) :
    ∃ b' q, b.snprintf i n text = some (b', printedLen text) ∧
      b'.cells = b.cells.take i ++ (text.take (n - 1) ++ 0 :: q) := by
  have hle : (text.take (n - 1)).length ≤ n - 1 := List.length_take_le _ _
  obtain ⟨p, old, q, hcells, rfl, hold⟩ :=
    b.exists_window (i := i) (n := (text.take (n - 1)).length + 1) (by omega)
  obtain ⟨b', hstore, hb'⟩ := snprintf_window hn hcells hold
  refine ⟨b', q, hstore, ?_⟩
  rw [hb', hcells, List.take_left]

end Buffer

end TeamspeakWebserver.Buffers
