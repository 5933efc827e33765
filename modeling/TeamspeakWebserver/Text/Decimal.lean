import Mathlib.Data.Nat.Digits.Lemmas
import TeamspeakWebserver.Text.Bytes

/-! Numbers written in decimal. -/

namespace TeamspeakWebserver.Text

def isDigit (b : UInt8) : Bool := 48 ≤ b && b ≤ 57

def digit (d : ℕ) : UInt8 := (48 + d).toUInt8

def value (ds : Bytes) : ℕ := ds.foldl (fun n d => n * 10 + (d.toNat - 48)) 0

def decimal (n : ℕ) : Bytes := if n = 0 then [48] else (Nat.digits 10 n).reverse.map digit

def pad : (w n : ℕ) → Bytes
  | 0, _ => []
  | w + 1, n => pad w (n / 10) ++ [digit (n % 10)]

lemma toNat_digit {d : ℕ} (h : d < 10) : (digit d).toNat = 48 + d := by
  rw [digit, Nat.toUInt8, UInt8.toNat_ofNat']
  omega

lemma isDigit_digit {d : ℕ} (h : d < 10) : isDigit (digit d) = true := by
  rw [isDigit, Bool.and_eq_true, decide_eq_true_eq, decide_eq_true_eq, UInt8.le_iff_toNat_le,
    UInt8.le_iff_toNat_le, toNat_digit h]
  have h48 : (48 : UInt8).toNat = 48 := rfl
  have h57 : (57 : UInt8).toNat = 57 := rfl
  omega

lemma lt_of_isDigit {b : UInt8} (h : isDigit b = true) : b < 128 := by
  simp only [isDigit, Bool.and_eq_true, decide_eq_true_eq] at h
  exact UInt8.lt_of_le_of_lt h.2 (by decide)

lemma isContinuation_of_isDigit {b : UInt8} (h : isDigit b = true) : isContinuation b = false := by
  simp only [isDigit, isContinuation, Bool.and_eq_true, decide_eq_true_eq, Bool.and_eq_false_iff,
    decide_eq_false_iff_not] at h ⊢
  left
  intro hc
  exact absurd (UInt8.le_trans hc h.2) (by decide)

lemma value_snoc (ds : Bytes) (d : UInt8) : value (ds ++ [d]) = value ds * 10 + (d.toNat - 48) := by
  simp [value, List.foldl_append]

lemma value_decimal (n : ℕ) : value (decimal n) = n := by
  rw [decimal]
  split
  case isTrue h0 =>
    rw [h0]
    rfl
  case isFalse =>
    induction n using Nat.strong_induction_on with
    | _ n ih =>
      rename_i h0
      rw [Nat.digits_def' (by decide) (Nat.pos_of_ne_zero h0), List.reverse_cons, List.map_append,
        List.map_singleton, value_snoc, toNat_digit (Nat.mod_lt n (by decide))]
      by_cases hq : n / 10 = 0
      · rw [hq]
        simp only [Nat.digits_zero, List.reverse_nil, List.map_nil]
        have hv : value [] = 0 := rfl
        omega
      · rw [ih (n / 10) (by omega) hq]
        omega

lemma decimal_ne_nil (n : ℕ) : decimal n ≠ [] := by
  rw [decimal]
  split
  · exact List.cons_ne_nil _ _
  · simpa [Nat.digits_ne_nil_iff_ne_zero] using ‹¬n = 0›

lemma head_decimal {n : ℕ} (h : n ≠ 0) : ∃ d ds, decimal n = d :: ds ∧ d ≠ 48 := by
  have hne : Nat.digits 10 n ≠ [] := Nat.digits_ne_nil_iff_ne_zero.mpr h
  have hlast := Nat.getLast_digit_ne_zero 10 h
  have hlt : (Nat.digits 10 n).getLast hne < 10 := Nat.digits_lt_base (by decide) (List.getLast_mem hne)
  refine ⟨digit ((Nat.digits 10 n).getLast hne), (Nat.digits 10 n).dropLast.reverse.map digit, ?_, ?_⟩
  · rw [decimal, if_neg h, ← List.map_cons, ← List.reverse_concat', List.dropLast_append_getLast hne]
  · intro hd
    have hnat := toNat_digit hlt
    rw [hd] at hnat
    have h48 : (48 : UInt8).toNat = 48 := rfl
    omega

lemma isDigit_decimal (n : ℕ) : ∀ b ∈ decimal n, isDigit b = true := by
  intro b hb
  rw [decimal] at hb
  split at hb
  · rw [List.mem_singleton.mp hb]
    decide
  · obtain ⟨d, hd, rfl⟩ := List.mem_map.mp hb
    exact isDigit_digit (Nat.digits_lt_base (by decide) (List.mem_reverse.mp hd))

@[simp] lemma length_pad (w n : ℕ) : (pad w n).length = w := by
  induction w generalizing n with
  | zero => rfl
  | succ w ih => rw [pad, List.length_append, ih, List.length_singleton]

lemma isDigit_pad (w n : ℕ) : ∀ b ∈ pad w n, isDigit b = true := by
  induction w generalizing n with
  | zero =>
    intro b hb
    cases hb
  | succ w ih =>
    intro b hb
    rcases List.mem_append.mp hb with h | h
    · exact ih (n / 10) b h
    · rw [List.mem_singleton.mp h]
      exact isDigit_digit (Nat.mod_lt n (by decide))

lemma value_pad {w n : ℕ} (h : n < 10 ^ w) : value (pad w n) = n := by
  induction w generalizing n with
  | zero =>
    rw [pad]
    have h1 : n < 1 := h
    rw [Nat.lt_one_iff.mp h1]
    rfl
  | succ w ih =>
    rw [pad, value_snoc, toNat_digit (Nat.mod_lt n (by decide)), ih]
    · omega
    · rw [pow_succ] at h
      exact Nat.div_lt_of_lt_mul (by rwa [Nat.mul_comm])

end TeamspeakWebserver.Text
