import Mathlib.Data.List.TakeWhile
import Mathlib.Tactic

/-! Strings as the programs see them. -/

namespace TeamspeakWebserver

abbrev Bytes := List UInt8

def ascii (s : String) : Bytes := s.toList.map fun c => c.toNat.toUInt8

def cstring (b : Bytes) : Bytes := b.takeWhile (· ≠ 0)

def utf8 (s : List Char) : Bytes := s.flatMap String.utf8EncodeChar

namespace Text

def isContinuation (b : UInt8) : Bool := 128 ≤ b && b < 192

def isCharBoundary (s : Bytes) (i : ℕ) : Bool :=
  i = 0 || i = s.length || (s[i]?).any fun b => !isContinuation b

/-- `&s[start..stop]`, which panics outside the text and inside a character. -/
def slice (s : Bytes) (start stop : ℕ) : Option Bytes :=
  if start ≤ stop ∧ isCharBoundary s start ∧ isCharBoundary s stop then
    some ((s.take stop).drop start)
  else none

lemma slice_subset {s t : Bytes} {start stop : ℕ} (h : slice s start stop = some t) : t ⊆ s := by
  rw [slice] at h
  split at h
  · rw [← Option.some.inj h]
    exact ((List.drop_sublist _ _).trans (List.take_sublist _ _)).subset
  · cases h

lemma length_cstring_le (b : Bytes) : (cstring b).length ≤ b.length :=
  (List.takeWhile_sublist _).length_le

lemma cstring_eq {b : Bytes} (h : 0 ∉ b) : cstring b = b := by
  rw [cstring, List.takeWhile_eq_self_iff]
  intro a ha
  have hne : a ≠ 0 := fun h0 => h (h0 ▸ ha)
  simpa using hne

lemma utf8_cons (c : Char) (s : List Char) : utf8 (c :: s) = String.utf8EncodeChar c ++ utf8 s :=
  List.flatMap_cons

lemma utf8EncodeChar_cases (c : Char) : (∃ b, String.utf8EncodeChar c = [b] ∧ b < 128) ∨
    ∃ b bs, String.utf8EncodeChar c = b :: bs ∧ 192 ≤ b ∧ ∀ d ∈ bs, isContinuation d = true := by
  have hfirst (n : ℕ) (h : 192 ≤ n) (h' : n < 256) : (192 : UInt8) ≤ UInt8.ofNat n := by
    rw [UInt8.le_iff_toNat_le, UInt8.toNat_ofNat', Nat.mod_eq_of_lt h']
    exact h
  have hlater (n : ℕ) : isContinuation (UInt8.ofNat (n % 64 + 128)) = true := by
    rw [isContinuation, Bool.and_eq_true, decide_eq_true_eq, decide_eq_true_eq,
      UInt8.le_iff_toNat_le, UInt8.lt_iff_toNat_lt, UInt8.toNat_ofNat', Nat.mod_eq_of_lt (by omega)]
    exact ⟨Nat.le_add_left 128 _, Nat.add_lt_of_lt_sub (Nat.mod_lt n (by decide))⟩
  rw [String.utf8EncodeChar]
  split
  case isTrue h =>
    refine Or.inl ⟨_, rfl, ?_⟩
    rw [UInt8.lt_iff_toNat_lt, UInt8.toNat_ofNat', Nat.mod_eq_of_lt (by omega)]
    exact Nat.lt_succ_of_le h
  case isFalse =>
    right
    split
    · refine ⟨_, _, rfl, hfirst _ (by omega) (by omega), ?_⟩
      simp only [List.forall_mem_cons, hlater, true_and, List.not_mem_nil, false_imp_iff, implies_true]
    · split
      · refine ⟨_, _, rfl, hfirst _ (by omega) (by omega), ?_⟩
        simp only [List.forall_mem_cons, hlater, true_and, List.not_mem_nil, false_imp_iff, implies_true]
      · refine ⟨_, _, rfl, hfirst _ (by omega) (by omega), ?_⟩
        simp only [List.forall_mem_cons, hlater, true_and, List.not_mem_nil, false_imp_iff, implies_true]

lemma isContinuation_of_lt {b : UInt8} (h : b < 128) : isContinuation b = false := by
  simp [isContinuation, UInt8.not_le.mpr h]

lemma head_utf8EncodeChar (c : Char) :
    ∃ b bs, String.utf8EncodeChar c = b :: bs ∧ isContinuation b = false := by
  rcases utf8EncodeChar_cases c with ⟨b, he, hb⟩ | ⟨b, bs, he, hb, -⟩
  · exact ⟨b, [], he, isContinuation_of_lt hb⟩
  · exact ⟨b, bs, he, by simp [isContinuation, UInt8.not_lt.mpr hb]⟩

lemma isCharBoundary_append {p q : Bytes} (h : ∀ b ∈ q.head?, isContinuation b = false) :
    isCharBoundary (p ++ q) p.length = true := by
  cases q with
  | nil => simp [isCharBoundary]
  | cons b q => simp [isCharBoundary, h b rfl]

lemma head_utf8 (s : List Char) {rest : Bytes} (h : ∀ b ∈ rest.head?, isContinuation b = false) :
    ∀ b ∈ (utf8 s ++ rest).head?, isContinuation b = false := by
  cases s with
  | nil => exact h
  | cons c s =>
    obtain ⟨b, bs, he, hb⟩ := head_utf8EncodeChar c
    intro b' hm
    rw [utf8_cons, he] at hm
    obtain rfl := Option.some.inj hm
    exact hb

lemma utf8_head (s : List Char) : ∀ b ∈ (utf8 s).head?, isContinuation b = false := by
  have h := @head_utf8 s [] (by simp)
  rwa [List.append_nil] at h

lemma slice_append {p q r : Bytes} (hq : ∀ b ∈ (q ++ r).head?, isContinuation b = false)
    (hr : ∀ b ∈ r.head?, isContinuation b = false) :
    slice (p ++ (q ++ r)) p.length (p.length + q.length) = some q := by
  have h1 : isCharBoundary (p ++ (q ++ r)) p.length = true := isCharBoundary_append hq
  have h2 : isCharBoundary (p ++ (q ++ r)) (p.length + q.length) = true := by
    rw [← List.length_append, ← List.append_assoc]
    exact isCharBoundary_append hr
  rw [slice, if_pos ⟨Nat.le_add_right _ _, h1, h2⟩, ← List.append_assoc, ← List.length_append,
    List.take_left, List.drop_left]

lemma slice_drop {p q : Bytes} (hq : ∀ b ∈ q.head?, isContinuation b = false) :
    slice (p ++ q) p.length (p ++ q).length = some q := by
  have h := slice_append (p := p) (q := q) (r := []) (by rwa [List.append_nil]) (by simp)
  rwa [List.append_nil, ← List.length_append] at h

lemma utf8_injective : Function.Injective utf8 := by
  intro s t h
  have hbytes : s.utf8Encode = t.utf8Encode := by
    rw [List.utf8Encode, List.utf8Encode]
    exact congrArg List.toByteArray h
  apply String.ofList_injective
  apply String.toByteArray_inj.mp
  simpa using hbytes

lemma utf8_append (s t : List Char) : utf8 (s ++ t) = utf8 s ++ utf8 t := List.flatMap_append

lemma utf8_of_ascii {t : Bytes} (h : t.all (· < 128) = true) : ∃ s, t = utf8 s := by
  induction t with
  | nil => exact ⟨[], rfl⟩
  | cons b t ih =>
    rw [List.all_cons, Bool.and_eq_true, decide_eq_true_eq] at h
    obtain ⟨s, hs⟩ := ih h.2
    have hb : b.toNat < 128 := h.1
    have hval : (Char.ofNat b.toNat).val.toNat = b.toNat := by
      have hv : b.toNat.isValidChar := Or.inl (by omega)
      rw [Char.ofNat, dif_pos hv]
      rfl
    refine ⟨Char.ofNat b.toNat :: s, ?_⟩
    rw [utf8_cons, ← hs, String.utf8EncodeChar, if_pos (by omega), hval, UInt8.ofNat_toNat,
      List.singleton_append]

lemma utf8_split {s : List Char} {i : ℕ} (h : isCharBoundary (utf8 s) i = true) :
    ∃ p q, s = p ++ q ∧ (utf8 p).length = i := by
  induction s generalizing i with
  | nil =>
    refine ⟨[], [], rfl, ?_⟩
    simpa [isCharBoundary, utf8, eq_comm] using h
  | cons c s ih =>
    rw [utf8_cons] at h
    by_cases hi : i < (String.utf8EncodeChar c).length
    · refine ⟨[], c :: s, rfl, ?_⟩
      rcases utf8EncodeChar_cases c with ⟨b, he, -⟩ | ⟨b, bs, he, -, hbs⟩
      · rw [he, List.length_singleton] at hi
        exact (Nat.lt_one_iff.mp hi).symm
      · cases i with
        | zero => rfl
        | succ i =>
          rw [he, List.length_cons] at hi
          have hlt := Nat.lt_of_succ_lt_succ hi
          have hne : i ≠ bs.length + (utf8 s).length := by omega
          simp [isCharBoundary, he, hlt, List.getElem?_append_left, hne, hbs] at h
    · have hshift : isCharBoundary (utf8 s) (i - (String.utf8EncodeChar c).length) = true := by
        have hle := Nat.le_of_not_lt hi
        simp only [isCharBoundary, List.length_append, List.getElem?_append_right hle] at h ⊢
        have hlen : (i = (String.utf8EncodeChar c).length + (utf8 s).length) ↔
            i - (String.utf8EncodeChar c).length = (utf8 s).length := by omega
        obtain ⟨b, bs, he, -⟩ := head_utf8EncodeChar c
        have hpos : i ≠ 0 := by
          rw [he, List.length_cons] at hle
          omega
        simp only [hlen, hpos, decide_false, Bool.false_or] at h
        rw [Bool.or_assoc, h, Bool.or_true]
      obtain ⟨p, q, rfl, hp⟩ := ih hshift
      refine ⟨c :: p, q, rfl, ?_⟩
      rw [utf8_cons, List.length_append, hp]
      omega

lemma utf8_around {s : List Char} {p q : Bytes} {b : UInt8} (h : utf8 s = p ++ b :: q) (hb : b < 128) :
    ∃ t u, p = utf8 t ∧ q = utf8 u := by
  have hcut : isCharBoundary (utf8 s) p.length = true := by
    rw [h]
    apply isCharBoundary_append
    intro d hd
    obtain rfl := Option.some.inj hd
    exact isContinuation_of_lt hb
  obtain ⟨t, u, rfl, ht⟩ := utf8_split hcut
  rw [utf8_append] at h
  obtain ⟨rfl, hu⟩ := List.append_inj h ht
  cases u with
  | nil => cases hu
  | cons c u =>
    rw [utf8_cons] at hu
    rcases utf8EncodeChar_cases c with ⟨d, he, -⟩ | ⟨d, ds, he, hd, -⟩
    · rw [he] at hu
      exact ⟨t, u, rfl, (List.cons.inj hu).2.symm⟩
    · rw [he] at hu
      obtain rfl := (List.cons.inj hu).1
      exact absurd (UInt8.lt_of_lt_of_le hb (UInt8.le_trans (by decide) hd)) (UInt8.lt_irrefl d)

end Text

end TeamspeakWebserver
