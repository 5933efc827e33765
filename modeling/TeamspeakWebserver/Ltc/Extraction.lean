import TeamspeakWebserver.Ltc.Nicknames
import TeamspeakWebserver.Ltc.Report

/-! What `parse_line` of `ltc.cpp` takes from a line. -/

namespace TeamspeakWebserver.Ltc

open Text

def behind (line : Bytes) : Option (ClientAction × Bytes) :=
  match find ClientAction.connect.phrase line with
  | some pos => some (.connect, line.drop (pos + ClientAction.connect.phrase.length))
  | none => (find ClientAction.disconnect.phrase line).map fun pos =>
      (.disconnect, line.drop (pos + ClientAction.disconnect.phrase.length))

def HasClient (text : Bytes) : Prop :=
  ∃ p name digits q, text = p ++ 39 :: (name ++ 39 :: 40 :: (ascii "id:" ++ (digits ++ 41 :: q))) ∧
    digits ≠ [] ∧ ∀ b ∈ digits, isDigit b = true

def FirstQuoted (view name : Bytes) : Prop :=
  ∃ p q, view = p ++ 39 :: (name ++ 39 :: q) ∧ 39 ∉ p ∧ 39 ∉ name

/-- What stands before the first parenthesis behind the first `(id:`, or behind three bytes of a text
without one, and begins with a number. One that is no `int` counts as 0. -/
def Identified (view : Bytes) (n : ℤ) : Prop :=
  ∃ p number q, view = p ++ (number ++ 41 :: q) ∧ 41 ∉ number ∧
    ((∃ r, p = r ++ ascii "(id:" ∧ ¬ ascii "(id:" <:+: r) ∨
      ¬ ascii "(id:" <:+: view ∧ p.length = 3) ∧
    (Cpp.fromChars number = .parsed n ∨ Cpp.fromChars number = .outOfRange ∧ n = 0)

section Reading

variable {view name : Bytes} {n : ℤ}

lemma cpp_getName_iff : Cpp.getName view = some name ↔ FirstQuoted view name := by
  rw [Cpp.getName, quote_ascii]
  constructor
  · intro h
    obtain ⟨j, hj, hname⟩ := Option.map_eq_some_iff.mp h
    cases hf : find [39] view with
    | none =>
      rw [hf, Option.elim_none, findFrom, if_pos (Nat.zero_le _), List.drop_zero, hf] at hj
      cases hj
    | some i =>
      obtain ⟨p, q, rfl, hp, rfl⟩ := find_singleton.mp hf
      rw [hf, Option.elim_some] at hj hname
      obtain ⟨p', w, q', he, hlen, hw, rfl⟩ := findFrom_mem.mp hj
      have hsplit : (p ++ [39]) ++ q = p' ++ (w ++ 39 :: q') := by
        rw [← he, List.append_assoc, List.singleton_append]
      obtain ⟨rfl, rfl⟩ := List.append_inj hsplit (by rw [hlen, List.length_append]; rfl)
      rw [he, ← hlen, List.drop_left, Nat.add_sub_cancel_left, List.take_left] at hname
      rw [← hname]
      exact ⟨p, q', by simp, hp, hw⟩
  · rintro ⟨p, q, rfl, hp, hname⟩
    have hstart : find [39] (p ++ 39 :: (name ++ 39 :: q)) = some p.length := find_mem hp _
    have hend : findFrom [39] (p ++ 39 :: (name ++ 39 :: q)) (p.length + 1) =
        some (p.length + 1 + name.length) := by
      apply findFrom_mem.mpr
      exact ⟨p ++ [39], name, q, by simp, by simp, hname, rfl⟩
    have hdrop : (p ++ 39 :: (name ++ 39 :: q)).drop (p.length + 1) = name ++ 39 :: q := by
      rw [← List.drop_drop, List.drop_left]
      rfl
    rw [hstart, Option.elim_some, hend, Option.map_some, hdrop, Nat.add_sub_cancel_left,
      List.take_left]

lemma idParen_ascii : ascii "(id:" = 40 :: ascii "id:" := by decide

lemma idStart_iff {p rest : Bytes} (he : view = p ++ rest) :
    ((∃ r, p = r ++ ascii "(id:" ∧ ¬ ascii "(id:" <:+: r) ∨
      ¬ ascii "(id:" <:+: view ∧ p.length = 3) ↔
        p.length = (find (ascii "(id:") view).elim 3 (· + 4) := by
  cases hf : find (ascii "(id:") view with
  | none =>
    have hnone := find_eq_none hf
    rw [Option.elim_none]
    constructor
    · rintro (⟨r, rfl, -⟩ | ⟨-, hlen⟩)
      · apply absurd _ hnone
        rw [he]
        exact infix_append_left (List.suffix_append r _).isInfix _
      · exact hlen
    · exact fun hlen => Or.inr ⟨hnone, hlen⟩
  | some i =>
    rw [idParen_ascii] at hf
    obtain ⟨r, rest', hr, hinfix, rfl⟩ := (find_first (by decide)).mp hf
    rw [← idParen_ascii] at hr hinfix
    rw [Option.elim_some]
    constructor
    · rintro (⟨r', rfl, hinfix'⟩ | ⟨hnone, -⟩)
      · have hfirst : find (40 :: ascii "id:") view = some r'.length := by
          rw [he, List.append_assoc, idParen_ascii]
          exact find_unbordered (by decide) (by rwa [← idParen_ascii])
        rw [hf] at hfirst
        rw [List.length_append, ← Option.some.inj hfirst]
        rfl
      · exact absurd ⟨r, rest', by rw [hr, List.append_assoc]⟩ hnone
    · intro hlen
      refine Or.inl ⟨r, ?_, hinfix⟩
      have hsplit : (r ++ ascii "(id:") ++ rest' = p ++ rest := by
        rw [← he, hr, List.append_assoc]
      refine (List.append_inj hsplit ?_).1.symm
      rw [hlen, List.length_append]
      rfl

lemma cpp_getId_iff : Cpp.getId view 0 = some n ↔ Identified view n := by
  rw [Cpp.getId, paren_ascii, Option.bind_eq_some_iff]
  constructor
  · rintro ⟨j, hj, h⟩
    obtain ⟨p, number, q, he, hlen, hparen, rfl⟩ := findFrom_mem.mp hj
    refine ⟨p, number, q, he, hparen, (idStart_iff he).mpr hlen, ?_⟩
    rw [← hlen, he, List.drop_left, Nat.add_sub_cancel_left, List.take_left] at h
    cases hc : Cpp.fromChars number with
    | invalid =>
      rw [hc] at h
      cases h
    | outOfRange =>
      rw [hc] at h
      exact Or.inr ⟨rfl, (Option.some.inj h).symm⟩
    | parsed m =>
      rw [hc] at h
      rw [Option.some.inj h]
      exact Or.inl rfl
  · rintro ⟨p, number, q, he, hparen, hp, h⟩
    have hlen := (idStart_iff he).mp hp
    refine ⟨_, findFrom_mem.mpr ⟨p, number, q, he, hlen, hparen, rfl⟩, ?_⟩
    rw [← hlen, he, List.drop_left, Nat.add_sub_cancel_left, List.take_left]
    rcases h with h | ⟨h, rfl⟩
    · rw [h]
    · rw [h]

lemma cpp_parseLine_iff {line : Bytes} {action : ClientAction} :
    Cpp.parseLine line = some (action, name, n) ↔ ∃ text, behind line = some (action, text) ∧
      FirstQuoted (cstring text) name ∧ Identified (cstring text) n := by
  have hread (a : ClientAction) (pos : ℕ) : Cpp.readClient line a pos = some (action, name, n) ↔
      a = action ∧ FirstQuoted (cstring (line.drop (pos + a.phrase.length))) name ∧
        Identified (cstring (line.drop (pos + a.phrase.length))) n := by
    simp only [Cpp.readClient, Option.bind_eq_some_iff, Option.map_eq_some_iff, Prod.mk.injEq,
      cpp_getName_iff, cpp_getId_iff]
    constructor
    · rintro ⟨name', hname, n', hn, rfl, rfl, rfl⟩
      exact ⟨rfl, hname, hn⟩
    · rintro ⟨rfl, hname, hn⟩
      exact ⟨name, hname, n, hn, rfl, rfl, rfl⟩
  rw [Cpp.parseLine, behind]
  cases find ClientAction.connect.phrase line with
  | some pos =>
    simp only [hread, Option.some.injEq, Prod.mk.injEq]
    constructor
    · rintro ⟨rfl, h⟩
      exact ⟨_, ⟨rfl, rfl⟩, h⟩
    · rintro ⟨text, ⟨rfl, rfl⟩, h⟩
      exact ⟨rfl, h⟩
  | none =>
    simp only [Option.bind_eq_some_iff, Option.map_eq_some_iff, hread, Prod.mk.injEq]
    constructor
    · rintro ⟨pos, hpos, rfl, h⟩
      exact ⟨_, ⟨pos, hpos, rfl, rfl⟩, h⟩
    · rintro ⟨text, ⟨pos, hpos, rfl, rfl⟩, h⟩
      exact ⟨pos, hpos, rfl, h⟩

lemma behind_iff {line text : Bytes} {action : ClientAction} :
    behind line = some (action, text) ↔ Acts line action ∧ ∃ pos,
      find action.phrase line = some pos ∧ line.drop (pos + action.phrase.length) = text := by
  rw [behind]
  cases hf : find ClientAction.connect.phrase line with
  | some pos =>
    have hin : ClientAction.connect.phrase <:+: line := find_isSome.mp (by rw [hf]; rfl)
    cases action <;> simp [Acts, hin, hf]
  | none =>
    have hnone := find_eq_none hf
    cases action with
    | connect => simp [Acts, hnone]
    | disconnect =>
      simp only [Option.map_eq_some_iff, Prod.mk.injEq, true_and, Acts, hnone, not_false_eq_true]
      constructor
      · rintro ⟨pos, hpos, ht⟩
        exact ⟨find_isSome.mp (by rw [hpos]; rfl), pos, hpos, ht⟩
      · exact fun h => h.2

end Reading

namespace Entry

variable {e : Entry} {n : ℤ} {number : Bytes}

def between (e : Entry) : Bytes :=
  match find e.action.phrase e.head with
  | some pos => e.head.drop (pos + e.action.phrase.length) ++ 124 :: (e.action.phrase ++ [32])
  | none => [32]

def view (e : Entry) (number : Bytes) : Bytes := cstring (e.between ++ e.quoted number)

structure Extractable (e : Entry) (n : ℤ) : Prop where
  action : e.Unmistaken
  name : FirstQuoted (e.view (Rust.showInt n)) (utf8 e.name)
  id : Identified (e.view (Rust.showInt n)) n

lemma find_phrase_bytes (e : Entry) (number : Bytes) : ∃ pos, find e.action.phrase (e.bytes number) = some pos ∧
    (e.bytes number).drop (pos + e.action.phrase.length) = e.between ++ e.quoted number := by
  have hbar := (ClientLine.separator_not_mem e.action).1
  rw [between]
  cases hf : find e.action.phrase e.head with
  | some pos =>
    refine ⟨pos, find_append hf _, ?_⟩
    obtain ⟨hle, hpre⟩ := find_eq_some hf
    have hlen := hpre.length_le
    rw [List.length_drop] at hlen
    rw [bytes, List.drop_append_of_le_length (by omega)]
    simp
  | none =>
    refine ⟨e.head.length + 1, ?_, ?_⟩
    · rw [bytes, find_separator hbar (find_eq_none hf), find_prefix, Option.map_some, Nat.zero_add]
    · have hsplit : e.bytes number = (e.head ++ 124 :: e.action.phrase) ++ ([32] ++ e.quoted number) := by
        simp [bytes]
      have hlen : e.head.length + 1 + e.action.phrase.length =
          (e.head ++ 124 :: e.action.phrase).length := by
        rw [List.length_append, List.length_cons]
        omega
      rw [hsplit, hlen, List.drop_left]

lemma behind_bytes (h99 : 99 ∉ number) {text : Bytes} :
    behind (e.bytes number) = some (e.action, text) ↔
      e.Unmistaken ∧ e.between ++ e.quoted number = text := by
  obtain ⟨pos, hpos, hdrop⟩ := find_phrase_bytes e number
  rw [behind_iff, acts_bytes h99]
  constructor
  · rintro ⟨hu, pos', hpos', rfl⟩
    rw [hpos] at hpos'
    obtain rfl := Option.some.inj hpos'
    exact ⟨hu, hdrop.symm⟩
  · rintro ⟨hu, rfl⟩
    exact ⟨hu, pos, hpos, hdrop⟩

lemma showInt_mem {b : UInt8} (h : b ∈ Rust.showInt n) : b = 45 ∨ isDigit b = true := by
  rw [Rust.showInt] at h
  split at h
  · rcases List.mem_cons.mp h with h | h
    · exact Or.inl h
    · exact Or.inr (isDigit_decimal _ b h)
  · exact Or.inr (isDigit_decimal _ b h)

lemma parseLine_bytes : Cpp.parseLine (e.bytes (Rust.showInt n)) = some (e.action, utf8 e.name, n) ↔
    e.Extractable n := by
  have h99 : 99 ∉ Rust.showInt n := by
    intro hm
    exact absurd (showInt_mem hm) (by decide)
  rw [cpp_parseLine_iff]
  constructor
  · rintro ⟨text, hb, hname, hid⟩
    obtain ⟨hu, rfl⟩ := (behind_bytes h99).mp hb
    exact ⟨hu, hname, hid⟩
  · intro h
    exact ⟨_, (behind_bytes h99).mpr ⟨h.action, rfl⟩, h.name, h.id⟩

lemma fromChars_showInt (h : -2 ^ 31 ≤ n) (h' : n < 2 ^ 31) :
    Cpp.fromChars (Rust.showInt n) = .parsed n := by
  rw [Rust.showInt]
  split
  case isTrue hneg =>
    have hv : -(n.natAbs : ℤ) = n := by omega
    simp only [Cpp.fromChars, List.head?_cons, if_true, List.tail_cons, ClientLine.takeWhile_decimal,
      value_decimal, if_neg (decimal_ne_nil n.natAbs), hv]
    rw [if_pos ⟨h, h'⟩]
  case isFalse hpos =>
    have hv : (n.natAbs : ℤ) = n := by omega
    rw [ClientLine.fromChars_decimal (by omega), hv]

lemma extractable_of_plain (hu : e.Unmistaken) (hhead : ¬ e.action.phrase <:+: e.head)
    (hnul : 0 ∉ utf8 e.name) (hquote : 39 ∉ utf8 e.name) (hid : ¬ ascii "(id:" <:+: utf8 e.name)
    (h : -2 ^ 31 ≤ n) (h' : n < 2 ^ 31) : e.Extractable n := by
  have hparen : (41 : UInt8) ∉ Rust.showInt n := by
    intro hm
    exact absurd (showInt_mem hm) (by decide)
  have hzero : (0 : UInt8) ∉ Rust.showInt n := by
    intro hm
    exact absurd (showInt_mem hm) (by decide)
  have hview : e.view (Rust.showInt n) = [32] ++ 39 :: (utf8 e.name ++ 39 :: (ascii "(id:" ++
      (Rust.showInt n ++ 41 :: cstring (utf8 e.tail)))) := by
    have hbetween : e.between = [32] := by
      rw [between, find_of_absent hhead]
    have hsplit : e.between ++ e.quoted (Rust.showInt n) = ([32] ++ 39 :: (utf8 e.name ++
        39 :: (ascii "(id:" ++ (Rust.showInt n ++ [41])))) ++ utf8 e.tail := by
      rw [hbetween]
      simp [quoted, idParen_ascii]
    rw [view, hsplit, cstring, List.takeWhile_append_of_pos]
    · simp [cstring]
    · intro b hb
      have hne : b ≠ 0 := by
        rintro rfl
        have hmark : (0 : UInt8) ∉ ascii "(id:" := by decide
        simp [hnul, hzero, hmark] at hb
      simpa using hne
  refine ⟨hu, ?_, ?_⟩
  · rw [hview]
    exact ⟨[32], _, rfl, by decide, hquote⟩
  · rw [hview]
    refine ⟨[32] ++ 39 :: (utf8 e.name ++ 39 :: ascii "(id:"), Rust.showInt n,
      cstring (utf8 e.tail), by simp, hparen, Or.inl ⟨[32] ++ 39 :: (utf8 e.name ++ [39]), by simp, ?_⟩,
      Or.inl (fromChars_showInt h h')⟩
    rw [infix_separator (by decide), infix_separator (by decide)]
    rintro (hi | hi | hi)
    · exact absurd hi (by decide)
    · exact hid hi
    · exact absurd hi (by decide)

end Entry

def Rejected (line : Bytes) : Prop :=
  (∀ action text, behind line = some (action, text) → ¬ HasClient text) → Cpp.parseLine line = none

/-- Without a client, the text up to its first byte 0 has fewer than two quotes or no number where one
is looked for. -/
def Unreadable (line : Bytes) : Prop :=
  ∀ action text, behind line = some (action, text) → HasClient text ∨
    (¬ ∃ name, FirstQuoted (cstring text) name) ∨ ¬ ∃ n, Identified (cstring text) n

lemma rejected_iff (line : Bytes) : Rejected line ↔ Unreadable line := by
  constructor
  · intro h action text hb
    by_contra hn
    rw [not_or, not_or, not_not, not_not] at hn
    obtain ⟨hclient, ⟨name, hname⟩, n, hn⟩ := hn
    have hread := cpp_parseLine_iff.mpr ⟨text, hb, hname, hn⟩
    rw [h] at hread
    · cases hread
    · intro action' text' hb'
      rw [hb] at hb'
      obtain ⟨-, rfl⟩ := Prod.mk.inj (Option.some.inj hb')
      exact hclient
  · intro h hnone
    cases hp : Cpp.parseLine line with
    | none => rfl
    | some client =>
      obtain ⟨action, name, n⟩ := client
      obtain ⟨text, hb, hname, hn⟩ := cpp_parseLine_iff.mp hp
      rcases h action text hb with hc | hc | hc
      · exact absurd hc (hnone action text hb)
      · exact absurd ⟨name, hname⟩ hc
      · exact absurd ⟨n, hn⟩ hc

theorem extracted_iff (e : Entry) (n : Int32) (line : Bytes) :
    (Cpp.parseLine (e.bytes (Rust.showInt n.toInt)) = some (e.action, utf8 e.name, n.toInt) ↔
      e.Extractable n.toInt) ∧ (Rejected line ↔ Unreadable line) :=
  ⟨Entry.parseLine_bytes, rejected_iff line⟩

def obrien : Entry where
  time := mayMorning
  filler := ".000000|INFO    |VirtualServerBase|1  ".toList
  action := .connect
  name := "O'Brien".toList
  tail := " from 10.0.0.1:4000".toList
  length_time := length_mayMorning

set_option maxRecDepth 4000 in
/-- The name ends at its first quote, and where no `(id:` is found the number is read from the fourth
byte behind the phrase on. -/
theorem name_cut_and_id_made_up : ¬ ((∀ (e : Entry) (n : Int32),
    Cpp.parseLine (e.bytes (Rust.showInt n.toInt)) = some (e.action, utf8 e.name, n.toInt)) ∨
      ∀ line, Rejected line) := by
  rintro (h | h)
  · have hfive : Rust.showInt (5 : Int32).toInt = ascii "5" := by
      rw [Rust.showInt, if_neg (by decide), decimal, if_neg (by decide)]
      simp [digit, ascii]
    have hread : Cpp.parseLine (obrien.bytes (ascii "5")) = some (.connect, ascii "O", 5) := by
      decide
    have hname := h obrien 5
    rw [hfive, hread] at hname
    exact absurd hname (by decide)
  · have hread : Cpp.parseLine (ascii "client connected 'a7)'") = some (.connect, ascii "a7)", 7) := by
      decide
    have hbehind : behind (ascii "client connected 'a7)'") = some (.connect, ascii " 'a7)'") := by
      decide
    have hnone := h (ascii "client connected 'a7)'")
    rw [Rejected, hread] at hnone
    apply absurd (hnone ?_) (by decide)
    rintro action text hb ⟨p, name, digits, q, he, -, -⟩
    rw [hbehind] at hb
    obtain ⟨-, rfl⟩ := Prod.mk.inj (Option.some.inj hb)
    have hin : ascii "id:" <:+: ascii " 'a7)'" :=
      ⟨p ++ 39 :: (name ++ [39, 40]), digits ++ 41 :: q, by rw [he]; simp⟩
    exact absurd hin (by decide)

end TeamspeakWebserver.Ltc
