import TeamspeakWebserver.Ltc.Lines

/-! The lines that tell of a client, and what the two programs read from them. -/

namespace TeamspeakWebserver.Ltc

open Text

/-- `NaiveDateTime::parse_from_str` reads the civil times of the two formats. -/
structure ReadsStamps (parseFromStr : Bytes → Bytes → Option ℤ) (fileFormat : Bytes) : Prop where
  line : ∀ st : Stamp, parseFromStr (st.text (ascii " ") 58) lineFormat = some st.timestamp
  file : ∀ st : Stamp, parseFromStr (st.text (ascii "__") 95) fileFormat = some st.timestamp

/-- `strptime` fills in the fields of the civil time a text begins with. -/
structure FillsTm (strptime : Bytes → Bytes → Option Tm) (fileFormat : Bytes) : Prop where
  line : ∀ (st : Stamp) (rest : Bytes),
    strptime (st.text (ascii " ") 58 ++ rest) lineFormat = some st.tm
  file : ∀ (st : Stamp) (rest : Bytes),
    strptime (ascii "ts3server_" ++ (st.text (ascii "__") 95 ++ rest)) fileFormat = some st.tm

/-- A line `YYYY-MM-DD HH:MM:SS...|client connected 'NAME'(id:N)...`, or one of a disconnect. -/
structure ClientLine where
  stamp : Stamp
  filler : List Char
  action : ClientAction
  name : List Char
  id : ℕ
  tail : List Char
  id_ge : 2 ≤ id
  id_lt : id < 2 ^ 31
  no_nul : 0 ∉ utf8 filler ++ utf8 name ++ utf8 tail
  no_newline : 10 ∉ utf8 filler ++ utf8 name ++ utf8 tail

namespace ClientLine

def quoted (l : ClientLine) : Bytes :=
  39 :: (utf8 l.name ++ 39 :: 40 :: (ascii "id:" ++ (decimal l.id ++ 41 :: utf8 l.tail)))

def bytes (l : ClientLine) : Bytes :=
  l.stamp.text (ascii " ") 58 ++ (utf8 l.filler ++ 124 :: (l.action.phrase ++ 32 :: l.quoted))

def cppName (l : ClientLine) : Bytes := (utf8 l.name).takeWhile (· ≠ 39)

def rustName (l : ClientLine) : Bytes :=
  (utf8 l.name).take ((find (ascii "'(") (utf8 l.name ++ ascii "'(")).getD 0)

def NameAlike (l : ClientLine) : Prop :=
  ∀ p q, utf8 l.name = p ++ 39 :: q → 39 ∉ p → q.head? = some 40

/-- The action both programs find: they look for a connect first, and from the left. -/
def found (l : ClientLine) : ClientAction :=
  if ClientAction.connect.phrase <:+: utf8 l.filler then .connect else l.action

/-- Neither program fails on the line, and both find its id and the same action: the name does not
begin with a parenthesis, neither it nor the filler has the text the id is looked for with, the
filler has no quote, and behind a disconnect there is no phrase of a connect. The time is not one
that `ltc.cpp` takes for a failure, and for a connect not the one that stands for none. -/
structure Legible (l : ClientLine) : Prop where
  fillerQuote : 39 ∉ utf8 l.filler
  fillerId : ¬ ascii "id:" <:+: utf8 l.filler
  nameParen : (utf8 l.name).head? ≠ some 40
  nameId : ¬ ascii "id:" <:+: utf8 l.name
  phrase : l.found = .disconnect → ¬ ClientAction.connect.phrase <:+: utf8 l.name ∧
    ¬ ClientAction.connect.phrase <:+: utf8 l.tail
  time : 0 ≤ Cpp.strToTime (some l.stamp.tm)
  timeRust : l.found = .connect → l.stamp.timestamp ≠ 0
  timeCpp : l.found = .connect → Cpp.strToTime (some l.stamp.tm) ≠ 0

def event (name : ClientLine → Bytes) (time : Stamp → ℤ) (l : ClientLine) : Event ℤ :=
  match l.found with
  | .connect => .connect l.id.toUInt32 (name l) (time l.stamp)
  | .disconnect => .disconnect l.id.toUInt32 (time l.stamp)

end ClientLine

section Stamp

variable {gap : Bytes} {colon : UInt8}

lemma length_text (st : Stamp) : (st.text gap colon).length = 17 + gap.length + 1 := by
  simp only [Stamp.text, List.length_append, List.length_cons, length_pad]
  omega

lemma mem_text {st : Stamp} {b : UInt8} (h : b ∈ st.text gap colon) :
    isDigit b = true ∨ b = 45 ∨ b ∈ gap ∨ b = colon := by
  simp only [Stamp.text, List.mem_append, List.mem_cons] at h
  rcases h with (((((h | h | h) | h | h) | h) | h) | h | h) | h | h
  · exact Or.inl (isDigit_pad 4 st.year b h)
  · exact Or.inr (Or.inl h)
  · exact Or.inl (isDigit_pad 2 st.month b h)
  · exact Or.inr (Or.inl h)
  · exact Or.inl (isDigit_pad 2 st.day b h)
  · exact Or.inr (Or.inr (Or.inl h))
  · exact Or.inl (isDigit_pad 2 st.hour b h)
  · exact Or.inr (Or.inr (Or.inr h))
  · exact Or.inl (isDigit_pad 2 st.min b h)
  · exact Or.inr (Or.inr (Or.inr h))
  · exact Or.inl (isDigit_pad 2 st.sec b h)

lemma not_mem_text {st : Stamp} {b : UInt8} (h : isDigit b = false) (h45 : b ≠ 45) (h32 : b ≠ 32)
    (h58 : b ≠ 58) : b ∉ st.text (ascii " ") 58 := by
  intro hm
  rcases mem_text hm with hd | hd | hd | hd
  · rw [h] at hd
    cases hd
  · exact h45 hd
  · exact h32 (List.mem_singleton.mp hd)
  · exact h58 hd

lemma head_text (gap : Bytes) (st : Stamp) (hgap : gap.any isContinuation = false)
    (hcolon : isContinuation colon = false) {rest : Bytes}
    (h : ∀ b ∈ rest.head?, isContinuation b = false) :
    ∀ b ∈ (st.text gap colon ++ rest).head?, isContinuation b = false := by
  intro b hb
  cases ht : st.text gap colon with
  | nil =>
    rw [ht] at hb
    exact h b hb
  | cons c cs =>
    rw [ht] at hb
    obtain rfl := Option.some.inj hb
    have hc : c ∈ st.text gap colon := by
      rw [ht]
      exact List.mem_cons_self
    rcases mem_text hc with hd | rfl | hd | rfl
    · exact isContinuation_of_isDigit hd
    · decide
    · exact Bool.eq_false_iff.mpr (List.any_eq_false.mp hgap c hd)
    · exact hcolon

end Stamp

namespace ClientLine

variable {l : ClientLine}

def rest (l : ClientLine) : Bytes := l.action.phrase ++ 32 :: l.quoted

lemma bytes_eq (l : ClientLine) :
    l.bytes = (l.stamp.text (ascii " ") 58 ++ utf8 l.filler) ++ 124 :: l.rest := by
  rw [bytes, rest, List.append_assoc]

lemma separator_not_mem (a : ClientAction) : 124 ∉ a.phrase ∧ 39 ∉ a.phrase ∧ 41 ∉ a.phrase := by
  cases a <;> decide

lemma phrase_cons (a : ClientAction) : ∃ rest, a.phrase = 99 :: rest := by
  cases a
  · exact ⟨ascii "lient connected", by decide⟩
  · exact ⟨ascii "lient disconnected", by decide⟩

lemma head_phrase (h : ¬ ClientAction.connect.phrase <:+: utf8 l.filler) :
    ¬ ClientAction.connect.phrase <:+: l.stamp.text (ascii " ") 58 ++ utf8 l.filler := by
  obtain ⟨rest, hr⟩ := phrase_cons .connect
  rw [hr] at h ⊢
  rw [infix_skip (not_mem_text (by decide) (by decide) (by decide) (by decide))]
  exact h

lemma found_disconnect (h : l.found = .disconnect) :
    ¬ ClientAction.connect.phrase <:+: utf8 l.filler ∧ l.action = .disconnect := by
  rw [found] at h
  split at h
  case isTrue => cases h
  case isFalse hf => exact ⟨hf, h⟩

def upToQuote (l : ClientLine) : Bytes :=
  (l.stamp.text (ascii " ") 58 ++ utf8 l.filler) ++ 124 :: (l.action.phrase ++ [32])

lemma bytes_eq_quoted (l : ClientLine) : l.bytes = l.upToQuote ++ l.quoted := by
  simp [bytes_eq, rest, upToQuote]

lemma find_phrase (l : ClientLine) : ∃ pos, find l.found.phrase l.bytes = some pos ∧
    pos + l.found.phrase.length ≤ l.upToQuote.length := by
  have hin : l.found.phrase <:+: l.upToQuote := by
    rw [found, upToQuote]
    split
    case isTrue hf => exact infix_append_left (infix_append_right _ hf) _
    case isFalse =>
      apply infix_append_right
      exact ⟨[124], [32], rfl⟩
  obtain ⟨pos, hpos⟩ := Option.isSome_iff_exists.mp (find_isSome.mpr hin)
  refine ⟨pos, ?_, ?_⟩
  · rw [bytes_eq_quoted]
    exact find_append hpos l.quoted
  · obtain ⟨hle, hp⟩ := find_eq_some hpos
    have hlen := hp.length_le
    rw [List.length_drop] at hlen
    omega

def idText (l : ClientLine) : Bytes := 40 :: (ascii "id:" ++ decimal l.id)

lemma rest_eq (l : ClientLine) :
    l.rest = (l.action.phrase ++ [32]) ++ 39 :: (utf8 l.name ++ 39 :: (l.idText ++ 41 :: utf8 l.tail)) := by
  simp [rest, quoted, idText]

lemma not_mem_idText {b : UInt8} (hb : isDigit b = false) (h : b ∉ ascii "(id:") : b ∉ l.idText := by
  intro hm
  have he : l.idText = ascii "(id:" ++ decimal l.id := rfl
  rw [he] at hm
  rcases List.mem_append.mp hm with hi | hd
  · exact h hi
  · rw [isDigit_decimal l.id b hd] at hb
    cases hb

lemma Legible.find_connect (h : l.Legible) (hl : l.found = .disconnect) :
    find ClientAction.connect.phrase l.bytes = none := by
  obtain ⟨h124, h39, h41⟩ := separator_not_mem .connect
  obtain ⟨hf, ha⟩ := found_disconnect hl
  apply find_of_absent
  rw [bytes_eq, infix_separator h124, rest_eq, infix_separator h39, infix_separator h39,
    infix_separator h41, ha]
  rintro (hi | hi | hi | hi | hi)
  · exact head_phrase hf hi
  · exact absurd hi (by decide)
  · exact (h.phrase hl).1 hi
  · exact not_mem_idText (by decide) (by decide) (hi.subset (by decide : 99 ∈ ClientAction.connect.phrase))
  · exact (h.phrase hl).2 hi

/-! What `get_id` and `get_client_name` of `main.rs` find. -/

def upToName (l : ClientLine) : Bytes := l.upToQuote ++ 39 :: (utf8 l.name ++ [39])

def idOn (l : ClientLine) : Bytes := ascii "id:" ++ (decimal l.id ++ 41 :: utf8 l.tail)

lemma bytes_eq_id (l : ClientLine) : l.bytes = l.upToName ++ 40 :: l.idOn := by
  simp [bytes_eq_quoted, quoted, upToName, idOn]

lemma Legible.upToQuote_id (h : l.Legible) : ¬ ascii "id:" <:+: l.upToQuote := by
  have hcons : ascii "id:" = 105 :: ascii "d:" := by decide
  have hphrase (a : ClientAction) : ¬ ascii "id:" <:+: a.phrase ++ [32] := by
    cases a <;> decide
  rw [upToQuote, infix_separator (by decide)]
  rintro (hi | hi)
  · rw [hcons, infix_skip (not_mem_text (by decide) (by decide) (by decide) (by decide)),
      ← hcons] at hi
    exact h.fillerId hi
  · exact hphrase l.action hi

lemma Legible.upToName_id (h : l.Legible) : ¬ ascii "id:" <:+: l.upToName := by
  have hquote : (39 : UInt8) ∉ ascii "id:" := by decide
  rw [upToName, infix_separator hquote, infix_separator hquote]
  rintro (hi | hi | hi)
  · exact h.upToQuote_id hi
  · exact h.nameId hi
  · exact absurd hi (by decide)

lemma parseU32_decimal {n : ℕ} (h : n < 2 ^ 32) : Rust.parseU32 (decimal n) = some n.toUInt32 := by
  have hhead : (decimal n).head? ≠ some 43 := by
    intro hh
    have hd := isDigit_decimal n 43 (List.mem_of_mem_head? hh)
    exact absurd hd (by decide)
  have hall : (decimal n).all isDigit = true := List.all_eq_true.mpr (isDigit_decimal n)
  simp only [Rust.parseU32, if_neg hhead, value_decimal]
  rw [if_pos ⟨decimal_ne_nil n, hall, h⟩]

lemma Legible.rust_getId (h : l.Legible) : Rust.getId l.bytes = some l.id.toUInt32 := by
  have hfind : find (ascii "id:") l.bytes = some (l.upToName.length + 1) := by
    rw [bytes_eq_id, find_separator (by decide) h.upToName_id, idOn, find_prefix, Option.map_some,
      Nat.zero_add]
  have hslice : slice l.bytes (l.upToName.length + 1) l.bytes.length = some l.idOn := by
    have hs := slice_drop (p := l.upToName ++ [40]) (q := l.idOn) (by
      intro b hb
      obtain rfl := Option.some.inj hb
      decide)
    rwa [List.append_assoc, List.singleton_append, ← bytes_eq_id, List.length_append,
      List.length_singleton] at hs
  have hend : find (ascii ")") l.idOn = some (3 + (decimal l.id).length) := by
    have hm : (41 : UInt8) ∉ ascii "id:" ++ decimal l.id := by
      intro hm
      rcases List.mem_append.mp hm with hi | hd
      · exact absurd hi (by decide)
      · exact absurd (isDigit_decimal l.id 41 hd) (by decide)
    rw [idOn, ← List.append_assoc, show ascii ")" = [41] by decide, find_mem hm, List.length_append]
    rfl
  have hid : slice l.idOn 3 (3 + (decimal l.id).length) = some (decimal l.id) := by
    apply slice_append (p := ascii "id:")
    · intro b hb
      have hmem := List.mem_of_mem_head? hb
      obtain ⟨d, ds, hds⟩ := List.exists_cons_of_ne_nil (decimal_ne_nil l.id)
      rw [hds] at hb
      obtain rfl := Option.some.inj hb
      have hdig := isDigit_decimal l.id d (by rw [hds]; exact List.mem_cons_self)
      exact isContinuation_of_isDigit hdig
    · intro b hb
      obtain rfl := Option.some.inj hb
      decide
  rw [Rust.getId, hfind, Option.bind_some, hslice, Option.bind_some, hend, Option.bind_some, hid,
    Option.bind_some]
  exact parseU32_decimal (l.id_lt.trans (by decide))

lemma Legible.upToQuote_quote (h : l.Legible) : 39 ∉ l.upToQuote := by
  intro hm
  rw [upToQuote] at hm
  rcases List.mem_append.mp hm with hm | hm
  · rcases List.mem_append.mp hm with hm | hm
    · exact not_mem_text (by decide) (by decide) (by decide) (by decide) hm
    · exact h.fillerQuote hm
  · rcases List.mem_cons.mp hm with hm | hm
    · exact absurd hm (by decide)
    · rcases List.mem_append.mp hm with hm | hm
      · exact (separator_not_mem l.action).2.1 hm
      · exact absurd hm (by decide)

def afterName (l : ClientLine) : Bytes := 40 :: (ascii "id:" ++ (decimal l.id ++ 41 :: utf8 l.tail))

lemma find_rustName (l : ClientLine) : ∃ k, find (ascii "'(") (utf8 l.name ++ ascii "'(") = some k ∧
    k ≤ (utf8 l.name).length ∧ ascii "'(" <+: (utf8 l.name ++ 39 :: l.afterName).drop k := by
  obtain ⟨k, hk⟩ := Option.isSome_iff_exists.mp
    (find_isSome.mpr (List.suffix_append (utf8 l.name) (ascii "'(")).isInfix)
  have hfull : utf8 l.name ++ 39 :: l.afterName =
      (utf8 l.name ++ ascii "'(") ++ (ascii "id:" ++ (decimal l.id ++ 41 :: utf8 l.tail)) := by
    rw [List.append_assoc]
    rfl
  have hlen := (find_eq_some hk).2.length_le
  rw [List.length_drop, List.length_append, show (ascii "'(").length = 2 by decide] at hlen
  refine ⟨k, hk, by omega, ?_⟩
  rw [hfull]
  exact (find_eq_some (find_append hk _)).2

lemma Legible.rust_getClientName (h : l.Legible) :
    Rust.getClientName l.bytes = some l.rustName := by
  obtain ⟨k, hk, hle, hpre⟩ := find_rustName l
  have h39 := h.upToQuote_quote
  have hquoted : l.quoted = 39 :: (utf8 l.name ++ 39 :: l.afterName) := rfl
  have hstart : find (ascii "'") l.bytes = some l.upToQuote.length := by
    rw [bytes_eq_quoted, show ascii "'" = [39] by decide, quoted, find_mem h39]
  have hend : find (ascii "'(") l.bytes = some (l.upToQuote.length + 1 + k) := by
    have hfull : utf8 l.name ++ 39 :: l.afterName =
        (utf8 l.name ++ ascii "'(") ++ (ascii "id:" ++ (decimal l.id ++ 41 :: utf8 l.tail)) := by
      rw [List.append_assoc]
      rfl
    have hfound := find_append hk (ascii "id:" ++ (decimal l.id ++ 41 :: utf8 l.tail))
    rw [← hfull] at hfound
    rw [show ascii "'(" = 39 :: [40] by decide] at hfound ⊢
    rw [bytes_eq_quoted, hquoted, find_skip h39, find_cons, hfound, Option.map_some, Option.map_some]
    · have hsum : k + 1 + l.upToQuote.length = l.upToQuote.length + 1 + k := by omega
      rw [hsum]
    · intro hp
      obtain ⟨t, ht⟩ := (List.cons_prefix_cons.mp hp).2
      apply h.nameParen
      cases hn : utf8 l.name with
      | nil =>
        rw [hn] at ht
        exact absurd (List.cons.inj ht).1 (by decide)
      | cons c cs =>
        rw [hn] at ht
        rw [(List.cons.inj ht).1]
        rfl
  have hquote (rest : Bytes) : ∀ b ∈ (39 :: rest : Bytes).head?, isContinuation b = false := by
    intro b hb
    obtain rfl := Option.some.inj hb
    decide
  have hslice := slice_append (p := l.upToQuote ++ [39])
    (q := (utf8 l.name ++ 39 :: l.afterName).take k) (r := (utf8 l.name ++ 39 :: l.afterName).drop k)
    (by
      rw [List.take_append_drop]
      exact head_utf8 l.name (hquote _))
    (by
      obtain ⟨t, ht⟩ := hpre
      rw [← ht]
      exact hquote _)
  have htake : (utf8 l.name ++ 39 :: l.afterName).take k = (utf8 l.name).take k :=
    List.take_append_of_le_length hle
  rw [List.take_append_drop, List.append_assoc, List.singleton_append, ← hquoted, ← bytes_eq_quoted,
    List.length_append, List.length_singleton, htake, List.length_take, Nat.min_eq_left hle] at hslice
  rw [Rust.getClientName, hstart, Option.bind_some, hend, Option.bind_some, hslice, rustName, hk]
  rfl

lemma quote_not_mem_cppName (l : ClientLine) : 39 ∉ l.cppName := by
  intro hm
  have hp := List.mem_takeWhile_imp hm
  simp at hp

lemma cppName_quote (l : ClientLine) : ∃ rest, utf8 l.name ++ [39] = l.cppName ++ 39 :: rest := by
  have hsplit := List.takeWhile_append_dropWhile (p := (· ≠ 39)) (l := utf8 l.name)
  cases hd : (utf8 l.name).dropWhile (· ≠ 39) with
  | nil =>
    rw [hd, List.append_nil] at hsplit
    exact ⟨[], by rw [cppName, hsplit]⟩
  | cons c q =>
    have hc : c = 39 := by
      have hh := List.head?_dropWhile_not (· ≠ (39 : UInt8)) (utf8 l.name)
      rw [hd] at hh
      simpa using hh
    rw [hd, hc] at hsplit
    refine ⟨q ++ [39], ?_⟩
    rw [← List.cons_append, ← List.append_assoc, cppName, hsplit]

lemma cppName_eq {p q : Bytes} (hn : utf8 l.name = p ++ 39 :: q) (hp : 39 ∉ p) : l.cppName = p := by
  rw [cppName, hn, List.takeWhile_append_of_pos]
  · simp
  · intro b hb
    have hne : b ≠ 39 := fun h => hp (h ▸ hb)
    simpa using hne

lemma rustName_eq {p rest : Bytes} (hn : utf8 l.name ++ ascii "'(" = p ++ 39 :: 40 :: rest)
    (hp : 39 ∉ p) : l.rustName = (utf8 l.name).take p.length := by
  have hfind := find_prefix [(39 : UInt8), 40] rest
  rw [List.cons_append, List.singleton_append] at hfind
  rw [rustName, hn, show ascii "'(" = 39 :: [40] by decide, find_skip hp, hfind, Option.map_some,
    Nat.zero_add]
  rfl

lemma nameAlike_iff (l : ClientLine) : l.NameAlike ↔ l.rustName = l.cppName := by
  constructor
  · intro h
    by_cases hm : 39 ∈ utf8 l.name
    · obtain ⟨p, q, hn, hp⟩ := List.eq_append_cons_of_mem hm
      obtain ⟨q', rfl⟩ := List.head?_eq_some_iff.mp (h p q hn hp)
      rw [cppName_eq hn hp, rustName_eq (p := p) (by rw [hn, List.append_assoc]; rfl) hp, hn,
        List.take_left]
    · have hcpp : l.cppName = utf8 l.name := by
        rw [cppName, List.takeWhile_eq_self_iff]
        intro b hb
        have hne : b ≠ 39 := fun h => hm (h ▸ hb)
        simpa using hne
      rw [hcpp, rustName_eq (p := utf8 l.name) rfl hm, List.take_length]
  · intro h p q hn hp
    obtain ⟨k, hk, hle, hpre⟩ := find_rustName l
    rw [cppName_eq hn hp, rustName, hk, Option.getD_some] at h
    have hkp : k = p.length := by
      rw [← h, List.length_take, Nat.min_eq_left hle]
    rw [hkp, hn, List.append_assoc, List.drop_left] at hpre
    obtain ⟨t, ht⟩ := hpre
    have hcons := (List.cons.inj ht).2
    cases q with
    | nil => exact absurd (List.cons.inj hcons).1 (by decide)
    | cons c q => exact congrArg some (List.cons.inj hcons).1.symm

/-! What `get_name` and `get_id` of `ltc.cpp` find behind the phrase. -/

lemma findFrom_append {pat p q : Bytes} {i : ℕ} (h : find pat q = some i) :
    findFrom pat (p ++ q) p.length = some (i + p.length) := by
  rw [findFrom, if_pos (by rw [List.length_append]; omega), List.drop_left, h, Option.map_some]

lemma cpp_getName {pre : Bytes} (hpre : 39 ∉ pre) :
    Cpp.getName (pre ++ l.quoted) = some l.cppName := by
  obtain ⟨rest, hn⟩ := cppName_quote l
  have hq : l.quoted = 39 :: (l.cppName ++ 39 :: (rest ++ l.afterName)) := by
    have hquoted : l.quoted = 39 :: (utf8 l.name ++ [39] ++ l.afterName) := by
      rw [List.append_assoc]
      rfl
    rw [hquoted, hn, List.append_assoc]
    rfl
  have hstart : find (ascii "'") (pre ++ l.quoted) = some pre.length := by
    rw [hq]
    exact find_mem hpre _
  have hview : pre ++ l.quoted = (pre ++ [39]) ++ (l.cppName ++ 39 :: (rest ++ l.afterName)) := by
    rw [hq, List.append_assoc, List.singleton_append]
  have hlen : (pre ++ [(39 : UInt8)]).length = pre.length + 1 := List.length_append
  have hend : findFrom (ascii "'") (pre ++ l.quoted) (pre.length + 1) =
      some (l.cppName.length + (pre.length + 1)) := by
    rw [hview, ← hlen]
    exact findFrom_append (find_mem (quote_not_mem_cppName l) _)
  have hdrop : (pre ++ l.quoted).drop (pre.length + 1) = l.cppName ++ 39 :: (rest ++ l.afterName) := by
    rw [hview, ← hlen, List.drop_left]
  simp only [Cpp.getName, hstart, Option.elim_some, hend, Option.map_some, hdrop,
    Nat.add_sub_cancel, List.take_left]

lemma takeWhile_decimal (n : ℕ) : (decimal n).takeWhile isDigit = decimal n := by
  rw [List.takeWhile_eq_self_iff]
  exact isDigit_decimal n

lemma fromChars_decimal {n : ℕ} (h : n < 2 ^ 31) : Cpp.fromChars (decimal n) = .parsed n := by
  have hhead : (decimal n).head? ≠ some 45 := by
    intro hh
    exact absurd (isDigit_decimal n 45 (List.mem_of_mem_head? hh)) (by decide)
  simp only [Cpp.fromChars, hhead, if_false, takeWhile_decimal, value_decimal,
    if_neg (decimal_ne_nil n)]
  rw [if_pos (by omega)]

lemma Legible.cpp_getId (h : l.Legible) {pre : Bytes} (hpre : ¬ ascii "(id:" <:+: pre) (id : ℤ) :
    Cpp.getId (pre ++ l.quoted) id = some (l.id : ℤ) := by
  obtain ⟨before, hb⟩ : ∃ before : Bytes, before = pre ++ 39 :: utf8 l.name := ⟨_, rfl⟩
  have hview : pre ++ l.quoted = before ++ 39 :: (ascii "(id:" ++ (decimal l.id ++ 41 :: utf8 l.tail)) := by
    rw [hb, quoted]
    simp [ascii]
  have hbefore : ¬ ascii "(id:" <:+: before := by
    rw [hb, infix_separator (by decide)]
    rintro (hi | hi)
    · exact hpre hi
    · apply h.nameId
      exact List.IsInfix.trans (List.suffix_cons 40 (ascii "id:")).isInfix hi
  have hstart : find (ascii "(id:") (pre ++ l.quoted) = some (before.length + 1) := by
    rw [hview, find_separator (by decide) hbefore, find_prefix, Option.map_some, Nat.zero_add]
  have hview' : pre ++ l.quoted = (before ++ 39 :: ascii "(id:") ++ (decimal l.id ++ 41 :: utf8 l.tail) := by
    rw [hview, List.append_assoc]
    rfl
  have hlen : (before ++ 39 :: ascii "(id:").length = before.length + 1 + 4 := by
    rw [List.length_append]
    rfl
  have h41 : (41 : UInt8) ∉ decimal l.id := by
    intro hm
    exact absurd (isDigit_decimal l.id 41 hm) (by decide)
  have hend : findFrom (ascii ")") (pre ++ l.quoted) (before.length + 1 + 4) =
      some ((decimal l.id).length + (before.length + 1 + 4)) := by
    rw [hview', ← hlen]
    exact findFrom_append (find_mem h41 _)
  have hdrop : (pre ++ l.quoted).drop (before.length + 1 + 4) = decimal l.id ++ 41 :: utf8 l.tail := by
    rw [hview', ← hlen, List.drop_left]
  simp only [Cpp.getId, hstart, Option.elim_some, hend, Option.bind_some, hdrop,
    Nat.add_sub_cancel, List.take_left, fromChars_decimal l.id_lt]

lemma nul_not_mem (l : ClientLine) : 0 ∉ l.bytes := by
  have hdec (n : ℕ) : (0 : UInt8) ∉ decimal n := by
    intro hm
    exact absurd (isDigit_decimal n 0 hm) (by decide)
  have hphrase : (0 : UInt8) ∉ l.action.phrase := by
    cases l.action <;> decide
  have htext {b : Bytes} (hb : b ⊆ utf8 l.filler ++ utf8 l.name ++ utf8 l.tail) : 0 ∉ b := by
    intro hm
    exact l.no_nul (hb hm)
  have hfiller : 0 ∉ utf8 l.filler := htext (by simp [List.append_assoc])
  have hname : 0 ∉ utf8 l.name := htext (by simp [List.append_assoc])
  have htail : 0 ∉ utf8 l.tail := htext (by simp [List.append_assoc])
  have hstamp : 0 ∉ l.stamp.text (ascii " ") 58 :=
    not_mem_text (by decide) (by decide) (by decide) (by decide)
  have hid : (0 : UInt8) ∉ ascii "id:" := by decide
  simp [bytes, quoted, hdec, hphrase, hfiller, hname, htail, hstamp, hid]

lemma Legible.rust_parseLine (h : l.Legible) :
    Rust.parseLine l.bytes = some (some (l.found, l.rustName, l.id.toUInt32)) := by
  have hread (a : ClientAction) :
      Rust.readClient l.bytes a = some (some (a, l.rustName, l.id.toUInt32)) := by
    rw [Rust.readClient, h.rust_getClientName, Option.bind_some, h.rust_getId, Option.map_some]
  obtain ⟨pos, hpos, -⟩ := find_phrase l
  cases hl : l.found with
  | connect =>
    rw [hl] at hpos
    rw [Rust.parseLine, hpos, if_pos Option.isSome_some, hread]
  | disconnect =>
    rw [hl] at hpos
    rw [Rust.parseLine, h.find_connect hl, if_neg (by decide), hpos, if_pos Option.isSome_some, hread]

lemma Legible.rust_processLine {parseFromStr : Bytes → Bytes → Option ℤ} {fileFormat : Bytes}
    (hp : ReadsStamps parseFromStr fileFormat) (h : l.Legible) (db : ClientMap ℤ) :
    Rust.processLine parseFromStr db l.bytes =
      some (Rust.apply db (l.event rustName Stamp.timestamp)) := by
  have hslice : slice l.bytes 0 19 = some (l.stamp.text (ascii " ") 58) := by
    have hhead : ∀ b ∈ (utf8 l.filler ++ 124 :: l.rest).head?, isContinuation b = false := by
      apply head_utf8
      intro b hb
      obtain rfl := Option.some.inj hb
      decide
    have hs := slice_append (p := []) (q := l.stamp.text (ascii " ") 58)
      (head_text (ascii " ") l.stamp (by decide) (by decide) hhead) hhead
    rw [length_text] at hs
    rw [bytes_eq, List.append_assoc]
    exact hs
  rw [Rust.processLine, hslice, Option.bind_some, hp.line]
  simp only [h.rust_parseLine, Option.map_some]
  cases hl : l.found <;> simp only [event, hl, Rust.apply, Rust.logAction]

lemma Legible.cpp_readClient (h : l.Legible) {action : ClientAction} {pos : ℕ}
    (hpos : pos + action.phrase.length ≤ l.upToQuote.length) :
    Cpp.readClient l.bytes action pos = some (action, l.cppName, (l.id : ℤ)) := by
  have hdrop : l.bytes.drop (pos + action.phrase.length) =
      l.upToQuote.drop (pos + action.phrase.length) ++ l.quoted := by
    rw [bytes_eq_quoted, List.drop_append_of_le_length hpos]
  have hview : cstring (l.bytes.drop (pos + action.phrase.length)) =
      l.upToQuote.drop (pos + action.phrase.length) ++ l.quoted := by
    rw [← hdrop]
    exact cstring_eq fun hm => l.nul_not_mem (List.mem_of_mem_drop hm)
  have hquote : 39 ∉ l.upToQuote.drop (pos + action.phrase.length) :=
    fun hm => h.upToQuote_quote (List.mem_of_mem_drop hm)
  have hid : ¬ ascii "(id:" <:+: l.upToQuote.drop (pos + action.phrase.length) := by
    intro hi
    apply h.upToQuote_id
    have hcons : ascii "id:" <:+: ascii "(id:" := (List.suffix_cons 40 (ascii "id:")).isInfix
    exact (hcons.trans hi).trans (List.drop_suffix _ _).isInfix
  simp only [Cpp.readClient, hview, cpp_getName hquote, Option.bind_some, h.cpp_getId hid,
    Option.map_some]

lemma Legible.cpp_parseLine (h : l.Legible) :
    Cpp.parseLine l.bytes = some (l.found, l.cppName, (l.id : ℤ)) := by
  obtain ⟨pos, hpos, hle⟩ := find_phrase l
  have hread := h.cpp_readClient hle
  cases hl : l.found with
  | connect =>
    rw [hl] at hpos hread
    rw [Cpp.parseLine, hpos]
    exact hread
  | disconnect =>
    rw [hl] at hpos hread
    rw [Cpp.parseLine, h.find_connect hl]
    simp only [hpos, Option.bind_some]
    exact hread

lemma Legible.cpp_processLine {strptime : Bytes → Bytes → Option Tm} {fileFormat : Bytes}
    (hs : FillsTm strptime fileFormat) (h : l.Legible) (db : ClientMap ℤ) :
    Cpp.processActionOnLine strptime 0 db l.bytes =
      Cpp.apply db (l.event cppName fun st => Cpp.strToTime (some st.tm)) := by
  have h2 := l.id_ge
  have hpos := h.time
  have htime : strptime (cstring l.bytes) lineFormat = some l.stamp.tm := by
    rw [cstring_eq l.nul_not_mem, bytes_eq, List.append_assoc]
    exact hs.line l.stamp _
  simp only [Cpp.processActionOnLine, h.cpp_parseLine, htime]
  rw [if_neg (by omega), if_neg (by omega), if_neg (by omega), Int.toNat_natCast]
  cases hl : l.found <;> simp only [event, hl, Cpp.apply, Cpp.logAction]

end ClientLine

end TeamspeakWebserver.Ltc
