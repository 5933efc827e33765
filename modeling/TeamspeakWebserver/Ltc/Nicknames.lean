import TeamspeakWebserver.Ltc.ClientLine

/-! Lines of clients with any nickname, and what `parse_line` of `main.rs` reads from them. -/

namespace TeamspeakWebserver.Ltc

open Text

/-- A line `<19 bytes>...|client connected 'NAME'(id:N)...`, or one of a disconnect, but for the text
of the number. -/
structure Entry where
  time : List Char
  filler : List Char
  action : ClientAction
  name : List Char
  tail : List Char
  length_time : (utf8 time).length = 19

namespace Entry

def head (e : Entry) : Bytes := utf8 e.time ++ utf8 e.filler

def quoted (e : Entry) (number : Bytes) : Bytes :=
  39 :: (utf8 e.name ++ 39 :: 40 :: (ascii "id:" ++ (number ++ 41 :: utf8 e.tail)))

def bytes (e : Entry) (number : Bytes) : Bytes :=
  e.head ++ 124 :: (e.action.phrase ++ 32 :: e.quoted number)

end Entry

def Quoted (line name : Bytes) : Prop := ∃ p q, line = p ++ 39 :: (name ++ 39 :: 40 :: q) ∧ 39 ∉ p ∧
  name.head? ≠ some 40 ∧ ¬ ascii "'(" <:+: name

def Numbered (line : Bytes) (n : UInt32) : Prop :=
  ∃ p number q, line = p ++ (ascii "id:" ++ (number ++ 41 :: q)) ∧ ¬ ascii "id:" <:+: p ∧
    41 ∉ number ∧ Rust.parseU32 number = some n

section Reading

variable {line name : Bytes} {n : UInt32}

lemma quote_ascii : ascii "'" = [39] := by decide

lemma quoteParen_ascii : ascii "'(" = [39, 40] := by decide

lemma paren_ascii : ascii ")" = [41] := by decide

lemma idColon_ascii : ascii "id:" = 105 :: ascii "d:" := by decide

lemma quoteParen_infix_cons : [39, 40] <:+: 39 :: name ↔ name.head? = some 40 ∨ [39, 40] <:+: name := by
  rw [List.infix_cons_iff, List.cons_prefix_cons, List.cons_prefix_iff, List.head?_eq_some_iff]
  simp

lemma quoted_of_getClientName (h : Rust.getClientName line = some name) : Quoted line name := by
  rw [Rust.getClientName, quote_ascii, quoteParen_ascii] at h
  obtain ⟨i, hi, h⟩ := Option.bind_eq_some_iff.mp h
  obtain ⟨j, hj, h⟩ := Option.bind_eq_some_iff.mp h
  obtain ⟨p, q, hp, hinfix, rfl⟩ := (find_first (by decide)).mp hi
  obtain ⟨p', q', hp', hinfix', rfl⟩ := (find_first (by decide)).mp hj
  rw [slice] at h
  split at h
  case isFalse => cases h
  case isTrue hle =>
    have hname : p'.drop (p.length + 1) = name := by
      rw [hp', List.take_left] at h
      exact Option.some.inj h
    have hquote : 39 ∉ p := fun hm => hinfix ((List.singleton_infix_iff _ _).mpr hm)
    have hsplit : p' = p ++ 39 :: name := by
      have hpre : p ++ [39] <+: p' := by
        apply prefix_of_append (q := q) (s := 39 :: 40 :: q')
        · rw [List.append_assoc, ← hp]
          exact hp'
        · rw [List.length_append]
          exact hle.1
      obtain ⟨t, ht⟩ := hpre
      rw [← ht, show p.length + 1 = (p ++ [(39 : UInt8)]).length by simp, List.drop_left] at hname
      rw [← ht, hname, List.append_assoc, List.singleton_append]
    rw [hsplit, infix_skip hquote, quoteParen_infix_cons, not_or] at hinfix'
    refine ⟨p, q', ?_, hquote, hinfix'⟩
    rw [hp', hsplit]
    simp

lemma getClientName_of_quoted (hline : ∃ s, line = utf8 s) (h : Quoted line name) :
    Rust.getClientName line = some name := by
  obtain ⟨s, rfl⟩ := hline
  obtain ⟨p, q, he, hp, hparen, hinfix⟩ := h
  have hstart : find [39] (utf8 s) = some p.length := by
    rw [he]
    exact find_mem hp _
  have hend : find [39, 40] (utf8 s) = some (p ++ 39 :: name).length := by
    have hsplit : utf8 s = (p ++ 39 :: name) ++ ([39, 40] ++ q) := by
      rw [he]
      simp
    rw [hsplit]
    apply find_unbordered (by decide)
    rw [infix_skip hp, quoteParen_infix_cons, not_or]
    exact ⟨hparen, hinfix⟩
  have hslice := slice_append (p := p ++ [39]) (q := name) (r := 39 :: 40 :: q)
    (by
      obtain ⟨t, u, -, hu⟩ := utf8_around he (by decide)
      rw [hu]
      exact utf8_head u)
    (by simp [isContinuation])
  have hlen : (p ++ [(39 : UInt8)]).length = p.length + 1 := List.length_append
  have hsum : p.length + 1 + name.length = (p ++ 39 :: name).length := by
    rw [List.length_append, List.length_cons]
    omega
  rw [List.append_assoc, List.singleton_append, ← he, hlen, hsum] at hslice
  rw [Rust.getClientName, quote_ascii, quoteParen_ascii, hstart, Option.bind_some, hend,
    Option.bind_some, hslice]

lemma getClientName_iff (hline : ∃ s, line = utf8 s) :
    Rust.getClientName line = some name ↔ Quoted line name :=
  ⟨quoted_of_getClientName, getClientName_of_quoted hline⟩

lemma parseU32_head {number : Bytes} (h : Rust.parseU32 number = some n) (rest : Bytes) :
    ∀ b ∈ (number ++ rest).head?, isContinuation b = false := by
  intro b hb
  by_cases hplus : number.head? = some 43
  · rw [List.head?_append, hplus, Option.some_or] at hb
    obtain rfl := Option.some.inj hb
    decide
  · simp only [Rust.parseU32, if_neg hplus] at h
    split at h
    case isFalse => cases h
    case isTrue hd =>
      obtain ⟨c, cs, rfl⟩ := List.exists_cons_of_ne_nil hd.1
      obtain rfl := Option.some.inj hb
      exact isContinuation_of_isDigit (List.all_eq_true.mp hd.2.1 c List.mem_cons_self)

lemma numbered_of_getId (h : Rust.getId line = some n) : Numbered line n := by
  rw [Rust.getId, paren_ascii] at h
  obtain ⟨i, hi, h⟩ := Option.bind_eq_some_iff.mp h
  obtain ⟨id, hid, h⟩ := Option.bind_eq_some_iff.mp h
  obtain ⟨j, hj, h⟩ := Option.bind_eq_some_iff.mp h
  obtain ⟨number, hnumber, h⟩ := Option.bind_eq_some_iff.mp h
  rw [idColon_ascii] at hi
  obtain ⟨p, q, hp, hinfix, rfl⟩ := (find_first (by decide)).mp hi
  rw [← idColon_ascii] at hp hinfix
  obtain ⟨r, q', hr, hparen, rfl⟩ := (find_first (by decide)).mp hj
  have htext : ascii "id:" ++ q = id := by
    rw [slice] at hid
    split at hid
    case isTrue =>
      rw [List.take_length] at hid
      rw [← Option.some.inj hid, hp, List.drop_left]
    case isFalse => cases hid
  rw [slice] at hnumber
  split at hnumber
  case isFalse => cases hnumber
  case isTrue hle =>
    have hdrop : r.drop 3 = number := by
      rw [hr, List.take_left] at hnumber
      exact Option.some.inj hnumber
    have hpre : ascii "id:" <+: r := prefix_of_append (htext.trans hr) hle.1
    obtain ⟨t, rfl⟩ := hpre
    obtain rfl : t = number := hdrop
    refine ⟨p, t, q', ?_, hinfix, ?_, h⟩
    · rw [hp, htext, hr]
      simp
    · intro hm
      exact hparen ((List.singleton_infix_iff _ _).mpr (List.mem_append_right _ hm))

lemma getId_of_numbered (h : Numbered line n) : Rust.getId line = some n := by
  obtain ⟨p, number, q, he, hp, hparen, hn⟩ := h
  have hstart : find (ascii "id:") line = some p.length := by
    rw [he, idColon_ascii]
    exact find_unbordered (by decide) (by rwa [← idColon_ascii])
  have hid : slice line p.length line.length = some (ascii "id:" ++ (number ++ 41 :: q)) := by
    rw [he]
    apply slice_drop
    intro b hb
    obtain rfl := Option.some.inj hb
    decide
  have hend : find [41] (ascii "id:" ++ (number ++ 41 :: q)) = some (3 + number.length) := by
    have hm : (41 : UInt8) ∉ ascii "id:" ++ number := by
      intro hm
      rcases List.mem_append.mp hm with hi | hd
      · exact absurd hi (by decide)
      · exact hparen hd
    rw [← List.append_assoc, find_mem hm, List.length_append]
    rfl
  have hslice : slice (ascii "id:" ++ (number ++ 41 :: q)) 3 (3 + number.length) = some number := by
    apply slice_append (p := ascii "id:")
    · exact parseU32_head hn (41 :: q)
    · simp [isContinuation]
  rw [Rust.getId, hstart, Option.bind_some, hid, Option.bind_some, paren_ascii, hend,
    Option.bind_some, hslice, Option.bind_some, hn]

lemma getId_iff : Rust.getId line = some n ↔ Numbered line n := ⟨numbered_of_getId, getId_of_numbered⟩

lemma readClient_iff (hline : ∃ s, line = utf8 s) {action a : ClientAction} :
    Rust.readClient line action = some (some (a, name, n)) ↔
      action = a ∧ Quoted line name ∧ Numbered line n := by
  rw [Rust.readClient, Option.bind_eq_some_iff]
  simp only [Option.map_eq_some_iff, Option.some.injEq, Prod.mk.injEq, getClientName_iff hline,
    getId_iff]
  constructor
  · rintro ⟨name', hq, n', hn, rfl, rfl, rfl⟩
    exact ⟨rfl, hq, hn⟩
  · rintro ⟨rfl, hq, hn⟩
    exact ⟨name, hq, n, hn, rfl, rfl, rfl⟩

def Acts (line : Bytes) : ClientAction → Prop
  | .connect => ClientAction.connect.phrase <:+: line
  | .disconnect => ¬ ClientAction.connect.phrase <:+: line ∧ ClientAction.disconnect.phrase <:+: line

lemma parseLine_iff (hline : ∃ s, line = utf8 s) {a : ClientAction} :
    Rust.parseLine line = some (some (a, name, n)) ↔
      Acts line a ∧ Quoted line name ∧ Numbered line n := by
  have hconnect : (find ClientAction.connect.phrase line).isSome = true ↔ _ := find_isSome
  have hdisconnect : (find ClientAction.disconnect.phrase line).isSome = true ↔ _ := find_isSome
  rw [Rust.parseLine]
  by_cases hc : ClientAction.connect.phrase <:+: line
  · rw [if_pos (hconnect.mpr hc), readClient_iff hline]
    cases a <;> simp [Acts, hc]
  · rw [if_neg (mt hconnect.mp hc)]
    by_cases hd : ClientAction.disconnect.phrase <:+: line
    · rw [if_pos (hdisconnect.mpr hd), readClient_iff hline]
      cases a <;> simp [Acts, hc, hd]
    · rw [if_neg (mt hdisconnect.mp hd)]
      cases a <;> simp [Acts, hc, hd]

lemma Quoted.append (h : Quoted line name) (rest : Bytes) : Quoted (line ++ rest) name := by
  obtain ⟨p, q, rfl, h⟩ := h
  exact ⟨p, q ++ rest, by simp, h⟩

lemma parseU32_not_mem {number : Bytes} {b : UInt8} (h : Rust.parseU32 number = some n)
    (hb : isDigit b = false) (h43 : b ≠ 43) : b ∉ number := by
  have hdigits {ds : Bytes} (hall : ds.all isDigit = true) : b ∉ ds := by
    intro hm
    rw [List.all_eq_true.mp hall b hm] at hb
    cases hb
  intro hm
  by_cases hplus : number.head? = some 43
  · simp only [Rust.parseU32, if_pos hplus] at h
    split at h
    case isFalse => cases h
    case isTrue hd =>
      obtain ⟨t, rfl⟩ := List.head?_eq_some_iff.mp hplus
      rcases List.mem_cons.mp hm with he | ht
      · exact h43 he
      · exact hdigits hd.2.1 ht
  · simp only [Rust.parseU32, if_neg hplus] at h
    split at h
    case isFalse => cases h
    case isTrue hd => exact hdigits hd.2.1 hm

lemma numbered_separator {p q : Bytes} {b : UInt8} (hb : b ∉ ascii "id:") (h41 : b ≠ 41)
    (h43 : b ≠ 43) (hdigit : isDigit b = false) : Numbered (p ++ b :: q) n ↔
      Numbered p n ∨ ¬ ascii "id:" <:+: p ∧ Numbered q n := by
  constructor
  · rintro ⟨p', number, q', he, hinfix, hparen, hn⟩
    have hfind : find (ascii "id:") (p ++ b :: q) = some p'.length := by
      rw [he, idColon_ascii]
      exact find_unbordered (by decide) (by rwa [← idColon_ascii])
    by_cases hp : ascii "id:" <:+: p
    · left
      obtain ⟨i, hi⟩ := Option.isSome_iff_exists.mp (find_isSome.mpr hp)
      have hlen : i = p'.length := by
        rw [find_append hi] at hfind
        exact Option.some.inj hfind
      rw [idColon_ascii] at hi
      obtain ⟨r, r', hr, -, hrlen⟩ := (find_first (by decide)).mp hi
      rw [← idColon_ascii] at hr
      rw [hr, List.append_assoc, List.append_assoc] at he
      obtain ⟨rfl, ht⟩ := List.append_inj he (hrlen.trans hlen)
      have hrest := List.append_cancel_left ht
      obtain ⟨t, ht⟩ : ∃ t, r' = number ++ 41 :: t := by
        have hmem : b ∉ number ++ [41] := by
          intro hm
          rcases List.mem_append.mp hm with hm | hm
          · exact parseU32_not_mem hn hdigit h43 hm
          · exact h41 (List.mem_singleton.mp hm)
        have hpre : number ++ [41] <+: r' ++ b :: q := by
          rw [hrest]
          exact ⟨q', by simp⟩
        obtain ⟨t, ht⟩ := prefix_separator hmem hpre
        exact ⟨t, by rw [← ht]; simp⟩
      exact ⟨r, number, t, by rw [hr, ht], hinfix, hparen, hn⟩
    · right
      refine ⟨hp, ?_⟩
      rw [find_separator hb hp] at hfind
      obtain ⟨k, hk, hlen⟩ := Option.map_eq_some_iff.mp hfind
      have hpre : p ++ [b] <+: p' := by
        apply prefix_of_append (q := q) (s := ascii "id:" ++ (number ++ 41 :: q'))
        · rw [← he, List.append_assoc, List.singleton_append]
        · rw [List.length_append, List.length_singleton]
          omega
      obtain ⟨t, rfl⟩ := hpre
      rw [List.append_assoc, List.append_assoc, List.singleton_append] at he
      have hq := (List.cons.inj (List.append_cancel_left he)).2
      refine ⟨t, number, q', hq, ?_, hparen, hn⟩
      intro hi
      exact hinfix (infix_append_right (p ++ [b]) hi)
  · rintro (⟨p', number, q', rfl, h⟩ | ⟨hp, p', number, q', rfl, hinfix, h⟩)
    · exact ⟨p', number, q' ++ b :: q, by simp, h⟩
    · refine ⟨p ++ b :: p', number, q', by simp, ?_, h⟩
      rw [infix_separator hb, not_or]
      exact ⟨hp, hinfix⟩

end Reading

namespace Entry

variable {e : Entry} {n : UInt32} {number : Bytes}

lemma quoted_bytes : Quoted (e.bytes number) (utf8 e.name) ↔ Quoted e.head (utf8 e.name) ∨
    39 ∉ e.head ∧ (utf8 e.name).head? ≠ some 40 ∧ ¬ ascii "'(" <:+: utf8 e.name := by
  have h39 : 39 ∉ e.action.phrase := (ClientLine.separator_not_mem e.action).2.1
  constructor
  · rintro ⟨p, q, he, hp, hparen, hinfix⟩
    by_cases hm : 39 ∈ e.head
    · left
      obtain ⟨p', r, hr, hp'⟩ := List.eq_append_cons_of_mem hm
      have hname : r ++ 124 :: (e.action.phrase ++ 32 :: e.quoted number) =
          utf8 e.name ++ 39 :: 40 :: q := by
        have hfirst := find_mem hp (utf8 e.name ++ 39 :: 40 :: q)
        rw [← he, bytes, hr, List.append_assoc, List.cons_append, find_mem hp'] at hfirst
        rw [bytes, hr, List.append_assoc, List.cons_append] at he
        exact (List.cons.inj (List.append_inj he (Option.some.inj hfirst)).2).2
      have hfind : find [39, 40] (utf8 e.name ++ 39 :: 40 :: q) = some (utf8 e.name).length :=
        find_unbordered (q := q) (by decide) hinfix
      have hin : [39, 40] <:+: r := by
        by_contra hn
        have hlater : find [39, 40] (e.action.phrase ++ 32 :: e.quoted number) =
            some (e.action.phrase ++ 32 :: 39 :: utf8 e.name).length := by
          have hsplit : e.action.phrase ++ 32 :: e.quoted number =
              (e.action.phrase ++ 32 :: 39 :: utf8 e.name) ++
                ([39, 40] ++ (ascii "id:" ++ (number ++ 41 :: utf8 e.tail))) := by
            simp [quoted]
          have hbefore : e.action.phrase ++ 32 :: 39 :: utf8 e.name =
              (e.action.phrase ++ [32]) ++ 39 :: utf8 e.name := by
            simp
          rw [hsplit]
          apply find_unbordered (by decide)
          rw [hbefore, infix_skip (by simp [h39]), quoteParen_infix_cons, not_or]
          exact ⟨hparen, hinfix⟩
        rw [← hname, find_separator (by decide) hn, hlater, Option.map_some, List.length_append,
          List.length_cons, List.length_cons] at hfind
        have hlen := Option.some.inj hfind
        omega
      obtain ⟨i, hi⟩ := Option.isSome_iff_exists.mp (find_isSome.mpr hin)
      have hlen : i = (utf8 e.name).length := by
        rw [← hname, find_append hi] at hfind
        exact Option.some.inj hfind
      obtain ⟨r₁, r₂, hsplit, -, hr₁⟩ := (find_first (by decide)).mp hi
      rw [hsplit, List.append_assoc] at hname
      obtain ⟨rfl, -⟩ := List.append_inj hname (hr₁.trans hlen)
      exact ⟨p', r₂, by rw [hr, hsplit]; simp, hp', hparen, hinfix⟩
    · exact Or.inr ⟨hm, hparen, hinfix⟩
  · rintro (h | ⟨hm, hparen, hinfix⟩)
    · exact h.append _
    · refine ⟨e.head ++ 124 :: (e.action.phrase ++ [32]),
        ascii "id:" ++ (number ++ 41 :: utf8 e.tail), ?_, ?_, hparen, hinfix⟩
      · simp [bytes, quoted]
      · simp [hm, h39]

lemma numbered_bytes : Numbered (e.bytes (decimal n.toNat)) n ↔ Numbered e.head n ∨
    ¬ ascii "id:" <:+: e.head ∧ (Numbered (utf8 e.name) n ∨ ¬ ascii "id:" <:+: utf8 e.name) := by
  have hphrase : ¬ ascii "id:" <:+: e.action.phrase ++ [32] := by
    cases e.action <;> decide
  have hnone : ¬ Numbered (e.action.phrase ++ [32]) n := by
    rintro ⟨p, number, q, he, -⟩
    exact hphrase ⟨p, number ++ 41 :: q, by rw [he]; simp⟩
  have hwritten : Numbered (40 :: (ascii "id:" ++ (decimal n.toNat ++ 41 :: utf8 e.tail))) n := by
    refine ⟨[40], decimal n.toNat, utf8 e.tail, rfl, by decide, ?_, ?_⟩
    · intro hm
      exact absurd (isDigit_decimal n.toNat 41 hm) (by decide)
    · rw [ClientLine.parseU32_decimal n.toNat_lt]
      simp
  have hrest : e.action.phrase ++ 32 :: e.quoted (decimal n.toNat) = (e.action.phrase ++ [32]) ++
      39 :: (utf8 e.name ++ 39 :: 40 :: (ascii "id:" ++ (decimal n.toNat ++ 41 :: utf8 e.tail))) := by
    simp [quoted]
  rw [bytes, hrest, numbered_separator (by decide) (by decide) (by decide) (by decide),
    numbered_separator (b := 39) (by decide) (by decide) (by decide) (by decide),
    numbered_separator (b := 39) (by decide) (by decide) (by decide) (by decide)]
  simp only [hnone, hphrase, hwritten, false_or, not_false_eq_true, true_and, and_true]

lemma connect_infix (ha : e.action = .disconnect) (h99 : 99 ∉ number) :
    ClientAction.connect.phrase <:+: e.bytes number ↔
      ClientAction.connect.phrase <:+: e.head ∨ ClientAction.connect.phrase <:+: utf8 e.name ∨
        ClientAction.connect.phrase <:+: utf8 e.tail := by
  obtain ⟨h124, h39, h41⟩ := ClientLine.separator_not_mem .connect
  have hphrase : ¬ ClientAction.connect.phrase <:+: e.action.phrase ++ [32] := by
    rw [ha]
    decide
  have hid : ¬ ClientAction.connect.phrase <:+: 40 :: (ascii "id:" ++ number) := by
    intro hi
    have hm := hi.subset (by decide : 99 ∈ ClientAction.connect.phrase)
    rw [← List.cons_append, List.mem_append] at hm
    rcases hm with hm | hm
    · exact absurd hm (by decide)
    · exact h99 hm
  have hrest : e.bytes number = e.head ++ 124 :: ((e.action.phrase ++ [32]) ++
      39 :: (utf8 e.name ++ 39 :: ((40 :: (ascii "id:" ++ number)) ++ 41 :: utf8 e.tail))) := by
    simp [bytes, quoted]
  rw [hrest, infix_separator h124, infix_separator h39, infix_separator h39, infix_separator h41]
  simp only [hphrase, hid, false_or]

def Unmistaken (e : Entry) : Prop := e.action = .disconnect →
  ∀ part ∈ [e.head, utf8 e.name, utf8 e.tail], ¬ ClientAction.connect.phrase <:+: part

/-- What a line must be like for `main.rs` to read the nickname and the number written on it. -/
structure Readable (e : Entry) (n : UInt32) : Prop where
  action : e.Unmistaken
  name : Quoted e.head (utf8 e.name) ∨
    39 ∉ e.head ∧ (utf8 e.name).head? ≠ some 40 ∧ ¬ ascii "'(" <:+: utf8 e.name
  id : Numbered e.head n ∨
    ¬ ascii "id:" <:+: e.head ∧ (Numbered (utf8 e.name) n ∨ ¬ ascii "id:" <:+: utf8 e.name)

lemma acts_bytes (h99 : 99 ∉ number) : Acts (e.bytes number) e.action ↔ e.Unmistaken := by
  have hin : e.action.phrase <:+: e.bytes number :=
    ⟨e.head ++ [124], 32 :: e.quoted number, by simp [bytes]⟩
  rw [Unmistaken]
  cases ha : e.action with
  | connect =>
    rw [ha] at hin
    simp [Acts, hin]
  | disconnect =>
    rw [ha] at hin
    simp [Acts, hin, connect_infix ha h99]

lemma bytes_utf8 (h : number.all (· < 128) = true) : ∃ s, e.bytes number = utf8 s := by
  have hphrase : (124 :: (e.action.phrase ++ [32, 39])).all (· < 128) = true := by
    cases e.action <;> decide
  have hmark : ([39, 40] ++ ascii "id:").all (· < 128) = true := by decide
  have hid : ([39, 40] ++ ascii "id:" ++ (number ++ [41])).all (· < 128) = true := by
    rw [List.all_append, hmark, List.all_append, h]
    rfl
  obtain ⟨s, hs⟩ := utf8_of_ascii hphrase
  obtain ⟨t, ht⟩ := utf8_of_ascii hid
  refine ⟨e.time ++ e.filler ++ s ++ e.name ++ t ++ e.tail, ?_⟩
  simp only [utf8_append, ← hs, ← ht]
  simp [bytes, quoted, head]

end Entry

theorem entry_read_iff (e : Entry) (n : UInt32) :
    Rust.parseLine (e.bytes (decimal n.toNat)) = some (some (e.action, utf8 e.name, n)) ↔
      e.Readable n := by
  have hline : ∃ s, e.bytes (decimal n.toNat) = utf8 s := by
    apply Entry.bytes_utf8
    refine List.all_eq_true.mpr fun b hb => decide_eq_true ?_
    exact lt_of_isDigit (isDigit_decimal n.toNat b hb)
  have h99 : 99 ∉ decimal n.toNat := by
    intro hm
    exact absurd (isDigit_decimal n.toNat 99 hm) (by decide)
  rw [parseLine_iff hline, Entry.acts_bytes h99, Entry.quoted_bytes, Entry.numbered_bytes]
  constructor
  · rintro ⟨ha, hname, hid⟩
    exact ⟨ha, hname, hid⟩
  · intro h
    exact ⟨h.action, h.name, h.id⟩

def mayMorning : List Char := "2021-05-01 10:00:00".toList

lemma length_mayMorning : (utf8 mayMorning).length = 19 := by decide

def eve : Entry where
  time := mayMorning
  filler := ".000000|INFO    |VirtualServerBase|1  ".toList
  action := .connect
  name := "bob'(id:7)".toList
  tail := " from 10.0.0.1:4000".toList
  length_time := length_mayMorning

set_option maxRecDepth 4000 in
theorem nickname_misread : ¬ ∀ (e : Entry) (n : UInt32),
    Rust.parseLine (e.bytes (decimal n.toNat)) = some (some (e.action, utf8 e.name, n)) := by
  intro h
  have hfive : decimal (5 : UInt32).toNat = ascii "5" := by
    rw [decimal, if_neg (by decide)]
    simp [digit, ascii]
  have hread : Rust.parseLine (eve.bytes (ascii "5")) = some (some (.connect, ascii "bob", 7)) := by
    decide
  have heve := h eve 5
  rw [hfive, hread] at heve
  exact absurd heve (by decide)

end TeamspeakWebserver.Ltc
