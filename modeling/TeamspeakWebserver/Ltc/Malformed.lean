import TeamspeakWebserver.Ltc.Nicknames

/-! Any line of text, and what `process_line` of `main.rs` does with it. -/

namespace TeamspeakWebserver.Ltc

open Text

def WellFormed (parseFromStr : Bytes → Bytes → Option ℤ) (line : List Char) : Prop :=
  ∃ (e : Entry) (n : UInt32), utf8 line = e.bytes (decimal n.toNat) ∧
    (parseFromStr (utf8 e.time) lineFormat).isSome

def Tolerated (parseFromStr : Bytes → Bytes → Option ℤ) (line : List Char) : Prop :=
  (∀ db, (Rust.processLine parseFromStr db (utf8 line)).isSome) ∧
    (¬ WellFormed parseFromStr line → ∀ db, Rust.processLine parseFromStr db (utf8 line) = some db)

/-- The first 19 bytes are whole characters, and then the line is skipped, or a name and a number can
be read on it and belong to a client line or to no client. -/
def Harmless (parseFromStr : Bytes → Bytes → Option ℤ) (line : List Char) : Prop :=
  ∃ time rest, line = time ++ rest ∧ (utf8 time).length = 19 ∧
    (parseFromStr (utf8 time) lineFormat = none ∨
      (∀ action : ClientAction, ¬ action.phrase <:+: utf8 line) ∨
      ∃ name n, Quoted (utf8 line) name ∧ Numbered (utf8 line) n ∧
        (WellFormed parseFromStr line ∨ n ≤ 1))

variable {parseFromStr : Bytes → Bytes → Option ℤ} {line : List Char}

lemma slice_utf8 {t : Bytes} {i : ℕ} :
    slice (utf8 line) 0 i = some t ↔ ∃ p q, line = p ++ q ∧ (utf8 p).length = i ∧ utf8 p = t := by
  constructor
  · intro h
    rw [slice] at h
    split at h
    case isFalse => cases h
    case isTrue hb =>
      obtain ⟨p, q, rfl, hp⟩ := utf8_split hb.2.2
      rw [utf8_append, ← hp, List.take_left] at h
      exact ⟨p, q, rfl, hp, Option.some.inj h⟩
  · rintro ⟨p, q, rfl, rfl, rfl⟩
    have hs := slice_append (p := []) (q := utf8 p) (r := utf8 q)
      (by
        rw [← utf8_append]
        exact utf8_head (p ++ q))
      (utf8_head q)
    rwa [List.nil_append, List.length_nil, Nat.zero_add, ← utf8_append] at hs

lemma logAction_eq (time : ℤ) (action : ClientAction) (name : Bytes) (n : UInt32) :
    (∀ db, Rust.logAction db time (some (action, name, n)) = db) ↔ n ≤ 1 := by
  constructor
  · intro h
    by_contra hn
    cases action with
    | connect =>
      have hdb := congrFun (h fun _ => none) n
      simp only [Rust.logAction, Rust.logConnect, if_neg hn, Option.getD_none] at hdb
      split at hdb
      · simp [ClientMap.insert] at hdb
      · simp [ClientMap.insert] at hdb
    | disconnect =>
      have hdb := congrFun (h fun _ => some ⟨[], 0, 0, 1⟩) n
      simp [Rust.logAction, Rust.logDisconnect, if_neg hn, ClientMap.insert] at hdb
  · intro hn db
    cases action with
    | connect => rw [Rust.logAction, Rust.logConnect, if_pos hn]
    | disconnect => rw [Rust.logAction, Rust.logDisconnect, if_pos hn]

lemma parseLine_skip : Rust.parseLine (utf8 line) = some none ↔
    ∀ action : ClientAction, ¬ action.phrase <:+: utf8 line := by
  have hread (action : ClientAction) : Rust.readClient (utf8 line) action ≠ some none := by
    rw [Rust.readClient]
    intro h
    obtain ⟨name, -, h⟩ := Option.bind_eq_some_iff.mp h
    obtain ⟨n, -, h⟩ := Option.map_eq_some_iff.mp h
    cases h
  rw [Rust.parseLine]
  constructor
  · intro h
    split at h
    case isTrue => exact absurd h (hread .connect)
    case isFalse hc =>
      split at h
      case isTrue => exact absurd h (hread .disconnect)
      case isFalse hd =>
        intro action
        cases action with
        | connect => exact mt find_isSome.mpr hc
        | disconnect => exact mt find_isSome.mpr hd
  · intro h
    rw [if_neg (mt find_isSome.mp (h .connect)), if_neg (mt find_isSome.mp (h .disconnect))]

lemma parseLine_read (h : ∃ action : ClientAction, action.phrase <:+: utf8 line) {name : Bytes}
    {n : UInt32} (hname : Quoted (utf8 line) name) (hid : Numbered (utf8 line) n) :
    ∃ action, Rust.parseLine (utf8 line) = some (some (action, name, n)) := by
  by_cases hc : ClientAction.connect.phrase <:+: utf8 line
  · exact ⟨.connect, (parseLine_iff ⟨line, rfl⟩).mpr ⟨hc, hname, hid⟩⟩
  · obtain ⟨action, ha⟩ := h
    cases action with
    | connect => exact absurd ha hc
    | disconnect => exact ⟨.disconnect, (parseLine_iff ⟨line, rfl⟩).mpr ⟨⟨hc, ha⟩, hname, hid⟩⟩

section Split

variable {time rest : List Char} (h : line = time ++ rest) (hlen : (utf8 time).length = 19)
include h hlen

lemma processLine_untimed (ht : parseFromStr (utf8 time) lineFormat = none) (db : ClientMap ℤ) :
    Rust.processLine parseFromStr db (utf8 line) = some db := by
  simp only [Rust.processLine, slice_utf8.mpr ⟨time, rest, h, hlen, rfl⟩, Option.bind_some, ht]

lemma processLine_timed {t : ℤ} (ht : parseFromStr (utf8 time) lineFormat = some t)
    (db : ClientMap ℤ) : Rust.processLine parseFromStr db (utf8 line) =
      (Rust.parseLine (utf8 line)).map (Rust.logAction db t) := by
  simp only [Rust.processLine, slice_utf8.mpr ⟨time, rest, h, hlen, rfl⟩, Option.bind_some, ht]

end Split

lemma Tolerated.split (h : Tolerated parseFromStr line) :
    ∃ time rest, line = time ++ rest ∧ (utf8 time).length = 19 := by
  have hdb := h.1 fun _ => none
  cases hs : slice (utf8 line) 0 19 with
  | none =>
    rw [Rust.processLine, hs] at hdb
    cases hdb
  | some t =>
    obtain ⟨p, q, hp, hlen, -⟩ := slice_utf8.mp hs
    exact ⟨p, q, hp, hlen⟩

lemma tolerated_of_unchanged (h : ∀ db, Rust.processLine parseFromStr db (utf8 line) = some db) :
    Tolerated parseFromStr line :=
  ⟨fun db => by rw [h]; rfl, fun _ => h⟩

theorem tolerated_iff (parseFromStr : Bytes → Bytes → Option ℤ) (line : List Char) :
    Tolerated parseFromStr line ↔ Harmless parseFromStr line := by
  constructor
  · intro h
    obtain ⟨time, rest, hline, hlen⟩ := h.split
    refine ⟨time, rest, hline, hlen, ?_⟩
    cases ht : parseFromStr (utf8 time) lineFormat with
    | none => exact Or.inl rfl
    | some t =>
      right
      have hprocess := processLine_timed hline hlen ht
      cases hp : Rust.parseLine (utf8 line) with
      | none =>
        have hdb := h.1 fun _ => none
        rw [hprocess, hp] at hdb
        cases hdb
      | some found =>
        cases found with
        | none => exact Or.inl (parseLine_skip.mp hp)
        | some client =>
          obtain ⟨action, name, n⟩ := client
          obtain ⟨-, hname, hid⟩ := (parseLine_iff ⟨line, rfl⟩).mp hp
          refine Or.inr ⟨name, n, hname, hid, ?_⟩
          by_cases hw : WellFormed parseFromStr line
          · exact Or.inl hw
          · right
            refine (logAction_eq t action name n).mp fun db => ?_
            have hdb := h.2 hw db
            rw [hprocess, hp] at hdb
            exact Option.some.inj hdb
  · rintro ⟨time, rest, hline, hlen, h⟩
    cases ht : parseFromStr (utf8 time) lineFormat with
    | none => exact tolerated_of_unchanged (processLine_untimed hline hlen ht)
    | some t =>
      have hprocess := processLine_timed hline hlen ht
      have hskipped (h : ∀ action : ClientAction, ¬ action.phrase <:+: utf8 line) :
          Tolerated parseFromStr line := by
        apply tolerated_of_unchanged
        intro db
        rw [hprocess, parseLine_skip.mpr h]
        rfl
      rcases h with h | h | ⟨name, n, hname, hid, h⟩
      · rw [ht] at h
        cases h
      · exact hskipped h
      · by_cases hphrase : ∃ action : ClientAction, action.phrase <:+: utf8 line
        · obtain ⟨action, hp⟩ := parseLine_read hphrase hname hid
          simp only [hp] at hprocess
          refine ⟨fun db => by rw [hprocess]; rfl, fun hw db => ?_⟩
          rw [hprocess, Option.map_some,
            (logAction_eq t action name n).mpr (h.resolve_left hw)]
        · exact hskipped (not_exists.mp hphrase)

theorem empty_line_panics : ¬ ∃ parseFromStr, ∀ line, Tolerated parseFromStr line := by
  rintro ⟨parseFromStr, h⟩
  obtain ⟨time, rest, hline, hlen⟩ := (h []).split
  obtain ⟨rfl, -⟩ := List.append_eq_nil_iff.mp hline.symm
  cases hlen

end TeamspeakWebserver.Ltc
