import TeamspeakWebserver.Buffers.Strings

/-! `do_log` of `man/manager.c`: a line of the manager's log. -/

namespace TeamspeakWebserver.Manager

open Buffers

def logBufSize : ℕ := 2 ^ 13

/-- The bits of `log_flags`. -/
def logErrno : ℕ := 1

def logFatal : ℕ := 8

def sizeT (n : ℤ) : ℕ := (n % 2 ^ 64).toNat

/-- `sizeof(buffer)` is the size of the pointer. -/
def sizeofPointer : ℕ := 8

abbrev LogBuf := Buffer UInt8 logBufSize

/-- The index of the newline, and the array that has the text up to there. The format and its arguments
expand to `msg`, and `err` is the text of `strerror`. -/
def logText (buffer : LogBuf) (flags : ℕ) (msg err : Bytes) : Option (LogBuf × ℕ) := do
  let (buffer, ret) ← buffer.snprintf 0 logBufSize msg
  let nw := sizeT ret
  -- `nw < 0` is never true of a `size_t`
  if logBufSize ≤ nw then return (buffer, sizeofPointer - 1)
  if flags &&& logErrno ≠ 0 then
    let (buffer, ret) ← buffer.snprintf nw (logBufSize - nw) (ascii " - " ++ err)
    return (buffer, (nw + sizeT ret) % 2 ^ 64)
  return (buffer, nw)

def doLog (buffer : LogBuf) (flags : ℕ) (msg err : Bytes) : Option (LogBuf × Bytes × Bool) := do
  let (buffer, nw) ← logText buffer flags msg err
  let buffer ← buffer.store nw [10]
  return (buffer, ← buffer.load 0 (nw + 1), flags &&& logFatal ≠ 0)

def logged (flags : ℕ) (msg err : Bytes) : Bytes :=
  msg ++ if flags &&& logErrno ≠ 0 then ascii " - " ++ err else []

def WritesLine (buffer : LogBuf) (flags : ℕ) (msg err : Bytes) : Prop :=
  ∃ result ∈ doLog buffer flags msg err,
    result.2.1 = (logged flags msg err).take (logBufSize - 1) ++ [10]

section Lengths

variable {buffer : LogBuf} {flags : ℕ} {msg err text : Bytes}

lemma sizeT_printedLen (text : Bytes) :
    sizeT (printedLen text) = if text.length ≤ intMax then text.length else 2 ^ 64 - 1 := by
  rw [printedLen]
  split
  case isTrue h =>
    rw [intMax] at h
    rw [sizeT]
    omega
  case isFalse => rfl

lemma logText_long (buffer : LogBuf) (flags : ℕ) (err : Bytes) (h : logBufSize ≤ sizeT (printedLen msg)) :
    ∃ buffer', logText buffer flags msg err = some (buffer', sizeofPointer - 1) := by
  obtain ⟨b, q, hb, -⟩ := buffer.snprintf_inside (i := 0) le_rfl (by decide : 0 < logBufSize) msg
  refine ⟨b, ?_⟩
  simp only [logText, hb, Option.bind_eq_bind, Option.bind_some, if_pos h]
  rfl

lemma logText_short (buffer : LogBuf) (flags : ℕ) (err : Bytes) (h : msg.length < logBufSize) :
    (flags &&& logErrno = 0 → ∃ buffer' q, logText buffer flags msg err = some (buffer', msg.length) ∧
      buffer'.cells = msg ++ 0 :: q) ∧
    (flags &&& logErrno ≠ 0 → ∃ buffer' q, logText buffer flags msg err =
        some (buffer', (msg.length + sizeT (printedLen (ascii " - " ++ err))) % 2 ^ 64) ∧
      buffer'.cells = msg ++ ((ascii " - " ++ err).take (logBufSize - msg.length - 1) ++ 0 :: q)) := by
  obtain ⟨b, q, hb, hcells⟩ := buffer.snprintf_inside (i := 0) le_rfl (by decide : 0 < logBufSize) msg
  have hsize : sizeT (printedLen msg) = msg.length := by
    rw [sizeT_printedLen, if_pos]
    rw [logBufSize] at h
    rw [intMax]
    omega
  rw [List.take_zero, List.nil_append, List.take_of_length_le (Nat.le_sub_one_of_lt h)] at hcells
  simp only [logText, hb, Option.bind_eq_bind, Option.bind_some, hsize, if_neg (Nat.not_le_of_lt h)]
  constructor
  · intro hflags
    refine ⟨b, q, ?_, hcells⟩
    rw [if_neg (not_not.mpr hflags)]
    rfl
  · intro hflags
    obtain ⟨b', q', hb', hcells'⟩ := b.snprintf_inside (i := msg.length) (n := logBufSize - msg.length)
      (by omega) (Nat.sub_pos_of_lt h) (ascii " - " ++ err)
    refine ⟨b', q', ?_, ?_⟩
    · rw [if_pos hflags, hb']
      rfl
    · rw [hcells', hcells, List.take_left]

/-- The newline gets the index behind the text if there is room for both. Without room, the index is
never that of the last cell. -/
lemma logText_spec (buffer : LogBuf) (flags : ℕ) (msg err : Bytes) :
    ∃ buffer' nw, logText buffer flags msg err = some (buffer', nw) ∧
      ((logged flags msg err).length < logBufSize →
        nw = (logged flags msg err).length ∧ ∃ q, buffer'.cells = logged flags msg err ++ 0 :: q) ∧
      (logBufSize ≤ (logged flags msg err).length → nw + 1 ≠ logBufSize) := by
  by_cases h : msg.length < logBufSize
  · obtain ⟨hplain, herrno⟩ := logText_short buffer flags err h
    by_cases hflags : flags &&& logErrno = 0
    · obtain ⟨b, q, hb, hcells⟩ := hplain hflags
      have hlogged : logged flags msg err = msg := by
        rw [logged, if_neg (not_not.mpr hflags), List.append_nil]
      rw [hlogged]
      exact ⟨b, _, hb, fun _ => ⟨rfl, q, hcells⟩, fun hlong => absurd h (Nat.not_lt_of_le hlong)⟩
    · obtain ⟨b, q, hb, hcells⟩ := herrno hflags
      have hlogged : logged flags msg err = msg ++ (ascii " - " ++ err) := by
        rw [logged, if_pos hflags]
      rw [hlogged, List.length_append]
      rw [sizeT_printedLen] at hb
      refine ⟨b, _, hb, fun hroom => ⟨?_, q, ?_⟩, fun hlong => ?_⟩
      · rw [logBufSize] at hroom
        rw [intMax, if_pos (by omega)]
        omega
      · rw [hcells, List.take_of_length_le (by omega), List.append_assoc msg]
      · rw [logBufSize] at h hlong ⊢
        rw [intMax]
        split <;> omega
  · have hlen : msg.length ≤ (logged flags msg err).length := by
      rw [logged, List.length_append]
      omega
    have hlong : logBufSize ≤ sizeT (printedLen msg) := by
      rw [sizeT_printedLen]
      rw [logBufSize] at h ⊢
      split <;> omega
    obtain ⟨b, hb⟩ := logText_long buffer flags err hlong
    exact ⟨b, _, hb, fun hroom => absurd (hlen.trans_lt hroom) h, fun _ => by decide⟩

end Lengths

section Lines

variable {buffer : LogBuf} {flags nw : ℕ} {msg err : Bytes}

lemma writesLine_of_room (h : (logged flags msg err).length < logBufSize) :
    WritesLine buffer flags msg err := by
  obtain ⟨b, nw, hb, hroom, -⟩ := logText_spec buffer flags msg err
  obtain ⟨rfl, q, hcells⟩ := hroom h
  obtain ⟨b', hstore, hcells'⟩ := Buffer.store_cell hcells 10
  rw [List.append_cons] at hcells'
  have hload := Buffer.load_front hcells'
  rw [List.length_append, List.length_singleton] at hload
  refine ⟨(b', logged flags msg err ++ [10], flags &&& logFatal ≠ 0), ?_, ?_⟩
  · simp only [doLog, hb, Option.bind_eq_bind, Option.bind_some, hstore, hload]
    rfl
  · rw [List.take_of_length_le (Nat.le_sub_one_of_lt h)]

lemma length_written {result : LogBuf × Bytes × Bool} (h : result ∈ doLog buffer flags msg err)
    {b : LogBuf} (hb : logText buffer flags msg err = some (b, nw)) :
    nw < logBufSize ∧ result.2.1.length = nw + 1 := by
  simp only [doLog, hb, Option.bind_eq_bind, Option.bind_some, Option.mem_def] at h
  obtain ⟨b', hstore, h⟩ := Option.bind_eq_some_iff.mp h
  obtain ⟨line, hload, h⟩ := Option.bind_eq_some_iff.mp h
  have hroom : nw + 1 ≤ logBufSize := by
    by_contra hover
    rw [Buffer.store_eq_none (by rw [List.length_singleton]; omega)] at hstore
    cases hstore
  refine ⟨hroom, ?_⟩
  cases h
  exact Buffer.length_load hload

lemma room_of_writesLine (h : WritesLine buffer flags msg err) :
    (logged flags msg err).length < logBufSize := by
  by_contra hlong
  obtain ⟨b, nw, hb, -, hover⟩ := logText_spec buffer flags msg err
  obtain ⟨result, hresult, hline⟩ := h
  obtain ⟨-, hlen⟩ := length_written hresult hb
  rw [hline, List.length_append, List.length_singleton, List.length_take] at hlen
  have hnw := hover (Nat.le_of_not_lt hlong)
  rw [logBufSize] at hlen hlong hnw
  omega

end Lines

theorem writesLine_iff_room (buffer : LogBuf) (flags : ℕ) (msg err : Bytes) :
    WritesLine buffer flags msg err ↔ (logged flags msg err).length < logBufSize :=
  ⟨room_of_writesLine, writesLine_of_room⟩

theorem long_message_lost : ¬ ∀ (buffer : LogBuf) (flags : ℕ) (msg err : Bytes),
    WritesLine buffer flags msg err := by
  intro h
  have hroom := room_of_writesLine (h (Buffer.fill logBufSize 0) 4 (List.replicate 8192 97) [])
  rw [logged, List.length_append, List.length_replicate] at hroom
  exact absurd hroom (by rw [logBufSize]; omega)

end TeamspeakWebserver.Manager
