import TeamspeakWebserver.Manager.Log

/-! `read_mod_input` of `man/manager.c`: what a module prints goes to the log, block by block. -/

namespace TeamspeakWebserver.Manager

open Buffers

def bufLen : ℕ := 2048

def logErr : ℕ := 4

/-- The locals of `read_mod_input`, and what it has written so far. -/
structure Output where
  buf : Buffer UInt8 bufLen
  bytesLeft : ℕ
  written : Bytes

def tag (modName : Bytes) : Bytes := ascii "[" ++ (modName ++ ascii "] ")

/-- The buffer before the first `read()`, and the line that `log_err` writes if the name is too long. -/
def opening (logBuf : LogBuf) (modName : Bytes) : Option (Bytes × Output) := do
  let (buf, nw) ← (Buffer.fill bufLen 0).snprintf 0 bufLen (tag modName)
  if nw < 0 ∨ bufLen ≤ nw then
    let (_, line, _) ← doLog logBuf logErr
      (ascii "[ERR] read_mod_input: " ++ (modName ++ ascii " module name is too long?")) []
    let (buf, nw) ← buf.snprintf 0 bufLen (ascii "[???] ")
    return (line, ⟨buf, bufLen - nw.toNat, []⟩)
  return ([], ⟨buf, bufLen - nw.toNat, []⟩)

namespace Output

/-- The body of the loop, for a `read()` that has returned these bytes. -/
def onRead (o : Output) (got : Bytes) : Option Output := do
  let buf ← o.buf.store (bufLen - o.bytesLeft) got
  let bytesLeft := o.bytesLeft - got.length
  if bytesLeft = 0 then return ⟨buf, bufLen, o.written ++ (← buf.load 0 bufLen)⟩
  return ⟨buf, bytesLeft, o.written⟩

def readAll (o : Output) : List Bytes → Option Output
  | [] => some o
  | got :: reads => do (← o.onRead got).readAll reads

/-- The last flush. `memchr` looks at the whole buffer. -/
def finish (o : Output) : Option Bytes :=
  if o.bytesLeft < bufLen then do
    if 10 ∈ (← o.buf.load 0 bufLen) then
      return o.written ++ (← o.buf.load 0 (bufLen - o.bytesLeft))
    let buf ← o.buf.store (bufLen - o.bytesLeft) [10]
    let bytesLeft := o.bytesLeft - 1
    return o.written ++ (← buf.load 0 (bufLen - bytesLeft))
  else some o.written

def Answers (o : Output) : List Bytes → Prop
  | [] => True
  | got :: reads => (0 < got.length ∧ got.length ≤ o.bytesLeft) ∧
      ∀ o' ∈ o.onRead got, o'.Answers reads

end Output

def readModInput (logBuf : LogBuf) (modName : Bytes) (reads : List Bytes) : Option Bytes := do
  let (line, o) ← opening logBuf modName
  let o ← o.readAll reads
  return line ++ (← o.finish)

def Delivers (logBuf : LogBuf) (modName : Bytes) (reads : List Bytes) : Prop :=
  ∀ begun ∈ opening logBuf modName, begun.2.Answers reads

/-- The same of the lengths alone, where `n` bytes have been stored: a full buffer is empty again. -/
def Fits (n : ℕ) : List Bytes → Prop
  | [] => True
  | got :: reads => (0 < got.length ∧ got.length ≤ bufLen - n % bufLen) ∧ Fits (n + got.length) reads

def shown (text : Bytes) : Bytes :=
  if bufLen ∣ text.length ∨ 10 ∈ text.drop (text.length - bufLen) then text else text ++ [10]

namespace Output

/-- The buffer after the text: its last part, which is not written yet, and behind it the end of the
block before or, without one, zeros. -/
structure Holds (o : Output) (text p q : Bytes) : Prop where
  cells : o.buf.cells = p ++ q
  left : o.bytesLeft = q.length
  room : q ≠ []
  text : text = o.written ++ p
  blocks : bufLen ∣ o.written.length
  stale : (o.written = [] ∧ 10 ∉ q) ∨ ∃ w x, o.written = w ++ (x ++ q) ∧ x.length = p.length

variable {o : Output} {text p q got : Bytes}

lemma Holds.length (h : o.Holds text p q) : p.length + q.length = bufLen := by
  rw [← List.length_append, ← h.cells, o.buf.length_cells]

lemma Holds.at (h : o.Holds text p q) : bufLen - o.bytesLeft = p.length := by
  have hlen := h.length
  rw [h.left]
  omega

/-- Behind the bytes that have come the stale ones stay, unless the buffer is full and is written. -/
lemma Holds.onRead (h : o.Holds text p q) (hgot : got.length ≤ q.length) :
    ∃ o' p' q', o.onRead got = some o' ∧ o'.Holds (text ++ got) p' q' := by
  obtain ⟨old, q, rfl, hold⟩ : ∃ old q', q = old ++ q' ∧ got.length = old.length := by
    refine ⟨q.take got.length, q.drop got.length, (List.take_append_drop _ _).symm, ?_⟩
    rw [List.length_take, Nat.min_eq_left hgot]
  obtain ⟨buf, hstore, hcells⟩ := Buffer.store_window h.cells hold
  have hleft : o.bytesLeft - got.length = q.length := by
    rw [h.left, List.length_append]
    omega
  by_cases hq : q = []
  · obtain rfl := hq
    rw [List.append_nil] at hcells
    refine ⟨⟨buf, bufLen, o.written ++ (p ++ got)⟩, [], p ++ got, ?_, ?_⟩
    · simp only [Output.onRead, h.at, hstore, hleft, Buffer.load_all, hcells, Option.bind_eq_bind,
        Option.bind_some, List.length_nil, if_true]
      rfl
    · have hlen : (p ++ got).length = bufLen := by
        rw [← hcells, buf.length_cells]
      exact
        { cells := hcells
          left := hlen.symm
          room := by
            rintro he
            rw [he] at hlen
            cases hlen
          text := by rw [h.text, List.append_assoc, List.append_nil]
          blocks := by
            rw [List.length_append, hlen]
            exact (Nat.dvd_add_right h.blocks).mpr dvd_rfl
          stale := Or.inr ⟨o.written, [], rfl, rfl⟩ }
  · refine ⟨⟨buf, q.length, o.written⟩, p ++ got, q, ?_, ?_⟩
    · have hne : q.length ≠ 0 := fun he => hq (List.length_eq_zero_iff.mp he)
      simp only [Output.onRead, h.at, hstore, hleft, Option.bind_eq_bind, Option.bind_some, if_neg hne]
      rfl
    · exact
        { cells := by rw [hcells, List.append_assoc]
          left := rfl
          room := hq
          text := by rw [h.text, List.append_assoc]
          blocks := h.blocks
          stale := by
            rcases h.stale with ⟨hw, hz⟩ | ⟨w, x, hw, hx⟩
            · exact Or.inl ⟨hw, fun hm => hz (List.mem_append_right old hm)⟩
            · refine Or.inr ⟨w, x ++ old, ?_, ?_⟩
              · rw [hw, List.append_assoc]
              · rw [List.length_append, List.length_append, hx, hold] }

lemma Holds.readAll (h : o.Holds text p q) {reads : List Bytes} (hreads : o.Answers reads) :
    ∃ o' p' q', o.readAll reads = some o' ∧ o'.Holds (text ++ reads.flatten) p' q' := by
  induction reads generalizing o text p q with
  | nil =>
    refine ⟨o, p, q, rfl, ?_⟩
    rwa [List.flatten_nil, List.append_nil]
  | cons got reads ih =>
    obtain ⟨⟨-, hgot⟩, hrest⟩ := hreads
    rw [h.left] at hgot
    obtain ⟨o', p', q', ho', h'⟩ := h.onRead hgot
    obtain ⟨o'', p'', q'', ho'', h''⟩ := ih h' (hrest o' ho')
    refine ⟨o'', p'', q'', ?_, ?_⟩
    · rw [Output.readAll, ho']
      exact ho''
    · rwa [List.flatten_cons, ← List.append_assoc]

lemma Holds.length_mod (h : o.Holds text p q) : text.length % bufLen = p.length := by
  have hlen := h.length
  have hroom := List.length_pos_of_ne_nil h.room
  obtain ⟨k, hk⟩ := h.blocks
  rw [h.text, List.length_append, hk, Nat.mul_add_mod, Nat.mod_eq_of_lt (by omega)]

lemma Holds.answers_iff (h : o.Holds text p q) (reads : List Bytes) :
    o.Answers reads ↔ Fits text.length reads := by
  induction reads generalizing o text p q with
  | nil => exact Iff.rfl
  | cons got reads ih =>
    have hleft : o.bytesLeft = bufLen - text.length % bufLen := by
      have hlen := h.length
      rw [h.left, h.length_mod]
      omega
    rw [Output.Answers, Fits, ← hleft]
    refine and_congr_right fun hgot => ?_
    obtain ⟨o', p', q', ho', h'⟩ := h.onRead (hgot.2.trans h.left.le)
    rw [ho', ← List.length_append, ← ih h']
    simp

lemma Holds.newline (h : o.Holds text p q) :
    10 ∈ p ++ q ↔ 10 ∈ text.drop (text.length - bufLen) := by
  have hlen := h.length
  rcases h.stale with ⟨hw, hz⟩ | ⟨w, x, hw, hx⟩
  · have htext := h.text
    rw [hw, List.nil_append] at htext
    rw [htext, Nat.sub_eq_zero_of_le (by omega), List.drop_zero, List.mem_append, or_iff_left hz]
  · have htext : text = (w ++ x) ++ (q ++ p) := by
      rw [h.text, hw]
      simp only [List.append_assoc]
    have hdrop : text.length - bufLen = (w ++ x).length := by
      rw [htext]
      simp only [List.length_append]
      omega
    rw [hdrop, htext, List.drop_left, List.mem_append, List.mem_append, or_comm]

lemma Holds.dvd_iff (h : o.Holds text p q) : bufLen ∣ text.length ↔ p = [] := by
  rw [h.text, List.length_append, Nat.dvd_add_right h.blocks]
  constructor
  · intro hdvd
    have hlen := h.length
    have hroom := List.length_pos_of_ne_nil h.room
    exact List.length_eq_zero_iff.mp (Nat.eq_zero_of_dvd_of_lt hdvd (by omega))
  · rintro rfl
    exact dvd_zero _

lemma Holds.finish (h : o.Holds text p q) : o.finish = some (shown text) := by
  have hlen := h.length
  have hdvd := h.dvd_iff
  have hnewline := h.newline
  by_cases hp : p = []
  · have hleft : ¬ o.bytesLeft < bufLen := by
      rw [hp, List.length_nil] at hlen
      rw [h.left]
      omega
    rw [Output.finish, if_neg hleft, shown, if_pos (Or.inl (hdvd.mpr hp)), h.text, hp, List.append_nil]
  · have hpos := List.length_pos_of_ne_nil hp
    have hleft : o.bytesLeft < bufLen := by
      rw [h.left]
      omega
    rw [Output.finish, if_pos hleft]
    simp only [Buffer.load_all, Option.bind_eq_bind, Option.bind_some, h.at, h.cells, hnewline]
    by_cases hlf : 10 ∈ text.drop (text.length - bufLen)
    · rw [if_pos hlf, Buffer.load_front h.cells, shown, if_pos (Or.inr hlf), h.text]
      rfl
    · obtain ⟨c, q', rfl⟩ := List.exists_cons_of_ne_nil h.room
      obtain ⟨buf, hstore, hcells⟩ := Buffer.store_cell h.cells 10
      rw [List.append_cons] at hcells
      have hnext : bufLen - (o.bytesLeft - 1) = (p ++ [10]).length := by
        rw [h.left, List.length_append, List.length_cons, List.length_singleton]
        rw [List.length_cons] at hlen
        omega
      have hshown : shown text = o.written ++ (p ++ [10]) := by
        rw [shown, if_neg (not_or.mpr ⟨fun hd => hp (hdvd.mp hd), hlf⟩), h.text, List.append_assoc]
      rw [if_neg hlf, hstore, hshown, Option.bind_some, hnext, Buffer.load_front hcells]
      rfl

end Output

section Reading

variable {logBuf : LogBuf} {modName stream : Bytes} {reads : List Bytes}

lemma printedLen_tag (h : (tag modName).length < bufLen) :
    printedLen (tag modName) = (tag modName).length := by
  rw [printedLen, if_pos]
  rw [bufLen] at h
  rw [intMax]
  omega

lemma opening_holds (logBuf : LogBuf) (h : (tag modName).length < bufLen) :
    ∃ o q, opening logBuf modName = some ([], o) ∧ o.Holds (tag modName) (tag modName) q := by
  have htake : (tag modName).take (bufLen - 1) = tag modName :=
    List.take_of_length_le (Nat.le_sub_one_of_lt h)
  have hzeros : (Buffer.fill bufLen (0 : UInt8)).cells = [] ++ (List.replicate ((tag modName).length + 1) 0 ++
      List.replicate (bufLen - ((tag modName).length + 1)) 0) := by
    rw [Buffer.fill_cells, List.nil_append, ← List.replicate_add, Nat.add_sub_cancel' h]
  have hold : (List.replicate ((tag modName).length + 1) (0 : UInt8)).length =
      ((tag modName).take (bufLen - 1)).length + 1 := by
    rw [htake, List.length_replicate]
  obtain ⟨buf, hprint, hcells⟩ := Buffer.snprintf_window (by decide : 0 < bufLen) hzeros hold
  rw [htake, List.nil_append] at hcells
  rw [List.length_nil, printedLen_tag h] at hprint
  have hnw : ¬ (((tag modName).length : ℤ) < 0 ∨ (bufLen : ℤ) ≤ (tag modName).length) := by omega
  refine ⟨⟨buf, bufLen - (tag modName).length, []⟩,
    0 :: List.replicate (bufLen - ((tag modName).length + 1)) 0, ?_, ?_⟩
  · simp only [opening, hprint, Option.bind_eq_bind, Option.bind_some, if_neg hnw, Int.toNat_natCast]
    rfl
  · have hlen := buf.length_cells
    rw [hcells, List.length_append] at hlen
    exact
      { cells := hcells
        left := by
          dsimp only
          omega
        room := List.cons_ne_nil _ _
        text := rfl
        blocks := dvd_zero _
        stale := by
          refine Or.inl ⟨rfl, fun hm => ?_⟩
          rcases List.mem_cons.mp hm with hm | hm
          · exact absurd hm (by decide)
          · exact absurd (List.eq_of_mem_replicate hm) (by decide) }

lemma readModInput_eq (hname : (tag modName).length < bufLen) (h : Delivers logBuf modName reads) :
    readModInput logBuf modName reads = some (shown (tag modName ++ reads.flatten)) := by
  obtain ⟨o, q, ho, hholds⟩ := opening_holds logBuf hname
  obtain ⟨o', p', q', ho', hholds'⟩ := hholds.readAll (h _ ho)
  simp only [readModInput, ho, Option.bind_eq_bind, Option.bind_some, ho', hholds'.finish]
  rfl

lemma shown_eq (text : Bytes) : shown text = text ∨ shown text = text ++ [10] := by
  rw [shown]
  split
  · exact Or.inl rfl
  · exact Or.inr rfl

lemma delivers_iff_fits (logBuf : LogBuf) (hname : (tag modName).length < bufLen) :
    Delivers logBuf modName reads ↔ Fits (tag modName).length reads := by
  obtain ⟨o, q, ho, hholds⟩ := opening_holds logBuf hname
  rw [Delivers, ho, ← hholds.answers_iff]
  simp

end Reading

theorem output_of_stream {modName : Bytes} (hname : (tag modName).length < bufLen) (stream : Bytes) :
    ∃ output, (output = tag modName ++ stream ∨ output = tag modName ++ stream ++ [10]) ∧
      ∀ logBuf reads, Delivers logBuf modName reads → reads.flatten = stream →
        readModInput logBuf modName reads = some output := by
  refine ⟨shown (tag modName ++ stream), shown_eq _, ?_⟩
  rintro logBuf reads h rfl
  exact readModInput_eq hname h

/-- The first `read()` fills the buffer, so the second one comes after a flush. -/
theorem output_of_stream_flushed : ∃ output,
    (output = tag (ascii "ts_bot") ++ (List.replicate 2039 97 ++ ascii "up") ∨
      output = tag (ascii "ts_bot") ++ (List.replicate 2039 97 ++ ascii "up") ++ [10]) ∧
    readModInput (Buffer.fill logBufSize 0) (ascii "ts_bot") [List.replicate 2039 97, ascii "up"] =
      some output := by
  have hname : (tag (ascii "ts_bot")).length < bufLen := by decide
  have htag : (tag (ascii "ts_bot")).length = 9 := by decide
  have hfits : Fits 9 [List.replicate 2039 97, ascii "up"] := by
    simp only [Fits, List.length_replicate]
    decide
  obtain ⟨output, hshape, hout⟩ :=
    output_of_stream hname (List.replicate 2039 97 ++ ascii "up")
  refine ⟨output, hshape, hout _ _ ((delivers_iff_fits _ hname).mpr (htag ▸ hfits)) ?_⟩
  simp only [List.flatten_cons, List.flatten_nil, List.append_nil]

/-! ### The end of what is written -/

def EndsLine (logBuf : LogBuf) (modName : Bytes) (reads : List Bytes) : Prop :=
  ∃ output ∈ readModInput logBuf modName reads, output.getLast? = some 10

lemma shown_endsLine (text : Bytes) : (shown text).getLast? = some 10 ↔
    text.getLast? = some 10 ∨ ¬ bufLen ∣ text.length ∧ 10 ∉ text.drop (text.length - bufLen) := by
  rw [shown]
  split
  case isTrue h =>
    refine ⟨Or.inl, fun hend => hend.resolve_right ?_⟩
    rintro ⟨hdvd, hlf⟩
    exact h.elim hdvd hlf
  case isFalse h =>
    rw [List.getLast?_append]
    refine ⟨fun _ => Or.inr (not_or.mp h), fun _ => rfl⟩

lemma endsLine_iff_shown {logBuf : LogBuf} {modName : Bytes} {reads : List Bytes}
    (hname : (tag modName).length < bufLen) (h : Delivers logBuf modName reads) :
    EndsLine logBuf modName reads ↔ (shown (tag modName ++ reads.flatten)).getLast? = some 10 := by
  rw [EndsLine, readModInput_eq hname h]
  constructor
  · rintro ⟨output, hout, hend⟩
    rwa [Option.some.inj hout]
  · exact fun hend => ⟨_, rfl, hend⟩

theorem endsLine_iff {logBuf : LogBuf} {modName : Bytes} {reads : List Bytes}
    (hname : (tag modName).length < bufLen) (h : Delivers logBuf modName reads) :
    EndsLine logBuf modName reads ↔
      (tag modName ++ reads.flatten).getLast? = some 10 ∨
      ¬ bufLen ∣ (tag modName ++ reads.flatten).length ∧ 10 ∉ (tag modName ++ reads.flatten).drop
        ((tag modName ++ reads.flatten).length - bufLen) := by
  rw [endsLine_iff_shown hname h, shown_endsLine]

theorem endsLine_iff_line : EndsLine (Buffer.fill logBufSize 0) (ascii "ts_bot") [ascii "up"] := by
  have hname : (tag (ascii "ts_bot")).length < bufLen := by decide
  have hreads : Delivers (Buffer.fill logBufSize 0) (ascii "ts_bot") [ascii "up"] :=
    (delivers_iff_fits _ hname).mpr ⟨by decide, trivial⟩
  exact (endsLine_iff hname hreads).mpr (Or.inr (by decide))

theorem two_lines_unended : ¬ ∀ (logBuf : LogBuf) (modName : Bytes) (reads : List Bytes),
    (tag modName).length < bufLen → Delivers logBuf modName reads → EndsLine logBuf modName reads := by
  intro h
  have hname : (tag (ascii "ts_bot")).length < bufLen := by decide
  have hreads : Delivers (Buffer.fill logBufSize 0) (ascii "ts_bot") [ascii "a\nb"] :=
    (delivers_iff_fits _ hname).mpr ⟨by decide, trivial⟩
  have hend := (endsLine_iff_shown hname hreads).mp (h _ _ _ hname hreads)
  exact absurd hend (by decide)

end TeamspeakWebserver.Manager
