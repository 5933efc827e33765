import TeamspeakWebserver.Buffers.Strings
import TeamspeakWebserver.Sessions.Framing

/-! `man/client.c`: from a command to the bytes on the socket of the manager. -/

namespace TeamspeakWebserver.Client

open Buffers Sessions Session Text

abbrev CmdBuf := Buffer UInt8 maxCmdLen

def sanitizeCommand (cmd : Bytes) : ℤ :=
  if cmd = ascii "stop" then 0
  else if cmd = ascii "enable" ∨ cmd = ascii "disable" ∨ cmd = ascii "restart" then 1
  else if cmd = ascii "test2" then 2
  else -1

def isalnum (c : UInt8) : Bool := (48 ≤ c && c ≤ 57) || (65 ≤ c && c ≤ 90) || (97 ≤ c && c ≤ 122)

def cmdIsEmpty (buf : Bytes) : Bool := !buf.any isalnum

/-- The bytes of the header; −1 stands in it for the length of `quit`. -/
def serialBytes (text : Bytes) (bytes : ℕ) : Bytes :=
  htonl (if text = ascii "quit" then 2 ^ 32 - 1 else bytes)

/-- What is written to the socket, if anything, and what is returned. The manager's reply is what the
`read()` behind it gets, or `none` if it returns zero or less. -/
def sendCmd (buf : CmdBuf) (bytes : ℕ) (reply : Option Bytes) : Option (Option Bytes × ℤ) := do
  let text ← buf.string
  if cmdIsEmpty text then return (none, 0)
  let header := serialBytes text bytes
  let buf ← buf.store headerSize (← buf.load 0 bytes)
  let buf ← buf.store 0 header
  let frame ← buf.load 0 (bytes + headerSize)
  if header ≠ htonl (2 ^ 32 - 1) then
    match reply with
    | some got =>
      let buf ← buf.store 0 got
      let buf ← buf.store got.length [0]
      let _ ← buf.string
      return (some frame, 0)
    | none => return (some frame, -1)
  return (some frame, -1)

/-! ### Commands of the command line -/

/-- The `while` of `build_message`. The argument with number `k` is what `%s` makes of it. -/
def addExtra (args : ℕ → Bytes) : ℕ → ℕ → CmdBuf → ℕ → Option (CmdBuf × ℕ)
  | 0, _, buf, b => some (buf, b)
  | numExtra + 1, k, buf, b =>
    if b < maxCmdLen then do
      let (buf, ret) ← buf.snprintf b (maxCmdLen - b) (32 :: args k)
      addExtra args numExtra (k + 1) buf (b + ret).toNat
    else some (buf, b)

/-- The message, or `none` inside for the one that is too long. -/
def buildMessage (b : CmdBuf) (args : ℕ → Bytes) (numExtra : ℕ) : Option (Option CmdBuf) := do
  let (buf, ret) ← b.snprintf 0 maxCmdLen (args 0)
  let (buf, b) ← addExtra args numExtra 1 buf ret.toNat
  return if maxCmdLen ≤ b then none else some buf

def trySend (msg : CmdBuf) (args : ℕ → Bytes) : Option (Option (CmdBuf × ℕ)) := do
  let numExtra := sanitizeCommand (args 0)
  if numExtra < 0 then return none
  match ← buildMessage msg args numExtra.toNat with
  | none => return none
  | some msg =>
    let text ← msg.string
    if cmdIsEmpty text then return none
    return some (msg, text.length)

/-! ### Commands of the interactive session -/

/-- `wait_next_command` up to `send_cmd`, for a `read()` that has got these bytes. -/
def readCommand (buf : CmdBuf) (got : Bytes) : Option CmdBuf := do
  let buf ← buf.store 0 got
  let buf ← buf.store got.length [0]
  let text ← buf.string
  if 10 ∈ text then buf.store (text.idxOf 10) [0] else some buf

inductive Accepted (buf : CmdBuf) : ℕ → Prop
  | argv (msg : CmdBuf) (args : ℕ → Bytes) (bytes : ℕ) (h : trySend msg args = some (some (buf, bytes))) :
      Accepted buf bytes
  | line (stack : CmdBuf) (got : Bytes) (hread : got.length ≤ maxCmdLen - 1)
      (h : readCommand stack got = some buf) : Accepted buf got.length

/-- No access leaves the buffer, and what is sent is a header and the whole body. The header announces
the length of the body, and a session that is new does not end on it. -/
def Framed (buf : CmdBuf) (bytes : ℕ) (reply : Option Bytes) : Prop :=
  ∃ result ∈ sendCmd buf bytes reply, ∀ sent ∈ result.1, ∃ header body,
    sent = header ++ body ∧ header.length = headerSize ∧ body = buf.cells.take bytes ∧
      ntohl header = body.length ∧ ∀ fd stale, stale.length = headerSize →
        ((newSession fd).onRead ⟨some header, stale⟩).2 ≠ .close

section Send

variable {buf : CmdBuf} {text : Bytes} {bytes : ℕ} {reply : Option Bytes}

lemma lt_maxCmdLen {n : ℕ} (h : n ≤ maxCmdLen - 1) : n < maxCmdLen :=
  Nat.lt_of_le_sub_one (by decide) h

lemma length_htonl (n : ℕ) : (htonl n).length = headerSize :=
  rfl

lemma framing (buf : CmdBuf) (header : Bytes) (hheader : header.length = headerSize)
    (hroom : bytes + headerSize ≤ maxCmdLen) : ∃ body moved framed, buf.load 0 bytes = some body ∧
      body = buf.cells.take bytes ∧ body.length = bytes ∧ buf.store headerSize body = some moved ∧
      moved.store 0 header = some framed ∧ framed.load 0 (bytes + headerSize) = some (header ++ body) := by
  obtain ⟨p, body, q, hcells, hp, rfl⟩ := buf.exists_window (i := 0) (n := bytes) (by omega)
  obtain rfl := List.length_eq_zero_iff.mp hp
  rw [List.nil_append] at hcells
  obtain ⟨front, old, q', hcells', hfront, hold⟩ :=
    buf.exists_window (i := headerSize) (n := body.length) (by omega)
  obtain ⟨moved, hmoved, hmcells⟩ := Buffer.store_window hcells' hold.symm
  rw [← List.nil_append (front ++ _)] at hmcells
  obtain ⟨framed, hframed, hfcells⟩ := Buffer.store_window hmcells (hheader.trans hfront.symm)
  rw [List.nil_append, ← List.append_assoc] at hfcells
  refine ⟨body, moved, framed, Buffer.load_front hcells, ?_, rfl, ?_, hframed, ?_⟩
  · rw [hcells, List.take_left]
  · rwa [hfront] at hmoved
  · have hload := Buffer.load_front hfcells
    rwa [List.length_append, hheader, Nat.add_comm] at hload

lemma cmdIsEmpty_of_mem {c : UInt8} (h : c ∈ text) (hc : isalnum c = true) : cmdIsEmpty text = false := by
  rw [cmdIsEmpty, List.any_eq_true.mpr ⟨c, h, hc⟩, Bool.not_true]

lemma sendCmd_empty (htext : buf.string = some text) (hempty : cmdIsEmpty text = true) :
    sendCmd buf bytes reply = some (none, 0) := by
  simp only [sendCmd, htext, Option.bind_eq_bind, Option.bind_some, if_pos hempty]
  rfl

lemma sendCmd_overrun (htext : buf.string = some text) (hempty : cmdIsEmpty text = false)
    (hlong : maxCmdLen < bytes + headerSize) : sendCmd buf bytes reply = none := by
  simp only [sendCmd, htext, hempty, Option.bind_eq_bind, Option.bind_some, Bool.false_eq_true, if_false]
  cases hload : buf.load 0 bytes with
  | none => rfl
  | some body =>
    have hlen := Buffer.length_load hload
    rw [Option.bind_some, Buffer.store_eq_none (by omega), Option.bind_none]

lemma serialBytes_eq_mark (hroom : bytes < 2 ^ 32 - 1) :
    serialBytes text bytes = htonl (2 ^ 32 - 1) ↔ text = ascii "quit" := by
  rw [serialBytes]
  split
  case isTrue h => exact iff_of_true rfl h
  case isFalse h =>
    refine iff_of_false (fun he => ?_) h
    have hn := congrArg ntohl he
    rw [ntohl_htonl (by omega), ntohl_htonl (by omega)] at hn
    omega

lemma sendCmd_sent (htext : buf.string = some text) (hempty : cmdIsEmpty text = false)
    (hroom : bytes + headerSize ≤ maxCmdLen) (hreply : ∀ got ∈ reply, got.length ≤ maxCmdLen - 1) :
    sendCmd buf bytes reply = some (some (serialBytes text bytes ++ buf.cells.take bytes),
      if text ≠ ascii "quit" ∧ reply.isSome then 0 else -1) := by
  have hsize : bytes < 2 ^ 32 - 1 := by
    rw [maxCmdLen] at hroom
    omega
  obtain ⟨body, moved, framed, hload, rfl, -, hmoved, hframed, hsent⟩ :=
    framing buf (serialBytes text bytes) (length_htonl _) hroom
  simp only [sendCmd, htext, hempty, hload, hmoved, hframed, hsent, Option.bind_eq_bind, Option.bind_some,
    Bool.false_eq_true, if_false, ne_eq, serialBytes_eq_mark hsize]
  by_cases hquit : text = ascii "quit"
  · rw [if_neg (not_not.mpr hquit), if_neg (fun h => h.1 hquit)]
    rfl
  · rw [if_pos hquit]
    cases reply with
    | none => rw [if_neg (fun h => Bool.false_ne_true h.2)]; rfl
    | some got =>
      have hgot : got.length < maxCmdLen := lt_maxCmdLen (hreply got rfl)
      obtain ⟨b, b', q, hb, hb', hcells⟩ := framed.store_string hgot
      simp only [hb, hb', Buffer.string_of_cells hcells, Option.bind_some]
      rw [if_pos ⟨hquit, rfl⟩]
      rfl

lemma ntohl_serialBytes (hroom : bytes < maxCmdLen) :
    ntohl (serialBytes text bytes) = if text = ascii "quit" then 2 ^ 32 - 1 else bytes := by
  rw [maxCmdLen] at hroom
  rw [serialBytes, ntohl_htonl]
  split <;> omega

lemma onRead_serialBytes (hroom : bytes < maxCmdLen) (hquit : text ≠ ascii "quit") (fd : Int) {stale : Bytes}
    (hstale : stale.length = headerSize) :
    ((newSession fd).onRead ⟨some (serialBytes text bytes), stale⟩).2 ≠ .close := by
  have hheader : (serialBytes text bytes).length = headerSize := length_htonl _
  have hv : ntohl (serialBytes text bytes ++ stale.drop (serialBytes text bytes).length) = bytes := by
    rw [hheader, ← hstale, List.drop_length, List.append_nil, ntohl_serialBytes hroom, if_neg hquit]
  have hsession : newSession fd = waiting fd 0 := rfl
  rw [maxCmdLen] at hroom
  rw [hsession, onRead_waiting fd 0 hv, maxCmdLen, if_neg (by omega)]
  dsimp only
  split <;> exact Outcome.noConfusion

lemma framed_iff (htext : buf.string = some text) (hbytes : bytes < maxCmdLen)
    (hreply : ∀ got ∈ reply, got.length ≤ maxCmdLen - 1) : Framed buf bytes reply ↔
      cmdIsEmpty text = true ∨ bytes + headerSize ≤ maxCmdLen ∧ text ≠ ascii "quit" := by
  cases hempty : cmdIsEmpty text with
  | true =>
    refine iff_of_true ⟨_, sendCmd_empty htext hempty, fun sent hsent => ?_⟩ (Or.inl rfl)
    cases hsent
  | false =>
    rw [or_iff_right Bool.false_ne_true]
    by_cases hroom : bytes + headerSize ≤ maxCmdLen
    · have hlen : (buf.cells.take bytes).length = bytes := by
        rw [List.length_take, buf.length_cells, Nat.min_eq_left hbytes.le]
      constructor
      · rintro ⟨result, hresult, hframe⟩
        rw [sendCmd_sent htext hempty hroom hreply] at hresult
        obtain rfl := Option.some.inj hresult
        obtain ⟨header, body, hsent, hheader, rfl, hn, -⟩ := hframe _ rfl
        obtain ⟨rfl, -⟩ := List.append_inj hsent.symm hheader
        refine ⟨hroom, fun hquit => ?_⟩
        rw [ntohl_serialBytes hbytes, if_pos hquit, hlen] at hn
        rw [maxCmdLen] at hbytes
        omega
      · rintro ⟨-, hquit⟩
        refine ⟨_, sendCmd_sent htext hempty hroom hreply, fun sent hsent => ?_⟩
        obtain rfl := Option.some.inj hsent
        refine ⟨_, _, rfl, length_htonl _, rfl, ?_, fun fd stale hstale => ?_⟩
        · rw [ntohl_serialBytes hbytes, if_neg hquit, hlen]
        · exact onRead_serialBytes hbytes hquit fd hstale
    · refine iff_of_false ?_ fun h => hroom h.1
      rintro ⟨result, hresult, -⟩
      rw [sendCmd_overrun htext hempty (Nat.lt_of_not_le hroom)] at hresult
      cases hresult

end Send

section Accepted

variable {buf msg : CmdBuf} {bytes : ℕ}

lemma trySend_string {args : ℕ → Bytes} (h : trySend msg args = some (some (buf, bytes))) :
    ∃ text, buf.string = some text ∧ bytes = text.length := by
  simp only [trySend, Option.bind_eq_bind] at h
  split at h
  · cases h
  · obtain ⟨result, -, h⟩ := Option.bind_eq_some_iff.mp h
    cases result with
    | none => cases h
    | some msg =>
      obtain ⟨text, htext, h⟩ := Option.bind_eq_some_iff.mp h
      split at h
      · cases h
      · cases h
        exact ⟨text, htext, rfl⟩

lemma takeWhile_mark {c : UInt8} {u v : Bytes} (h : c ∉ u) : (u ++ c :: v).takeWhile (· ≠ c) = u := by
  rw [List.takeWhile_append_of_pos, List.takeWhile_cons_of_neg, List.append_nil]
  · simp
  · intro d hd
    have hne : d ≠ c := fun he => h (he ▸ hd)
    simpa using hne

lemma readCommand_spec (buf : CmdBuf) {got : Bytes} (hgot : got.length ≤ maxCmdLen - 1) :
    ∃ buf' body q, readCommand buf got = some buf' ∧ buf'.cells = body ++ 0 :: q ∧
      body.length = got.length ∧ cstring body = (cstring got).takeWhile (· ≠ 10) := by
  obtain ⟨b, b', q, hb, hb', hcells⟩ := buf.store_string (lt_maxCmdLen hgot)
  simp only [readCommand, hb, hb', Buffer.string_of_cells hcells, Option.bind_eq_bind, Option.bind_some]
  have hgot : got = cstring got ++ got.dropWhile (· ≠ 0) := List.takeWhile_append_dropWhile.symm
  by_cases hnl : 10 ∈ cstring got
  · obtain ⟨u, v, huv, hu⟩ := List.eq_append_cons_of_mem hnl
    have hidx : (cstring got).idxOf 10 = u.length := by
      rw [huv, List.idxOf_append_of_notMem hu, List.idxOf_cons_self, Nat.add_zero]
    have hcells' : b'.cells = u ++ 10 :: (v ++ (got.dropWhile (· ≠ 0) ++ 0 :: q)) := by
      rw [hcells]
      conv_lhs => rw [hgot, huv]
      simp
    obtain ⟨b'', hb'', hcells''⟩ := Buffer.store_cell hcells' 0
    rw [if_pos hnl, hidx]
    refine ⟨b'', u ++ 0 :: (v ++ got.dropWhile (· ≠ 0)), q, hb'', ?_, ?_, ?_⟩
    · rw [hcells'']
      simp
    · conv_rhs => rw [hgot, huv]
      simp
    · have hzero : 0 ∉ u := by
        intro hm
        apply Buffer.not_mem_cstring got
        rw [huv]
        exact List.mem_append_left _ hm
      rw [Buffer.cstring_append, cstring_eq hzero, huv, takeWhile_mark hu]
  · rw [if_neg hnl]
    refine ⟨b', got, q, rfl, hcells, rfl, ?_⟩
    rw [List.takeWhile_eq_self_iff.mpr]
    intro c hc
    have hne : c ≠ 10 := fun he => hnl (he ▸ hc)
    simpa using hne

lemma addExtra_inside (args : ℕ → Bytes) (numExtra k b : ℕ) (hnul : 0 ∈ buf.cells) :
    ∃ result ∈ addExtra args numExtra k buf b, 0 ∈ result.1.cells := by
  induction numExtra generalizing k b buf with
  | zero => exact ⟨_, rfl, hnul⟩
  | succ numExtra ih =>
    rw [addExtra]
    split
    case isTrue h =>
      obtain ⟨b', q, hb', hcells⟩ := buf.snprintf_inside (i := b) (n := maxCmdLen - b)
        (by omega) (Nat.sub_pos_of_lt h) (32 :: args k)
      rw [hb']
      apply ih
      rw [hcells]
      exact List.mem_append_right _ (List.mem_append_right _ List.mem_cons_self)
    case isFalse => exact ⟨_, rfl, hnul⟩

lemma trySend_inside (msg : CmdBuf) (args : ℕ → Bytes) : (trySend msg args).isSome = true := by
  simp only [trySend, Option.bind_eq_bind]
  split
  · rfl
  · obtain ⟨b, q, hb, hcells⟩ := msg.snprintf_inside (i := 0) le_rfl (by decide : 0 < maxCmdLen) (args 0)
    have hnul : 0 ∈ b.cells := by
      rw [hcells]
      exact List.mem_append_right _ (List.mem_append_right _ List.mem_cons_self)
    obtain ⟨⟨b', n⟩, hextra, hnul'⟩ := addExtra_inside args (sanitizeCommand (args 0)).toNat 1
      (printedLen (args 0)).toNat hnul
    rw [Option.mem_def] at hextra
    simp only [buildMessage, hb, hextra, Option.bind_eq_bind, Option.bind_some, Option.pure_def]
    split
    · rfl
    · have htext : b'.string = some (cstring b'.cells) := if_pos hnul'
      rename_i heq
      split at heq
      · cases heq
      · obtain rfl := Option.some.inj heq
        rw [htext, Option.bind_some]
        split <;> rfl

lemma Accepted.string (h : Accepted buf bytes) :
    buf.string = some (cstring buf.cells) ∧ bytes < maxCmdLen := by
  cases h with
  | argv msg args _ h =>
    obtain ⟨text, htext, rfl⟩ := trySend_string h
    have hnul : 0 ∈ buf.cells := by
      by_contra hnul
      rw [Buffer.string, if_neg hnul] at htext
      cases htext
    exact ⟨if_pos hnul, Buffer.length_string htext⟩
  | line stack got hread h =>
    obtain ⟨buf', body, q, hread', hcells, -⟩ := readCommand_spec stack hread
    obtain rfl := Option.some.inj (h.symm.trans hread')
    have hnul : 0 ∈ buf.cells := by
      rw [hcells]
      exact List.mem_append_right body List.mem_cons_self
    exact ⟨if_pos hnul, lt_maxCmdLen hread⟩

lemma exists_accepted (stack : CmdBuf) {got : Bytes} (hgot : got.length ≤ maxCmdLen - 1) :
    ∃ buf, Accepted buf got.length ∧ cstring buf.cells = (cstring got).takeWhile (· ≠ 10) := by
  obtain ⟨buf, body, q, hread, hcells, -, hbody⟩ := readCommand_spec stack hgot
  refine ⟨buf, .line stack got hgot hread, ?_⟩
  rw [hcells, Buffer.cstring_append, hbody]

end Accepted

theorem framed_iff_room {buf : CmdBuf} {bytes : ℕ} {reply : Option Bytes} (h : Accepted buf bytes)
    (hreply : ∀ got ∈ reply, got.length ≤ maxCmdLen - 1) : Framed buf bytes reply ↔
      cmdIsEmpty (cstring buf.cells) = true ∨
      bytes + headerSize ≤ maxCmdLen ∧ cstring buf.cells ≠ ascii "quit" :=
  framed_iff h.string.1 h.string.2 hreply

theorem framed_iff_room_stop : ∃ buf, Accepted buf 5 ∧ Framed buf 5 (some (ascii "Shutting down...")) := by
  obtain ⟨buf, h, htext⟩ := exists_accepted (Buffer.fill maxCmdLen 0)
    (by decide : (ascii "stop\n").length ≤ maxCmdLen - 1)
  refine ⟨buf, h, (framed_iff_room h ?_).mpr (Or.inr ⟨by decide, ?_⟩)⟩
  · rintro got hgot
    obtain rfl := Option.some.inj hgot
    decide
  · rw [htext]
    decide

theorem long_line_overruns : ¬ ∀ buf bytes reply, Accepted buf bytes →
    (∀ got ∈ reply, got.length ≤ maxCmdLen - 1) → Framed buf bytes reply := by
  intro h
  have hlen : (List.replicate 4093 (97 : UInt8)).length = 4093 := List.length_replicate
  obtain ⟨buf, haccepted, htext⟩ := exists_accepted (Buffer.fill maxCmdLen 0)
    (show (List.replicate 4093 (97 : UInt8)).length ≤ maxCmdLen - 1 by rw [hlen]; decide)
  have hnone : ∀ got ∈ (none : Option Bytes), got.length ≤ maxCmdLen - 1 := by simp
  have hframed := (framed_iff haccepted.string.1 haccepted.string.2 hnone).mp (h buf _ none haccepted hnone)
  rcases hframed with hempty | ⟨hroom, -⟩
  · have hletter : 97 ∈ List.replicate 4093 (97 : UInt8) := List.mem_replicate.mpr ⟨by decide, rfl⟩
    rw [htext, cstring_eq, List.takeWhile_replicate, if_pos (by decide), cmdIsEmpty_of_mem hletter rfl] at hempty
    · cases hempty
    · intro hm
      exact absurd (List.eq_of_mem_replicate hm) (by decide)
  · rw [hlen] at hroom
    exact absurd hroom (by decide)

end TeamspeakWebserver.Client
