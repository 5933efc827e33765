import TeamspeakWebserver.Client.Commands
import TeamspeakWebserver.Text.Split

/-! `start_interactive` of `man/client.c`: the lines of the standard input become commands. -/

namespace TeamspeakWebserver.Client

open Buffers Sessions Session Text

/-- `wait_next_command` where `poll()` has found the standard input ready, as it does at its end too.
The `read()` gets nothing there. -/
def waitNextCommand (stack : CmdBuf) (got : Bytes) (reply : Option Bytes) : Option (Option Bytes × ℤ) := do
  let buf ← readCommand stack got
  sendCmd buf got.length reply

/-- What is written to the socket in `n` turns, and whether the loop has ended. In its turn `k` the
buffer holds `stack k` before, and the manager answers `reply k`. -/
def startInteractive (stack : ℕ → CmdBuf) (reply : ℕ → Bytes) : (n k : ℕ) → List Bytes →
    Option (List Bytes × Bool)
  | 0, _, _ => some ([], false)
  | n + 1, k, reads => do
    let (sent, errv) ← waitNextCommand (stack k) (reads.headD []) (some (reply k))
    if errv = 0 then
      let (frames, ended) ← startInteractive stack reply n (k + 1) reads.tail
      return (sent.toList ++ frames, ended)
    return (sent.toList, true)

def Reads (reads : List Bytes) : Prop := ∀ got ∈ reads, 0 < got.length ∧ got.length ≤ maxCmdLen - 1

def Answered (reply : ℕ → Bytes) : Prop := ∀ k, 0 < (reply k).length ∧ (reply k).length ≤ maxCmdLen - 1

def commands (frames : List Bytes) : List Bytes :=
  (frames.filter fun frame => frame.take headerSize ≠ htonl (2 ^ 32 - 1)).map fun frame =>
    cstring (frame.drop headerSize)

def wanted (stream : Bytes) : List Bytes :=
  ((stream.splitOn 10).dropLast.takeWhile (· ≠ ascii "quit")).filter fun line => !cmdIsEmpty line

def Served (stack : ℕ → CmdBuf) (reply : ℕ → Bytes) (reads : List Bytes) : Prop :=
  ∃ n frames, startInteractive stack reply n 0 reads = some (frames, true) ∧
    commands frames = wanted reads.flatten

def firstLine (got : Bytes) : Bytes := (cstring got).takeWhile (· ≠ 10)

inductive Serves : List Bytes → List Bytes → Prop
  | quit {got : Bytes} (reads : List Bytes) (htext : firstLine got = ascii "quit")
      (hroom : got.length + headerSize ≤ maxCmdLen) : Serves (got :: reads) []
  | blank {got : Bytes} {reads cmds : List Bytes} (hempty : cmdIsEmpty (firstLine got) = true)
      (rest : Serves reads cmds) : Serves (got :: reads) cmds
  | command {got : Bytes} {reads cmds : List Bytes} (hempty : cmdIsEmpty (firstLine got) = false)
      (htext : firstLine got ≠ ascii "quit") (hroom : got.length + headerSize ≤ maxCmdLen)
      (rest : Serves reads cmds) : Serves (got :: reads) (firstLine got :: cmds)

section Serves

variable {got : Bytes} {reads cmds : List Bytes}

lemma not_empty_quit (hempty : cmdIsEmpty (firstLine got) = true) : firstLine got ≠ ascii "quit" := by
  intro hquit
  rw [hquit] at hempty
  exact absurd hempty (by decide)

lemma serves_blank (hempty : cmdIsEmpty (firstLine got) = true) :
    Serves (got :: reads) cmds ↔ Serves reads cmds := by
  refine ⟨fun h => ?_, Serves.blank hempty⟩
  cases h with
  | quit _ htext => exact absurd htext (not_empty_quit hempty)
  | blank _ rest => exact rest
  | command hempty' => exact absurd (hempty.symm.trans hempty') (by decide)

lemma serves_quit (htext : firstLine got = ascii "quit") (hroom : got.length + headerSize ≤ maxCmdLen) :
    Serves (got :: reads) cmds ↔ cmds = [] := by
  constructor
  · intro h
    cases h with
    | quit => rfl
    | blank hempty => exact absurd htext (not_empty_quit hempty)
    | command _ htext' => exact absurd htext htext'
  · rintro rfl
    exact .quit reads htext hroom

lemma serves_command (hempty : cmdIsEmpty (firstLine got) = false) (htext : firstLine got ≠ ascii "quit")
    (hroom : got.length + headerSize ≤ maxCmdLen) :
    Serves (got :: reads) cmds ↔ ∃ cmds', cmds = firstLine got :: cmds' ∧ Serves reads cmds' := by
  constructor
  · intro h
    cases h with
    | quit _ htext' => exact absurd htext' htext
    | blank hempty' => exact absurd (hempty.symm.trans hempty') (by decide)
    | command _ _ _ rest => exact ⟨_, rfl, rest⟩
  · rintro ⟨cmds', rfl, rest⟩
    exact .command hempty htext hroom rest

lemma not_serves_long (hempty : cmdIsEmpty (firstLine got) = false)
    (hlong : ¬ got.length + headerSize ≤ maxCmdLen) : ¬ Serves (got :: reads) cmds := by
  intro h
  cases h with
  | quit _ _ hroom => exact hlong hroom
  | blank hempty' => exact absurd (hempty.symm.trans hempty') (by decide)
  | command _ _ hroom => exact hlong hroom

end Serves

section Turn

variable {stack : CmdBuf} {got reply : Bytes}

lemma readCommand_firstLine (stack : CmdBuf) (hgot : got.length ≤ maxCmdLen - 1) : ∃ buf body q,
    readCommand stack got = some buf ∧ buf.string = some (firstLine got) ∧ buf.cells = body ++ q ∧
      body.length = got.length ∧ cstring body = firstLine got := by
  obtain ⟨buf, body, q, hread, hcells, hlen, hbody⟩ := readCommand_spec stack hgot
  refine ⟨buf, body, 0 :: q, hread, ?_, hcells, hlen, hbody⟩
  rw [Buffer.string_of_cells hcells, hbody, firstLine]

lemma waitNextCommand_blank (hgot : got.length ≤ maxCmdLen - 1) (hempty : cmdIsEmpty (firstLine got) = true) :
    waitNextCommand stack got (some reply) = some (none, 0) := by
  obtain ⟨buf, body, q, hread, htext, -⟩ := readCommand_firstLine stack hgot
  simp only [waitNextCommand, hread, Option.bind_eq_bind, Option.bind_some]
  exact sendCmd_empty htext hempty

lemma waitNextCommand_overrun (hgot : got.length ≤ maxCmdLen - 1)
    (hempty : cmdIsEmpty (firstLine got) = false) (hlong : maxCmdLen < got.length + headerSize) :
    waitNextCommand stack got (some reply) = none := by
  obtain ⟨buf, body, q, hread, htext, -⟩ := readCommand_firstLine stack hgot
  simp only [waitNextCommand, hread, Option.bind_eq_bind, Option.bind_some]
  exact sendCmd_overrun htext hempty hlong

lemma waitNextCommand_sent (hgot : got.length ≤ maxCmdLen - 1) (hempty : cmdIsEmpty (firstLine got) = false)
    (hroom : got.length + headerSize ≤ maxCmdLen) (hreply : reply.length ≤ maxCmdLen - 1) :
    ∃ body, cstring body = firstLine got ∧ waitNextCommand stack got (some reply) =
      some (some (serialBytes (firstLine got) got.length ++ body),
        if firstLine got = ascii "quit" then -1 else 0) := by
  obtain ⟨buf, body, q, hread, htext, hcells, hlen, hbody⟩ := readCommand_firstLine stack hgot
  have hreplies : ∀ r ∈ some reply, r.length ≤ maxCmdLen - 1 := by
    rintro r hr
    rwa [← Option.some.inj hr]
  have hsent := sendCmd_sent htext hempty hroom hreplies
  rw [hcells, ← hlen, List.take_left, hlen] at hsent
  refine ⟨body, hbody, ?_⟩
  simp only [waitNextCommand, hread, Option.bind_eq_bind, Option.bind_some, hsent, Option.isSome_some, and_true]
  by_cases hquit : firstLine got = ascii "quit"
  · rw [if_pos hquit, if_neg (not_not.mpr hquit)]
  · rw [if_neg hquit, if_pos hquit]

end Turn

section Loop

variable {stack : ℕ → CmdBuf} {reply : ℕ → Bytes} {n k : ℕ} {got : Bytes} {reads cmds frames : List Bytes}

/-- At the end of input the loop goes on and on. -/
lemma startInteractive_nil (stack : ℕ → CmdBuf) (reply : ℕ → Bytes) (n k : ℕ) :
    startInteractive stack reply n k [] = some ([], false) := by
  induction n generalizing k with
  | zero => rfl
  | succ n ih =>
    have hturn : waitNextCommand (stack k) [] (some (reply k)) = some (none, 0) :=
      waitNextCommand_blank (Nat.zero_le _) rfl
    simp only [startInteractive, List.headD_nil, List.tail_nil, hturn, ih, Option.bind_eq_bind,
      Option.bind_some, if_true]
    rfl

lemma commands_cons (frame : Bytes) (frames : List Bytes) : commands (frame :: frames) =
    if frame.take headerSize = htonl (2 ^ 32 - 1) then commands frames
    else cstring (frame.drop headerSize) :: commands frames := by
  simp only [commands, List.filter_cons, decide_eq_true_eq]
  by_cases h : frame.take headerSize = htonl (2 ^ 32 - 1)
  · rw [if_neg (not_not.mpr h), if_pos h]
  · rw [if_pos h, if_neg h, List.map_cons]

lemma commands_sent {text body : Bytes} {bytes : ℕ} (hbytes : bytes < maxCmdLen) (frames : List Bytes) :
    commands ((serialBytes text bytes ++ body) :: frames) =
      if text = ascii "quit" then commands frames else cstring body :: commands frames := by
  rw [maxCmdLen] at hbytes
  have htake : (serialBytes text bytes ++ body).take headerSize = serialBytes text bytes :=
    List.take_left' (length_htonl _)
  have hdrop : (serialBytes text bytes ++ body).drop headerSize = body :=
    List.drop_left' (length_htonl _)
  have hmark : serialBytes text bytes = htonl (2 ^ 32 - 1) ↔ text = ascii "quit" :=
    serialBytes_eq_mark (by omega)
  rw [commands_cons, htake, hdrop]
  by_cases hquit : text = ascii "quit"
  · rw [if_pos (hmark.mpr hquit), if_pos hquit]
  · rw [if_neg fun h => hquit (hmark.mp h), if_neg hquit]

lemma startInteractive_next {sent : Option Bytes} (P : List Bytes → Prop)
    (hturn : waitNextCommand (stack k) got (some (reply k)) = some (sent, 0)) :
    (∃ n frames, startInteractive stack reply n k (got :: reads) = some (frames, true) ∧ P frames) ↔
      ∃ n frames, startInteractive stack reply n (k + 1) reads = some (frames, true) ∧
        P (sent.toList ++ frames) := by
  constructor
  · rintro ⟨n, frames, h, hP⟩
    cases n with
    | zero => cases h
    | succ n =>
      simp only [startInteractive, List.headD_cons, List.tail_cons, hturn, Option.bind_eq_bind,
        Option.bind_some, if_true] at h
      obtain ⟨⟨rest, ended⟩, hrest, h⟩ := Option.bind_eq_some_iff.mp h
      cases h
      exact ⟨n, rest, hrest, hP⟩
  · rintro ⟨n, rest, hrest, hP⟩
    refine ⟨n + 1, sent.toList ++ rest, ?_, hP⟩
    simp only [startInteractive, List.headD_cons, List.tail_cons, hturn, hrest, Option.bind_eq_bind,
      Option.bind_some, if_true]
    rfl

lemma startInteractive_last {sent : Option Bytes} (P : List Bytes → Prop)
    (hturn : waitNextCommand (stack k) got (some (reply k)) = some (sent, -1)) :
    (∃ n frames, startInteractive stack reply n k (got :: reads) = some (frames, true) ∧ P frames) ↔
      P sent.toList := by
  have hlast (n : ℕ) : startInteractive stack reply (n + 1) k (got :: reads) = some (sent.toList, true) := by
    simp only [startInteractive, List.headD_cons, hturn, Option.bind_eq_bind, Option.bind_some]
    rfl
  constructor
  · rintro ⟨n, frames, h, hP⟩
    cases n with
    | zero => cases h
    | succ n =>
      rw [hlast] at h
      cases h
      exact hP
  · exact fun hP => ⟨1, _, hlast 0, hP⟩

lemma startInteractive_overrun (hturn : waitNextCommand (stack k) got (some (reply k)) = none) (n : ℕ) :
    startInteractive stack reply n k (got :: reads) ≠ some (frames, true) := by
  intro h
  cases n with
  | zero => cases h
  | succ n =>
    simp only [startInteractive, List.headD_cons, hturn, Option.bind_eq_bind, Option.bind_none] at h
    cases h

lemma startInteractive_iff (hreads : Reads reads) (hreply : Answered reply) :
    (∃ n frames, startInteractive stack reply n k reads = some (frames, true) ∧ commands frames = cmds) ↔
      Serves reads cmds := by
  induction reads generalizing k cmds with
  | nil =>
    constructor
    · rintro ⟨n, frames, h, -⟩
      rw [startInteractive_nil] at h
      cases h
    · intro h
      cases h
  | cons got reads ih =>
    obtain ⟨-, hgot⟩ := hreads got List.mem_cons_self
    have hrest : Reads reads := fun r hr => hreads r (List.mem_cons_of_mem got hr)
    cases hempty : cmdIsEmpty (firstLine got) with
    | true =>
      have hturn : waitNextCommand (stack k) got (some (reply k)) = some (none, 0) :=
        waitNextCommand_blank hgot hempty
      rw [serves_blank hempty, ← ih hrest]
      exact startInteractive_next (fun frames => commands frames = cmds) hturn
    | false =>
      by_cases hroom : got.length + headerSize ≤ maxCmdLen
      · obtain ⟨body, hbody, hturn⟩ :=
          @waitNextCommand_sent (stack k) got (reply k) hgot hempty hroom (hreply k).2
        have hlt := lt_maxCmdLen hgot
        by_cases hquit : firstLine got = ascii "quit"
        · rw [if_pos hquit] at hturn
          rw [startInteractive_last _ hturn, Option.toList_some, commands_sent hlt, if_pos hquit,
            serves_quit hquit hroom, eq_comm]
          rfl
        · rw [if_neg hquit] at hturn
          rw [startInteractive_next _ hturn, serves_command hempty hquit hroom]
          simp only [Option.toList_some, List.singleton_append, commands_sent hlt, if_neg hquit, hbody]
          constructor
          · rintro ⟨n, frames, h, rfl⟩
            exact ⟨_, rfl, (ih hrest).mp ⟨n, frames, h, rfl⟩⟩
          · rintro ⟨cmds', rfl, h⟩
            obtain ⟨n, frames, h, rfl⟩ := (ih hrest).mpr h
            exact ⟨n, frames, h, rfl⟩
      · have hturn : waitNextCommand (stack k) got (some (reply k)) = none :=
          waitNextCommand_overrun hgot hempty (Nat.lt_of_not_le hroom)
        refine iff_of_false ?_ (not_serves_long hempty hroom)
        rintro ⟨n, frames, h, -⟩
        exact startInteractive_overrun hturn n h

end Loop

/-- A read whose first line is `quit` comes, it and the ones with something in their first lines before
it leave room for the header, and these first lines are the lines that are wanted. -/
def LineByLine (reads : List Bytes) : Prop :=
  ∃ before got after, reads = before ++ got :: after ∧ firstLine got = ascii "quit" ∧
    (∀ r ∈ before, firstLine r ≠ ascii "quit") ∧
    (∀ r ∈ before ++ [got], cmdIsEmpty (firstLine r) = true ∨ r.length + headerSize ≤ maxCmdLen) ∧
    (before.map firstLine).filter (fun line => !cmdIsEmpty line) = wanted reads.flatten

section LineByLine

variable {reads cmds : List Bytes}

lemma serves_iff : Serves reads cmds ↔ ∃ before got after, reads = before ++ got :: after ∧
    firstLine got = ascii "quit" ∧ (∀ r ∈ before, firstLine r ≠ ascii "quit") ∧
    (∀ r ∈ before ++ [got], cmdIsEmpty (firstLine r) = true ∨ r.length + headerSize ≤ maxCmdLen) ∧
    (before.map firstLine).filter (fun line => !cmdIsEmpty line) = cmds := by
  constructor
  · intro h
    induction h with
    | quit reads htext hroom => exact ⟨[], _, reads, rfl, htext, by simp, by simp [hroom], rfl⟩
    | @blank got reads cmds hempty _ ih =>
      obtain ⟨before, last, after, rfl, hlast, hbefore, hrooms, rfl⟩ := ih
      refine ⟨got :: before, last, after, rfl, hlast, ?_, ?_, ?_⟩
      · exact List.forall_mem_cons.mpr ⟨not_empty_quit hempty, hbefore⟩
      · exact List.forall_mem_cons.mpr ⟨Or.inl hempty, hrooms⟩
      · rw [List.map_cons, List.filter_cons_of_neg (by rw [hempty]; decide)]
    | @command got reads cmds hempty htext hroom _ ih =>
      obtain ⟨before, last, after, rfl, hlast, hbefore, hrooms, rfl⟩ := ih
      refine ⟨got :: before, last, after, rfl, hlast, ?_, ?_, ?_⟩
      · exact List.forall_mem_cons.mpr ⟨htext, hbefore⟩
      · exact List.forall_mem_cons.mpr ⟨Or.inr hroom, hrooms⟩
      · rw [List.map_cons, List.filter_cons_of_pos (by rw [hempty]; rfl)]
  · rintro ⟨before, got, after, rfl, hgot, hbefore, hrooms, rfl⟩
    induction before with
    | nil =>
      have hroom := (hrooms got List.mem_cons_self).resolve_left fun hempty => not_empty_quit hempty hgot
      exact .quit after hgot hroom
    | cons r before ih =>
      obtain ⟨htext, hbefore⟩ := List.forall_mem_cons.mp hbefore
      obtain ⟨hroom, hrooms⟩ := List.forall_mem_cons.mp hrooms
      have hrest := ih hbefore hrooms
      cases hempty : cmdIsEmpty (firstLine r) with
      | true =>
        rw [List.map_cons, List.filter_cons_of_neg (by rw [hempty]; decide)]
        exact .blank hempty hrest
      | false =>
        rw [List.map_cons, List.filter_cons_of_pos (by rw [hempty]; rfl)]
        refine .command hempty htext (hroom.resolve_left ?_) hrest
        rw [hempty]
        exact Bool.false_ne_true

lemma served_iff_serves {stack : ℕ → CmdBuf} {reply : ℕ → Bytes} (hreads : Reads reads)
    (hreply : Answered reply) : Served stack reply reads ↔ Serves reads (wanted reads.flatten) :=
  startInteractive_iff hreads hreply

lemma firstLine_line {line : Bytes} (hnul : 0 ∉ line) (hnl : 10 ∉ line) : firstLine (line ++ [10]) = line := by
  have hboth : 0 ∉ line ++ [10] := by
    rw [List.mem_append, not_or]
    exact ⟨hnul, by decide⟩
  rw [firstLine, cstring_eq hboth, takeWhile_mark hnl]

lemma lineByLine_of_lines {lines : List Bytes} (after : List Bytes)
    (h : ∀ line ∈ lines, 0 ∉ line ∧ 10 ∉ line ∧ line ≠ ascii "quit" ∧
      (line ++ [10]).length + headerSize ≤ maxCmdLen) :
    LineByLine (lines.map (fun line => line ++ [10]) ++ (ascii "quit" ++ [10]) :: after) := by
  have hfirst : (lines.map fun line => line ++ [10]).map firstLine = lines := by
    rw [List.map_map]
    refine (List.map_congr_left fun line hline => ?_).trans (List.map_id lines)
    obtain ⟨hnul, hnl, -⟩ := h line hline
    exact firstLine_line hnul hnl
  refine ⟨lines.map fun line => line ++ [10], ascii "quit" ++ [10], after, rfl, by decide, ?_, ?_, ?_⟩
  · intro r hr
    obtain ⟨line, hline, rfl⟩ := List.mem_map.mp hr
    obtain ⟨hnul, hnl, hquit, -⟩ := h line hline
    rwa [firstLine_line hnul hnl]
  · intro r hr
    right
    rcases List.mem_append.mp hr with hr | hr
    · obtain ⟨line, hline, rfl⟩ := List.mem_map.mp hr
      exact (h line hline).2.2.2
    · rw [List.mem_singleton.mp hr]
      decide
  · have hstream : (lines.map (fun line => line ++ [10]) ++ (ascii "quit" ++ [10]) :: after).flatten =
        (lines.flatMap fun line => line ++ [10]) ++ (ascii "quit" ++ 10 :: after.flatten) := by
      simp [List.flatMap]
    have hnl : ∀ line ∈ lines, 10 ∉ line := fun line hline => (h line hline).2.1
    rw [hfirst, wanted, hstream, splitOn_ended_append hnl,
      List.splitOn_append_cons_self_of_not_mem (by decide),
      List.dropLast_append_of_ne_nil (List.cons_ne_nil _ _), List.dropLast_cons_of_ne_nil (List.splitOn_ne_nil _ _),
      List.takeWhile_append_of_pos, List.takeWhile_cons_of_neg (by decide), List.append_nil]
    intro line hline
    simpa using (h line hline).2.2.1

end LineByLine

theorem served_iff_lineByLine {stack : ℕ → CmdBuf} {reply : ℕ → Bytes} {reads : List Bytes}
    (hreads : Reads reads) (hreply : Answered reply) : Served stack reply reads ↔ LineByLine reads := by
  rw [served_iff_serves hreads hreply, serves_iff, LineByLine]

lemma answered_ok : Answered fun _ => ascii "OK" := by
  have hok : 0 < (ascii "OK").length ∧ (ascii "OK").length ≤ maxCmdLen - 1 := by decide
  exact fun _ => hok

theorem served_iff_lineByLine_typed : Served (fun _ => Buffer.fill maxCmdLen 0) (fun _ => ascii "OK")
    [ascii "restart ts_bot\n", ascii "quit\n"] := by
  have hreads : Reads [ascii "restart ts_bot\n", ascii "quit\n"] := by
    intro got hgot
    rcases List.mem_cons.mp hgot with rfl | hgot
    · decide
    · rw [List.mem_singleton.mp hgot]
      decide
  exact (served_iff_lineByLine hreads answered_ok).mpr ⟨[ascii "restart ts_bot\n"], ascii "quit\n", [],
    rfl, by decide, by decide, by decide, by decide⟩

theorem eof_unending : ¬ ∀ (stack : ℕ → CmdBuf) (reply : ℕ → Bytes) (reads : List Bytes), Reads reads →
    Answered reply → Served stack reply reads := by
  intro h
  have hreads : Reads [ascii "restart ts_bot\n"] := by
    intro got hgot
    rw [List.mem_singleton.mp hgot]
    decide
  have hserved := h (fun _ => Buffer.fill maxCmdLen 0) _ _ hreads answered_ok
  rw [served_iff_serves hreads answered_ok, serves_command (by decide) (by decide) (by decide)] at hserved
  obtain ⟨cmds', -, hrest⟩ := hserved
  cases hrest

end TeamspeakWebserver.Client
