import TeamspeakWebserver.Client.Interactive
import TeamspeakWebserver.Labelled.Runs
import TeamspeakWebserver.Manager.Replies
import TeamspeakWebserver.Manager.Turns

/-! Clients and the manager, each client on a connection of its own: `send_cmd` of `man/client.c`
on one side and `__process_session` of `man/session.c` on the other. -/

namespace TeamspeakWebserver.Client

open Buffers Sessions Session Text Manager Interruptible Rules

def mayAnswer (input reply : Bytes) : Bool :=
  match parseCommand input with
  | .none => reply = ascii "Unknown command."
  | .shutdown => reply = ascii "Shutting down..."
  | _ =>
    if space ∉ input then reply = ascii "No argument given."
    else reply = ascii "OK" ∨ reply = ascii "FAIL"

/-- A client reads its next command, is in the `read()` of `send_cmd`, or has ended. -/
inductive Talk where
  | idle
  | awaiting (cmd : Bytes)
  | closed
deriving DecidableEq

/-- The manager's end of a connection: not accepted yet, a session, or closed. -/
inductive Peer where
  | backlog
  | serving (s : Session)
  | gone
deriving DecidableEq

/-- `up` and `down` are the bytes in the socket that have been written and not read, `sent` the
commands written, `served` the commands that `manager_process_input` has had, with its answers, and
`shown` what the client has printed for which command. -/
structure Connection where
  talk : Talk
  up : Bytes
  peer : Peer
  down : Bytes
  sent : List Bytes
  served : List (Bytes × Bytes)
  shown : List (Bytes × Bytes)

inductive Move where
  | send (buf : CmdBuf) (bytes : ℕ)
  | accept (fd : Int)
  | read (cut : ℕ) (stale reply : Bytes)
  | receive (cut : ℕ)
  | hangup

namespace Connection

variable (c : Connection)

def fresh : Connection := ⟨.idle, [], .backlog, [], [], [], []⟩

/-- `send_cmd` up to its `write()`. A client that has lost its manager ends: the write fails and the
`read()` behind it finds the end. -/
def send (buf : CmdBuf) (bytes : ℕ) : Option Connection := do
  let text ← buf.string
  let (sent, _) ← sendCmd buf bytes none
  match sent with
  | none => return c
  | some frame =>
    if c.peer = .gone then return { c with talk := .closed }
    if frame.take headerSize = htonl (2 ^ 32 - 1) then
      return { c with talk := .closed, up := c.up ++ frame }
    return { c with talk := .awaiting text, up := c.up ++ frame, sent := c.sent ++ [text] }

/-- A session whose input has come to its end finds that out. -/
def read (s : Session) (cut : ℕ) (stale reply : Bytes) : Option Connection :=
  if c.up = [] ∧ c.talk ≠ .closed then none
  else
    let m := readSize cut s.request c.up.length
    let got := if c.up = [] then none else some (c.up.take m)
    match s.onRead ⟨got, stale⟩ with
    | (_, .close) => some { c with peer := .gone }
    | (s', .command input) =>
      if mayAnswer input reply then
        some { c with
          peer := .serving s', up := c.up.drop m, down := c.down ++ reply,
          served := c.served ++ [(input, reply)] }
      else none
    | (s', _) => some { c with peer := .serving s', up := c.up.drop m }

/-- The `read()` of `send_cmd`: without a manager it gets nothing, and the client ends. -/
def receive (cmd : Bytes) (cut : ℕ) : Option Connection :=
  let m := readSize cut (maxCmdLen - 1) c.down.length
  if c.down = [] then
    if c.peer = .gone then some { c with talk := .closed } else none
  else some { c with
    talk := .idle, down := c.down.drop m, shown := c.shown ++ [(cmd, c.down.take m)] }

def step : Move → Option Connection
  | .send buf bytes => if c.talk = .idle then c.send buf bytes else none
  | .accept fd =>
    if c.peer = .backlog then some { c with peer := .serving (newSession fd) } else none
  | .read cut stale reply =>
    match c.peer with
    | .serving s => c.read s cut stale reply
    | _ => none
  | .receive cut =>
    match c.talk with
    | .awaiting cmd => c.receive cmd cut
    | _ => none
  | .hangup => some { c with talk := .closed }

/-- The front ends hand over a command with room for the header (`fits_of_accepted`), a header is read
whole, as it is written, and so is a reply. The reads of a body may be cut anywhere. -/
def ok : Move → Bool
  | .send buf bytes =>
    (buf.string.getD []).length ≤ bytes && bytes + headerSize ≤ maxCmdLen
  | .read cut stale _ =>
    match c.peer with
    | .serving s => stale.length = headerSize && (s.cmdLen ≠ 0 || headerSize ≤ cut)
    | _ => true
  | .receive cut => c.down.length ≤ cut
  | _ => true

end Connection

/-- `log` is what the manager has been given, in the order in which it was. -/
structure System (κ : Type*) where
  conn : κ → Connection
  log : List (κ × Bytes × Bytes)

/-- Beside the moves on a connection, the manager may end at any time. -/
inductive Event (κ : Type*) where
  | on (i : κ) (m : Move)
  | exit

namespace System

variable {κ : Type*} [DecidableEq κ]

def initial : System κ := ⟨fun _ => .fresh, []⟩

def put (σ : System κ) (i : κ) (c : Connection) : System κ :=
  ⟨Function.update σ.conn i c,
    σ.log ++ (c.served.drop (σ.conn i).served.length).map fun p => (i, p)⟩

def step (σ : System κ) : Event κ → Option (System κ)
  | .on i m => ((σ.conn i).step m).map (σ.put i)
  | .exit => some { σ with conn := fun i => { σ.conn i with peer := .gone } }

def ok (σ : System κ) : Event κ → Bool
  | .on i m => (σ.conn i).ok m
  | .exit => true

end System

section Frames

variable {input reply : Bytes}

lemma valid_answer (input : Bytes) :
    turnRules.Valid anything (managerProcessInput input) fun reply _ => mayAnswer input reply = true := by
  have hnone : turnRules.Holds none anything := (Resists.const True).holds fun _ _ => trivial
  have hvalid (p : Code Int) : turnRules.Valid anything p fun _ => anything :=
    .of_uses hnone ((uses_any p).mono fun op _ =>
      (Resists.const True).atomic (fun _ _ => trivial) fun _ _ _ _ _ _ _ => trivial)
  have hmods {cmd : ManagerCmds} (hc : parseCommand input = cmd) (hn : cmd.onMods = true) :
      turnRules.Valid anything (do
        if space ∉ input then return ascii "No argument given."
        let errv ← runArguments cmd (arguments input) 1
        return if errv = 0 then ascii "OK" else ascii "FAIL") fun reply _ =>
          mayAnswer input reply = true := by
    have hanswer (reply : Bytes) : mayAnswer input reply =
        if space ∉ input then decide (reply = ascii "No argument given.")
        else decide (reply = ascii "OK" ∨ reply = ascii "FAIL") := by
      rw [mayAnswer, hc]
      cases cmd <;> first | rfl | cases hn
    simp only [hanswer]
    split
    · exact .ret fun _ _ => decide_eq_true rfl
    · refine (hvalid _).bind fun errv => .ret fun _ _ => decide_eq_true ?_
      split
      · exact Or.inl rfl
      · exact Or.inr rfl
  rw [managerProcessInput]
  cases hc : parseCommand input with
  | none => exact .ret fun _ _ => by rw [mayAnswer, hc]; rfl
  | shutdown =>
    refine (hvalid (do stmt (.setStatus .stopped); return 0)).bind fun _ => .ret fun _ _ => ?_
    rw [mayAnswer, hc]
    rfl
  | restartMod => exact hmods hc rfl
  | disableMod => exact hmods hc rfl
  | enableMod => exact hmods hc rfl

lemma mayAnswer_of_reaches {s s' : State}
    (h : machine.Reaches (fun _ _ _ => True) ⟨managerProcessInput input, s⟩ ⟨.ret reply, s'⟩) :
    mayAnswer input reply = true :=
  (valid_answer input).answers
    (fun _ => (Resists.const _).holds fun _ _ => trivial) (s := s) trivial h

lemma mayAnswer_bounds (h : mayAnswer input reply = true) :
    reply ≠ [] ∧ reply.length ≤ maxCmdLen - 1 := by
  have hreply : reply ∈ [ascii "Unknown command.", ascii "Shutting down...",
      ascii "No argument given.", ascii "OK", ascii "FAIL"] := by
    simp only [List.mem_cons, List.not_mem_nil, or_false]
    unfold mayAnswer at h
    split at h
    · exact Or.inl (of_decide_eq_true h)
    · exact Or.inr (Or.inl (of_decide_eq_true h))
    · split at h
      · exact Or.inr (Or.inr (Or.inl (of_decide_eq_true h)))
      · exact Or.inr (Or.inr (Or.inr (of_decide_eq_true h)))
  have hall : ∀ r ∈ [ascii "Unknown command.", ascii "Shutting down...",
      ascii "No argument given.", ascii "OK", ascii "FAIL"], r ≠ [] ∧ r.length ≤ maxCmdLen - 1 := by
    decide
  exact hall reply hreply

lemma cstring_take {b : Bytes} {n : ℕ} (h : (cstring b).length ≤ n) : cstring (b.take n) = cstring b := by
  induction b generalizing n with
  | nil => rw [List.take_nil]
  | cons a b ih =>
    by_cases ha : a = 0
    · subst ha
      cases n <;> rfl
    · have hcons (t : Bytes) : cstring (a :: t) = a :: cstring t :=
        List.takeWhile_cons_of_pos (decide_eq_true ha)
      cases n with
      | zero =>
        rw [hcons] at h
        exact absurd h (Nat.not_succ_le_zero _)
      | succ n =>
        rw [hcons, List.length_cons] at h
        rw [List.take_succ_cons, hcons, hcons, ih (Nat.le_of_succ_le_succ h)]

lemma sendCmd_body {buf : CmdBuf} {text : Bytes} {bytes : ℕ} (htext : buf.string = some text)
    (hempty : cmdIsEmpty text = false) (hlen : text.length ≤ bytes) (hroom : bytes + headerSize ≤ maxCmdLen) :
    ∃ body ret, sendCmd buf bytes none = some (some (serialBytes text body.length ++ body), ret) ∧
      cstring body = text ∧ 0 < body.length ∧ body.length < maxCmdLen := by
  have hbytes : (buf.cells.take bytes).length = bytes := by
    rw [List.length_take, buf.length_cells]
    omega
  have hcells : text = cstring buf.cells := by
    rw [Buffer.string] at htext
    split at htext
    · exact (Option.some.inj htext).symm
    · cases htext
  obtain ⟨ret, hsent⟩ : ∃ ret, sendCmd buf bytes none =
      some (some (serialBytes text bytes ++ buf.cells.take bytes), ret) :=
    ⟨_, sendCmd_sent htext hempty hroom (fun _ h => by cases h)⟩
  refine ⟨buf.cells.take bytes, ret, ?_, ?_, ?_, ?_⟩
  · rw [hbytes, hsent]
  · rw [hcells] at hlen
    rw [hcells, cstring_take hlen]
  · rw [hbytes]
    cases text with
    | nil => cases hempty
    | cons a t => exact Nat.lt_of_lt_of_le (Nat.succ_pos _) hlen
  · rw [hbytes]
    have hheader : headerSize = 4 := rfl
    omega

end Frames

namespace Connection

section Reads

variable {c c' : Connection} {fd : Int} {br cut : ℕ} {stale reply : Bytes}

lemma read_end (hup : c.up = []) (h : c.read (waiting fd br) cut stale reply = some c') :
    c.talk = .closed ∧ c' = { c with peer := .gone } := by
  rw [read] at h
  split at h
  · cases h
  · next hn =>
    have htalk : c.talk = .closed := by
      by_contra ht
      exact hn ⟨hup, ht⟩
    have hread : (waiting fd br).onRead ⟨none, stale⟩ = (waiting fd br, .close) := rfl
    simp only [hread] at h
    exact ⟨htalk, (Option.some.inj h).symm⟩

lemma read_header {v : ℕ} {rest : Bytes} (hup : c.up = htonl v ++ rest) (hv : v < 2 ^ 32)
    (hstale : stale.length = headerSize) (hcut : headerSize ≤ cut) : c.read (waiting fd br) cut stale reply =
      if v = 2 ^ 32 - 1 ∨ maxCmdLen ≤ v then some { c with peer := .gone }
      else some { c with peer := .serving ⟨fd, v, 0, []⟩, up := rest } := by
  have hlen : (htonl v).length = headerSize := length_htonl v
  have hne : c.up ≠ [] := by
    rw [hup]
    exact List.cons_ne_nil _ _
  have hm : readSize cut (waiting fd br).request c.up.length = headerSize := by
    have hr : (waiting fd br).request = headerSize := rfl
    have hheader : headerSize = 4 := rfl
    rw [hr, hup, List.length_append, hlen, readSize]
    omega
  have htake : c.up.take headerSize = htonl v := by rw [hup, ← hlen, List.take_left]
  have hdrop : c.up.drop headerSize = rest := by rw [hup, ← hlen, List.drop_left]
  have hn : ntohl (htonl v ++ stale.drop (htonl v).length) = v := by
    rw [hlen, ← hstale, List.drop_length, List.append_nil, ntohl_htonl hv]
  rw [read, if_neg fun h => hne h.1]
  simp only [hm, if_neg hne, htake, hdrop, onRead_waiting fd br hn]
  by_cases hbad : v = 2 ^ 32 - 1 ∨ maxCmdLen ≤ v
  · simp only [if_pos hbad]
  · simp only [if_neg hbad]
    by_cases hzero : v = 0
    · simp only [if_pos hzero]
    · simp only [if_neg hzero]

/-- No read of a body goes beyond it, as nothing is behind it. -/
lemma read_body {b rest : Bytes} (hrest : rest ≠ []) (hup : c.up = rest) {len : ℕ}
    (hlen : len = b.length + rest.length) : ∃ m, 0 < m ∧ m ≤ rest.length ∧
      c.read (reading fd len b) cut stale reply =
        if m = rest.length then
          if mayAnswer (cstring (b ++ rest)) reply then
            some { c with
              peer := .serving (waiting fd len), up := [], down := c.down ++ reply,
              served := c.served ++ [(cstring (b ++ rest), reply)] }
          else none
        else some { c with
          peer := .serving (reading fd len (b ++ rest.take m)), up := rest.drop m } := by
  have hpos : 0 < rest.length := List.length_pos_iff.mpr hrest
  have hne : c.up ≠ [] := by rwa [hup]
  have hreq : (reading fd len b).request = bodyRequest := if_neg (show len ≠ 0 by omega)
  obtain ⟨-, hle⟩ := readSize_le cut (by decide : 0 < bodyRequest) hpos
  refine ⟨readSize cut bodyRequest rest.length, readSize_pos _ _ _, hle, ?_⟩
  have htake : (rest.take (readSize cut bodyRequest rest.length)).length =
      readSize cut bodyRequest rest.length := by rw [List.length_take, Nat.min_eq_left hle]
  rw [read, if_neg fun h => hne h.1]
  simp only [hreq, if_neg hrest, hup, onRead_reading fd (by omega : 0 < len), htake]
  by_cases hm : readSize cut bodyRequest rest.length = rest.length
  · have hall : rest.take (readSize cut bodyRequest rest.length) = rest := by rw [hm, List.take_length]
    have hnone : rest.drop (readSize cut bodyRequest rest.length) = [] := by rw [hm, List.drop_length]
    simp only [if_pos hm, if_pos (show b.length + readSize cut bodyRequest rest.length = len by omega),
      hall, hnone]
  · simp only [if_neg hm, if_neg (show b.length + readSize cut bodyRequest rest.length ≠ len by omega)]

end Reads

end Connection

end TeamspeakWebserver.Client
