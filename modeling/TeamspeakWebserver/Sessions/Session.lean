import TeamspeakWebserver.Text.Bytes

/-! `man/session.c`: what one `read()` on the socket of a session does to the session. -/

namespace TeamspeakWebserver.Sessions

def maxCmdLen : ℕ := 4096

def ntohl : Bytes → ℕ
  | [a, b, c, d] => a.toNat * 2 ^ 24 + b.toNat * 2 ^ 16 + c.toNat * 2 ^ 8 + d.toNat
  | _ => 0

def htonl (n : ℕ) : Bytes :=
  [(n / 2 ^ 24).toUInt8, (n / 2 ^ 16).toUInt8, (n / 2 ^ 8).toUInt8, n.toUInt8]

/-- `struct session`. The list `buf` holds the bytes stored from `buf` up to `buf_tail`, so its
length is the offset `buf_tail - buf`; the rest of the array is never read. -/
structure Session where
  commFd : Int
  cmdLen : ℕ
  bytesRead : ℕ
  buf : Bytes
deriving DecidableEq

/-- The fields `__start_new_session` sets; `bytes_read` is written before it is first read. -/
def newSession (commFd : Int) : Session := ⟨commFd, 0, 0, []⟩

/-- What one `read()` finds: its bytes, `none` where it returns zero or less, and the four bytes
the uninitialised local `len` held before. -/
structure Read where
  got : Option Bytes
  stale : Bytes
deriving DecidableEq

inductive Outcome where
  | close
  | wait
  | body
  | command (input : Bytes)
deriving DecidableEq

namespace Session

def headerSize : ℕ := 4

def bodyRequest : ℕ := maxCmdLen - headerSize - 1

def request (s : Session) : ℕ := if s.cmdLen = 0 then headerSize else bodyRequest

def readHeader (s : Session) (r : Read) : Session × Outcome :=
  match r.got with
  | none => (s, .close)
  | some got =>
    let cmdLen := ntohl (got ++ r.stale.drop got.length)
    if cmdLen = 2 ^ 32 - 1 ∨ maxCmdLen ≤ cmdLen then ({ s with cmdLen }, .close)
    else ({ s with cmdLen, bytesRead := 0 }, if cmdLen = 0 then .wait else .body)

def processCommand (s : Session) : Session × Outcome :=
  ({ s with cmdLen := 0, buf := [] }, .command (cstring s.buf))

def store (s : Session) (got : Bytes) : Session :=
  { s with buf := s.buf ++ got, bytesRead := s.bytesRead + got.length }

def readBody (s : Session) (r : Read) : Session × Outcome :=
  match r.got with
  | none => (s, .close)
  | some got =>
    let s := s.store got
    if s.bytesRead = s.cmdLen then s.processCommand else (s, .wait)

def onRead (s : Session) (r : Read) : Session × Outcome :=
  if s.cmdLen = 0 then s.readHeader r else s.readBody r

lemma onRead_commFd (s : Session) (r : Read) : (s.onRead r).1.commFd = s.commFd := by
  unfold onRead readHeader readBody processCommand store
  split <;> split <;> first | rfl | (dsimp only; split <;> rfl)

end Session

def waiting (fd : Int) (bytesRead : ℕ) : Session := ⟨fd, 0, bytesRead, []⟩

def reading (fd : Int) (len : ℕ) (b : Bytes) : Session := ⟨fd, len, b.length, b⟩

lemma onRead_waiting (fd : Int) (br : ℕ) {got stale : Bytes} {v : ℕ}
    (hv : ntohl (got ++ stale.drop got.length) = v) :
    (waiting fd br).onRead ⟨some got, stale⟩ =
      if v = 2 ^ 32 - 1 ∨ maxCmdLen ≤ v then (⟨fd, v, br, []⟩, .close)
      else (⟨fd, v, 0, []⟩, if v = 0 then .wait else .body) := by
  simp only [Session.onRead, waiting, if_true, Session.readHeader, hv]

lemma onRead_reading (fd : Int) {len : ℕ} (hl : 0 < len) (b got stale : Bytes) :
    (reading fd len b).onRead ⟨some got, stale⟩ =
      if b.length + got.length = len then (waiting fd len, .command (cstring (b ++ got)))
      else (reading fd len (b ++ got), .wait) := by
  have hn : (reading fd len b).cmdLen ≠ 0 := Nat.pos_iff_ne_zero.mp hl
  have hb : (reading fd len b).store got = ⟨fd, len, b.length + got.length, b ++ got⟩ := rfl
  rw [Session.onRead, if_neg hn]
  by_cases he : b.length + got.length = len
  · rw [if_pos he]
    simp only [Session.readBody, hb, he, if_true, Session.processCommand, waiting]
  · have hr : reading fd len (b ++ got) = ⟨fd, len, b.length + got.length, b ++ got⟩ := by
      rw [reading, List.length_append]
    rw [if_neg he, hr]
    simp only [Session.readBody, hb, he, if_false]

end TeamspeakWebserver.Sessions
