import TeamspeakWebserver.Ltc.Calendar
import TeamspeakWebserver.Ltc.Database
import TeamspeakWebserver.Text.Search

/-! How `main.rs` and `ltc.cpp` read one line of a log. `parseFromStr` stands for the Unix time that
`NaiveDateTime::parse_from_str` of the crate chrono finds in a text, and `strptime` for the function
of the C library; their second argument is the format. -/

namespace TeamspeakWebserver.Ltc

open Text

inductive ClientAction where
  | connect
  | disconnect
deriving DecidableEq

def ClientAction.phrase : ClientAction → Bytes
  | connect => ascii "client connected"
  | disconnect => ascii "client disconnected"

def lineFormat : Bytes := ascii "%Y-%m-%d %H:%M:%S"

namespace Rust

/-- `str::parse::<u32>`, which allows a plus sign. -/
def parseU32 (s : Bytes) : Option UInt32 :=
  let ds := if s.head? = some 43 then s.tail else s
  if ds ≠ [] ∧ ds.all isDigit ∧ value ds < 2 ^ 32 then some (value ds).toUInt32 else none

/-! In the functions that follow `none` stands for a panic. -/

def getId (line : Bytes) : Option UInt32 :=
  (find (ascii "id:") line).bind fun start =>
    (slice line start line.length).bind fun id =>
      (find (ascii ")") id).bind fun idEnd => (slice id 3 idEnd).bind parseU32

def getClientName (name : Bytes) : Option Bytes :=
  (find (ascii "'") name).bind fun nameStart =>
    (find (ascii "'(") name).bind fun nameEnd => slice name (nameStart + 1) nameEnd

def readClient (line : Bytes) (action : ClientAction) :
    Option (Option (ClientAction × Bytes × UInt32)) :=
  (getClientName line).bind fun name => (getId line).map fun idx => some (action, name, idx)

def parseLine (line : Bytes) : Option (Option (ClientAction × Bytes × UInt32)) :=
  if (find ClientAction.connect.phrase line).isSome then readClient line .connect
  else if (find ClientAction.disconnect.phrase line).isSome then readClient line .disconnect
  else some none

def logAction (db : ClientMap ℤ) (time : ℤ) :
    Option (ClientAction × Bytes × UInt32) → ClientMap ℤ
  | some (.connect, name, id) => logConnect db id name time
  | some (.disconnect, _, id) => logDisconnect db id time
  | none => db

def processLine (parseFromStr : Bytes → Bytes → Option ℤ) (db : ClientMap ℤ) (line : Bytes) :
    Option (ClientMap ℤ) :=
  (slice line 0 19).bind fun head =>
    match parseFromStr head lineFormat with
    | none => some db
    | some time => (parseLine line).map (logAction db time)

end Rust

namespace Cpp

inductive FromChars where
  | invalid
  | outOfRange
  | parsed (n : ℤ)
deriving DecidableEq

def fromChars (s : Bytes) : FromChars :=
  let minus := s.head? = some 45
  let ds := (if minus then s.tail else s).takeWhile isDigit
  let n : ℤ := if minus then -value ds else value ds
  if ds = [] then .invalid else if -2 ^ 31 ≤ n ∧ n < 2 ^ 31 then .parsed n else .outOfRange

/-! In the functions that follow `none` stands for an exception. -/

/-- Where the quote is missing, `npos + 1` is 0. -/
def getName (line : Bytes) : Option Bytes :=
  let nameStart := (find (ascii "'") line).elim 0 (· + 1)
  (findFrom (ascii "'") line nameStart).map fun nameEnd =>
    (line.drop nameStart).take (nameEnd - nameStart)

/-- Where the parenthesis is missing, `npos + 4` is 3. A number that is no `int` leaves `id` alone. -/
def getId (line : Bytes) (id : ℤ) : Option ℤ :=
  let idStart := (find (ascii "(id:") line).elim 3 (· + 4)
  (findFrom (ascii ")") line idStart).bind fun idEnd =>
    match fromChars ((line.drop idStart).take (idEnd - idStart)) with
    | .invalid => none
    | .outOfRange => some id
    | .parsed n => some n

/-- The rest of `parse_line` behind a phrase found at `pos`. The view that is read ends at a byte 0,
and an exception makes the action `NO_ACTION`. -/
def readClient (line : Bytes) (action : ClientAction) (pos : ℕ) : Option (ClientAction × Bytes × ℤ) :=
  let view := cstring (line.drop (pos + action.phrase.length))
  (getName view).bind fun name => (getId view 0).map fun id => (action, name, id)

def parseLine (line : Bytes) : Option (ClientAction × Bytes × ℤ) :=
  match find ClientAction.connect.phrase line with
  | some pos => readClient line .connect pos
  | none => (find ClientAction.disconnect.phrase line).bind (readClient line .disconnect)

def logAction (db : ClientMap ℤ) (time : ℤ) (name : Bytes) (id : UInt32) :
    ClientAction → ClientMap ℤ
  | .connect => logConn db name id time
  | .disconnect => logDisconn db id time

def processActionOnLine (strptime : Bytes → Bytes → Option Tm) (timeConstraint : ℤ)
    (db : ClientMap ℤ) (line : Bytes) : ClientMap ℤ :=
  match parseLine line with
  | none => db
  | some (action, name, id) =>
    if id = 1 then db
    else if id ≤ 0 then db
    else
      let time := strToTime (strptime (cstring line) lineFormat)
      if time = -1 ∨ time < timeConstraint then db
      else logAction db time name id.toNat.toUInt32 action

end Cpp

end TeamspeakWebserver.Ltc
