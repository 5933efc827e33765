import TeamspeakWebserver.Ltc.Lines

/-! From a directory of logs to a table of clients. The order in which the files are taken is that
of their creation times; where two of these are equal, it is any such order. -/

namespace TeamspeakWebserver.Ltc

open Text

structure LogFile where
  name : Bytes
  lines : List Bytes
deriving DecidableEq

def LogFile.isLog (dir : Bytes) (file : LogFile) : Bool :=
  (find (ascii "_1.log") (dir ++ ascii "/" ++ file.name)).isSome

def Sorted (logs order : List (ℤ × LogFile)) : Prop :=
  order.Perm logs ∧ order.Pairwise fun f g => f.1 ≤ g.1

def noClients : ClientMap ℤ := fun _ => none

namespace Rust

def fileFormat : Bytes := ascii "%Y-%m-%d__%H_%M_%S"

section

variable (parseFromStr : Bytes → Bytes → Option ℤ)

def creationTime (file : LogFile) : Option ℤ :=
  (slice file.name 10 30).bind fun time => parseFromStr time fileFormat

def compileLogs (dir : Bytes) (entries : List LogFile) : Option (List (ℤ × LogFile)) :=
  (entries.filter (LogFile.isLog dir)).mapM fun file =>
    (creationTime parseFromStr file).map fun time => (time, file)

def parseFile (db : ClientMap ℤ) (file : LogFile) : Option (ClientMap ℤ) :=
  file.lines.foldlM (processLine parseFromStr) db

def parseFileList (logs : List (ℤ × LogFile)) (db : ClientMap ℤ) : Option (ClientMap ℤ) :=
  logs.foldlM (fun db log => (parseFile parseFromStr db log.2).map clearClients) db

def Computes (dir : Bytes) (entries : List LogFile) (map : ClientMap ℤ) : Prop :=
  ∃ logs order, compileLogs parseFromStr dir entries = some logs ∧ Sorted logs order ∧
    parseFileList parseFromStr order noClients = some map

end

end Rust

namespace Cpp

def fileFormat : Bytes := ascii "ts3server_%Y-%m-%d__%H_%M_%S"

section

variable (strptime : Bytes → Bytes → Option Tm)

/-- `none` stands for `exit(1)`. -/
def creationTime (file : LogFile) : Option ℤ :=
  let time := strToTime (strptime (cstring file.name) fileFormat)
  if time < 0 then none else some time

def compileLogs (dir : Bytes) (entries : List LogFile) : Option (List (ℤ × LogFile)) :=
  (entries.filter (LogFile.isLog dir)).mapM fun file =>
    (creationTime strptime file).map fun time => (time, file)

def parseFile (timeConstraint : ℤ) (db : ClientMap ℤ) (file : LogFile) : ClientMap ℤ :=
  file.lines.foldl (processActionOnLine strptime timeConstraint) db

def parseFiles (timeConstraint : ℤ) (logs : List (ℤ × LogFile)) (db : ClientMap ℤ) : ClientMap ℤ :=
  logs.foldl (fun db log => resetClients (parseFile strptime timeConstraint db log.2)) db

/-- The program, run without the option `-d` as the webserver does, can end with this table. -/
def Computes (dir : Bytes) (entries : List LogFile) (map : ClientMap ℤ) : Prop :=
  ∃ logs order, compileLogs strptime dir entries = some logs ∧ Sorted logs order ∧
    parseFiles strptime 0 order noClients = map

end

end Cpp

def Client.shown (client : Client ℤ) : ℤ × Bytes := (client.totalTimeConnected, client.name)

def Agree (parseFromStr : Bytes → Bytes → Option ℤ) (strptime : Bytes → Bytes → Option Tm)
    (dir : Bytes) (entries : List LogFile) : Prop :=
  (∃ map, Rust.Computes parseFromStr dir entries map) ∧
    (∃ map, Cpp.Computes strptime dir entries map) ∧
      ∀ rust cpp, Rust.Computes parseFromStr dir entries rust →
        Cpp.Computes strptime dir entries cpp →
          ∀ id, (rust id).map Client.shown = (cpp id).map Client.shown

end TeamspeakWebserver.Ltc
