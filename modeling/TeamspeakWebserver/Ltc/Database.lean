import TeamspeakWebserver.Occupancy.Periods
import TeamspeakWebserver.Text.Bytes

/-! The tables of `src/ltc/src/main.rs` and `src/ltc/old_ltc/ltc.cpp`, and the busy periods of the
events they are made from. Times are elements of any group, so `i64` and `time_t` may be read with
or without the wrapping of their additions. -/

namespace TeamspeakWebserver.Ltc

/-- The fields of `struct Client` in `main.rs`, which `class Client` in `ltc.cpp` has too. -/
structure Client (τ : Type*) where
  name : Bytes
  lastTimeConnected : τ
  totalTimeConnected : τ
  numConn : UInt32
deriving DecidableEq

abbrev ClientMap (τ : Type*) := UInt32 → Option (Client τ)

variable {τ : Type*} [AddCommGroup τ] [DecidableEq τ]

def ClientMap.insert (map : ClientMap τ) (id : UInt32) (client : Client τ) : ClientMap τ :=
  Function.update map id (some client)

/-! `ClientDatabase` of `main.rs` -/

namespace Rust

def logConnect (map : ClientMap τ) (id : UInt32) (name : Bytes) (time : τ) : ClientMap τ :=
  if id ≤ 1 then map else
    let client := (map id).getD
      { numConn := 0, lastTimeConnected := 0, totalTimeConnected := 0, name }
    let client := { client with numConn := client.numConn + 1 }
    if client.numConn = 1 then
      let client := { client with lastTimeConnected := time }
      map.insert id (if client.name ≠ name then { client with name } else client)
    else map.insert id client

def logDisconnect (map : ClientMap τ) (id : UInt32) (time : τ) : ClientMap τ :=
  if id ≤ 1 then map else
    match map id with
    | none => map
    | some client =>
      if client.numConn ≠ 0 then
        let client :=
          if client.numConn = 1 ∧ client.lastTimeConnected ≠ 0 then
            { client with
              totalTimeConnected := client.totalTimeConnected + (time - client.lastTimeConnected)
              lastTimeConnected := 0 }
          else client
        map.insert id { client with numConn := client.numConn - 1 }
      else map

def clearClients (map : ClientMap τ) : ClientMap τ := fun id =>
  (map id).map fun c => { c with numConn := 0, lastTimeConnected := 0 }

end Rust

/-! `Client` and `ClientDatabase` of `ltc.cpp` -/

namespace Cpp

def newClient (nickname : Bytes) (time : τ) : Client τ :=
  { lastTimeConnected := time, totalTimeConnected := 0, numConn := 1, name := nickname }

def clientLogConn (client : Client τ) (loggedName : Bytes) (t : τ) : Client τ :=
  let client := { client with numConn := client.numConn + 1 }
  if client.numConn = 1 then
    let client := { client with lastTimeConnected := t }
    if client.name ≠ loggedName then { client with name := loggedName } else client
  else client

def clientLogDisconn (client : Client τ) (t : τ) : Client τ :=
  if client.numConn ≠ 0 then
    let client :=
      if client.lastTimeConnected ≠ 0 ∧ client.numConn = 1 then
        { client with
          totalTimeConnected := client.totalTimeConnected + (t - client.lastTimeConnected)
          lastTimeConnected := 0 }
      else client
    { client with numConn := client.numConn - 1 }
  else client

def clientReset (client : Client τ) : Client τ :=
  { client with numConn := 0, lastTimeConnected := 0 }

def logConn (map : ClientMap τ) (name : Bytes) (id : UInt32) (t : τ) : ClientMap τ :=
  match map id with
  | some client => map.insert id (clientLogConn client name t)
  | none => map.insert id (newClient name t)

def logDisconn (map : ClientMap τ) (id : UInt32) (t : τ) : ClientMap τ :=
  match map id with
  | some client => map.insert id (clientLogDisconn client t)
  | none => map

def resetClients (map : ClientMap τ) : ClientMap τ := fun id => (map id).map clientReset

end Cpp

inductive Event (τ : Type*) where
  | connect (id : UInt32) (name : Bytes) (time : τ)
  | disconnect (id : UInt32) (time : τ)
  | reset
deriving DecidableEq

def Rust.apply (map : ClientMap τ) : Event τ → ClientMap τ
  | .connect id name time => logConnect map id name time
  | .disconnect id time => logDisconnect map id time
  | .reset => clearClients map

def Cpp.apply (map : ClientMap τ) : Event τ → ClientMap τ
  | .connect id name time => logConn map name id time
  | .disconnect id time => logDisconn map id time
  | .reset => resetClients map

def Rust.database (events : List (Event τ)) : ClientMap τ := events.foldl Rust.apply fun _ => none

def Cpp.database (events : List (Event τ)) : ClientMap τ := events.foldl Cpp.apply fun _ => none

end TeamspeakWebserver.Ltc
