import TeamspeakWebserver.Manager.Statements

/-! The functions of the manager, as programs over its statements. -/

namespace TeamspeakWebserver.Manager

open Interruptible Prog Sessions

abbrev Code := Prog Op.Res

abbrev stmt (op : Op) : Code op.Res := call op

def exit {α : Type} : Code α := .act .exit Empty.elim

/-! ### Modules -/

/-- The branch of the child, which runs in another process, is left out. -/
def doModuleInit (m : Mod) : Code Int := do
  if ← stmt (.isRunning m) then return -1
  match ← stmt (.pipe m) with
  | none => return -1
  | some (r, w) =>
    stmt (.setPipefd m r)
    let flags ← stmt .intrSave
    match ← stmt (.fork m flags) with
    | none =>
      stmt (.intrRestore flags)
      stmt (.setPipefd m (-1))
      stmt (.closeFd r)
      stmt (.closeFd w)
      return -1
    | some cpid =>
      stmt (.setState m .running)
      stmt (.setPid m cpid)
      stmt (.intrRestore flags)
      stmt (.closeFd w)
      stmt (.setModsDirty true)
      return 0

def endChild (m : Mod) : Code Unit := do
  if ← stmt (.isRunning m) then
    if (← stmt (.kill m false)) ≠ 0 then
      let _ ← stmt (.kill m true)
    stmt (.setState m .dead)
    stmt (.setPid m (-1))

def doModuleExit (m : Mod) : Code Unit := do
  if ← stmt (.isParked m) then return
  let flags ← stmt .intrSave
  endChild m
  stmt (.setModsDirty true)
  stmt (.intrRestore flags)
  stmt (.closePipefd m)
  stmt (.setPipefd m (-1))
  stmt (.setState m .exited)

def retry (m : Mod) : Code (Unit ⊕ Unit) := do
  doModuleExit m
  if (← stmt (.bumpFails m)) < maxFailForStop then
    if (← doModuleInit m) = 0 then return .inr ()
    stmt (.note (.relaunchFailed m))
    return .inl ()
  return .inr ()

/-- The body of the `for` of `__restart_mods`; it answers `false` where the function returns. -/
def restartMod (m : Mod) : Code Bool := do
  if ← stmt (.needsRestart m) then
    if ← stmt (.statusIs .starting) then
      stmt (.clearNeedsRestart m)
      return true
    if ← stmt (.statusIs .stopped) then return false
    stmt (.note (.retrying m))
    iterate (fun _ => retry m) ()
    stmt (.clearNeedsRestart m)
  return true

def restartEach : List Mod → Code Unit
  | [] => return
  | m :: ms => do if ← restartMod m then restartEach ms

def restartMods : Code Unit := do
  let flags ← stmt .intrSave
  restartEach mods
  stmt (.setModsDirty false)
  stmt (.intrRestore flags)

def doModuleRestart (m : Mod) : Code Int := do
  doModuleExit m
  doModuleInit m

/-! ### Commands -/

inductive ManagerCmds where
  | none
  | shutdown
  | restartMod
  | disableMod
  | enableMod
deriving DecidableEq

def parseCommand (input : Bytes) : ManagerCmds :=
  if (ascii "stop").isPrefixOf input then .shutdown
  else if (ascii "restart").isPrefixOf input then .restartMod
  else if (ascii "disable").isPrefixOf input then .disableMod
  else if (ascii "enable").isPrefixOf input then .enableMod
  else .none

def getMod (reqMod : Bytes) : Option Mod := mods.find? fun m => m.modName = reqMod

def space : UInt8 := 32

def arguments (input : Bytes) : List Bytes := (input.dropWhile (· ≠ space)).splitOn space

/-- The `switch` of `manager_process_input`; its `default` is not reached. -/
def runCommand (cmd : ManagerCmds) (m : Mod) (errv : Int) : Code Int :=
  match cmd with
  | .restartMod => do
    stmt (.note (.requested m))
    doModuleRestart m
  | .disableMod => do
    doModuleExit m
    stmt (.note (.disabled m))
    return 0
  | .enableMod => do
    stmt (.note (.requested m))
    doModuleInit m
  | .none | .shutdown => return errv

def runArguments (cmd : ManagerCmds) : List Bytes → Int → Code Int
  | [], errv => return errv
  | arg :: args, errv => match getMod arg with
    | none => runArguments cmd args errv
    | some m => do runArguments cmd args (← runCommand cmd m errv)

def managerProcessInput (input : Bytes) : Code Bytes := do
  match parseCommand input with
  | .none => return ascii "Unknown command."
  | .shutdown =>
    stmt (.setStatus .stopped)
    return ascii "Shutting down..."
  | cmd =>
    if space ∉ input then return ascii "No argument given."
    let errv ← runArguments cmd (arguments input) 1
    return if errv = 0 then ascii "OK" else ascii "FAIL"

/-! ### Sessions -/

def startNewSession : Code Unit := do
  if ← stmt .malloc then
    match ← stmt .accept with
    | none => return
    | some fd =>
      stmt (.linkSession fd)
      stmt .incSessions
      stmt (.setSessionsDirty true)

def closeSession (fd : Int) : Code Unit := do
  stmt (.closeComm fd)
  stmt (.unlinkSession fd)
  stmt .decSessions
  stmt (.setSessionsDirty true)

def afterRead (fd : Int) : Outcome → Code Unit
  | .close => closeSession fd
  | .command input => do
    let resp ← managerProcessInput input
    stmt (.write fd resp)
  | .wait | .body => return

def processSession (fd : Int) : Code Unit := do
  match ← stmt (.read fd) with
  | .body => afterRead fd (← stmt (.read fd))
  | o => afterRead fd o

/-! ### The main loop -/

def countPids : List Mod → ℕ → Code ℕ
  | [], len => return len
  | m :: ms, len => do countPids ms (if 0 < (← stmt (.getPid m)) then len + 1 else len)

def storeSessions (len : ℕ) : List Int → List Int → Code (List Int)
  | [], p => return p
  | fd :: fds, p => do
    stmt (.storePollfd len p.length fd)
    storeSessions len fds (p ++ [fd])

def storePipes (len : ℕ) : List Mod → List Int → Code (List Int)
  | [], p => return p
  | m :: ms, p => do
    let fd ← stmt (.getPipefd m)
    if 0 < fd then
      stmt (.storePollfd len p.length fd)
      storePipes len ms (p ++ [fd])
    else storePipes len ms p

def setupPollFds : Code (List Int × ℕ) := do
  let len ← countPids mods (1 + (← stmt .numSessions))
  if ← stmt (.calloc len) then
    let sock ← stmt .getListenSock
    stmt (.storePollfd len 0 sock)
    let p ← storeSessions len (← stmt .sessionFds) [sock]
    return (← storePipes len mods p, len)
  exit

def tryServiceModule (fd : Int) : List Mod → Code Bool
  | [] => return false
  | m :: ms => do
    if fd = (← stmt (.getPipefd m)) then
      stmt (.readMod fd)
      return true
    tryServiceModule fd ms

/-- `try_service_socket`, `try_service_module` and `try_service_session`, in turn. -/
def serviceFd (fd : Int) : Code Unit := do
  if fd = (← stmt .getListenSock) then startNewSession
  else if ← tryServiceModule fd mods then return
  else if ← stmt (.getSession fd) then processSession fd

def serviceFds : List (Int × Bool) → Int → Code Unit
  | [], _ => return
  | (fd, pollin) :: fds, nready =>
    if 0 < nready then do
      if pollin then
        serviceFd fd
        serviceFds fds (nready - 1)
      else serviceFds fds nready
    else return

def managerIsDirty : Code Bool := do
  if ← stmt .modsDirty then return true
  stmt .getSessionsDirty

def managerCleanupDirt : Code Unit := do
  let flags ← stmt .intrSave
  restartMods
  stmt (.setSessionsDirty false)
  stmt (.intrRestore flags)

def shutdownManager : Code Unit := do
  let _ ← stmt .intrSave
  stmt .closeSessionHandler
  Prog.each doModuleExit mods
  stmt .closeListen
  exit

/-- One turn of the `while` of `start_manager_loop`, with its `fds` and `nfds`. -/
def loopBody (fds : List Int × ℕ) : Code ((List Int × ℕ) ⊕ Unit) := do
  if ← stmt .loopTest then
    if ← managerIsDirty then
      managerCleanupDirt
      return .inl (← setupPollFds)
    stmt (.pollEnter fds.1 fds.2)
    let (readyfd, ready) ← stmt (.pollReturn fds.2)
    if 0 < readyfd then serviceFds ((fds.1.take fds.2).zip ready) readyfd
    return .inl fds
  return .inr ()

def startManagerLoop : Code Unit := do
  iterate loopBody (← setupPollFds)
  shutdownManager

/-- The main loop of `start_manager_loop`, and `shutdown_manager` behind it. -/
def looping (fds : List Int × ℕ) : Code Unit := .loop loopBody fds fun _ => shutdownManager

def earlyModuleStartup (bot server : Bool) : Code Unit := do
  if bot then let _ ← doModuleInit .tsBot
  if server then let _ ← doModuleInit .tsWebserver

def main (bot server : Bool) : Code Unit := do
  earlyModuleStartup bot server
  stmt (.setStatus .running)
  startManagerLoop

def start (b : Boot) (bot server : Bool) : Config Op.Res State Unit := ⟨main bot server, b.state⟩

/-! ### Runs told by their notable steps, the other statements succeeding -/

abbrev Script := List (Op × Input Answer Signal)

abbrev follow (ok : Condition Op State Answer Signal) [∀ l s i, Decidable (ok l s i)]
    (c : Config Op.Res State Unit) (is : Script) : Option (Config Op.Res State Unit) :=
  machine.follow ok .ok 500 c is

def launching (m : Mod) (flags : SigSet) (r w pid : Int) : Script :=
  [(.pipe m, .main (.pipe r w)), (.fork m flags, .main (.pid pid))]

def dying (l : Op) (pid : Int) : Script :=
  [(l, .async (.childExit pid 0)), (l, .async .deliverChld)]

def connecting (nfds : ℕ) (fd : Int) : Script :=
  [(.pollReturn nfds, .main (.poll 1 (true :: List.replicate (nfds - 1) false))),
    (.accept, .main (.fd fd))]

def commanding (nfds : ℕ) (fd : Int) (cmd : Bytes) : Script :=
  [(.pollReturn nfds, .main (.poll 1 (false :: true :: List.replicate (nfds - 2) false))),
    (.read fd, .main (.read ⟨some (htonl cmd.length), [0, 0, 0, 0]⟩)),
    (.read fd, .main (.read ⟨some cmd, [0, 0, 0, 0]⟩))]

end TeamspeakWebserver.Manager
