import TeamspeakWebserver.Interruptible.Execution
import TeamspeakWebserver.Manager.State

/-! The statements of `man/manager.c` and `man/session.c` between which a signal can be handled,
and the two signal handlers. Calls of `do_log` only write to the log file and are left out. -/

namespace TeamspeakWebserver.Manager

open Interruptible Sessions

/-- The statements; `note` is the history variable and stands for no code. -/
inductive Op where
  | isRunning (m : Mod)
  | isParked (m : Mod)
  | pipe (m : Mod)
  | setPipefd (m : Mod) (fd : Int)
  | intrSave
  | intrRestore (flags : SigSet)
  | fork (m : Mod) (flags : SigSet)
  | setState (m : Mod) (st : ModState)
  | setPid (m : Mod) (pid : Int)
  | closeFd (fd : Int)
  | kill (m : Mod) (hard : Bool)
  | closePipefd (m : Mod)
  | setModsDirty (b : Bool)
  | needsRestart (m : Mod)
  | clearNeedsRestart (m : Mod)
  | bumpFails (m : Mod)
  | statusIs (st : Status)
  | setStatus (st : Status)
  | loopTest
  | modsDirty
  | getSessionsDirty
  | setSessionsDirty (b : Bool)
  | numSessions
  | getPid (m : Mod)
  | getPipefd (m : Mod)
  | getListenSock
  | sessionFds
  | calloc (len : ℕ)
  | storePollfd (len i : ℕ) (fd : Int)
  | pollEnter (fds : List Int) (nfds : ℕ)
  | pollReturn (nfds : ℕ)
  | malloc
  | accept
  | linkSession (fd : Int)
  | incSessions
  | getSession (fd : Int)
  | readMod (fd : Int)
  | read (fd : Int)
  | write (fd : Int) (resp : Bytes)
  | closeComm (fd : Int)
  | unlinkSession (fd : Int)
  | decSessions
  | closeSessionHandler
  | closeListen
  | exit
  | note (e : Event)
deriving DecidableEq

namespace Op

@[reducible] def Res : Op → Type
  | isRunning _ | isParked _ | needsRestart _ | statusIs _ | loopTest => Bool
  | modsDirty | getSessionsDirty | calloc _ | malloc | getSession _ => Bool
  | pipe _ => Option (Int × Int)
  | intrSave => SigSet
  | fork _ _ | accept => Option Int
  | kill _ _ | getPid _ | getPipefd _ | getListenSock => Int
  | bumpFails _ => UInt32
  | numSessions => ℕ
  | sessionFds => List Int
  | pollReturn _ => Int × List Bool
  | read _ => Outcome
  | exit => Empty
  | _ => Unit

end Op

inductive Answer where
  | ok
  | fail
  | fd (fd : Int)
  | pipe (r w : Int)
  | pid (pid : Int)
  | poll (n : Int) (ready : List Bool)
  | read (r : Read)
deriving DecidableEq

namespace State

def isFresh (s : State) (fd : Int) : Prop := 0 ≤ fd ∧ s.isOpen fd = false

instance (s : State) (fd : Int) : Decidable (s.isFresh fd) :=
  inferInstanceAs (Decidable (_ ∧ _))

def kill (s : State) (pid : Int) : Int × State :=
  if s.isChild pid then
    (0, { s with children :=
      s.children.map fun c => if c.pid = pid then { c with signalled := true } else c })
  else (-1, s)

def findSession (s : State) (fd : Int) : Option Session := s.sessions.find? (·.commFd = fd)

def readSession (s : State) (fd : Int) (r : Read) : Option (Outcome × State) :=
  match s.findSession fd with
  | none => none
  | some t =>
    if r.stale.length = 4 ∧ ∀ b ∈ r.got, 1 ≤ b.length ∧ b.length ≤ t.request then
      some ((t.onRead r).2, s.setSession fd fun t => (t.onRead r).1)
    else none

end State

def exec : (op : Op) → State → Answer → Option (op.Res × State)
  | .isRunning m, s, _ => some ((s.mods m).state = .running, s)
  | .isParked m, s, _ => some ((s.mods m).state.parked, s)
  | .pipe _, s, .pipe r w =>
    if s.isFresh r ∧ s.isFresh w ∧ r ≠ w then
      some (some (r, w), { s with fds := (r, .pipe) :: (w, .pipe) :: s.fds })
    else none
  | .pipe _, s, _ => some (none, s)
  | .setPipefd m fd, s, _ => some ((), s.setMod m ({ · with pipefd := fd }))
  | .intrSave, s, _ => some (s.mask, { s with mask := ⟨true, true⟩ })
  | .intrRestore flags, s, _ => some ((), { s with mask := flags })
  | .fork m _, s, .pid p =>
    if 0 < p ∧ s.isChild p = false then
      some (some p, { s with children := s.children ++ [Child.mk p none false] }.record (.launched m))
    else none
  | .fork _ _, s, _ => some (none, s)
  | .setState m st, s, _ => some ((), s.setMod m ({ · with state := st }))
  | .setPid m p, s, _ => some ((), s.setMod m ({ · with pid := p }))
  | .closeFd fd, s, _ => some ((), s.close fd)
  | .kill m _, s, _ => some (s.kill (s.mods m).pid)
  | .closePipefd m, s, _ => some ((), s.close (s.mods m).pipefd)
  | .setModsDirty b, s, _ => some ((), { s with modsDirty := b })
  | .needsRestart m, s, _ => some ((s.mods m).needsRestart, s)
  | .clearNeedsRestart m, s, _ => some ((), s.setMod m ({ · with needsRestart := false }))
  | .bumpFails m, s, _ =>
    some ((s.mods m).numFails + 1, (s.setMod m fun M => { M with numFails := M.numFails + 1 }).record
      (.failed m))
  | .statusIs st, s, _ => some (s.status = st, s)
  | .setStatus st, s, _ => some ((), { s with status := st })
  | .loopTest, s, _ => some (s.status = .running, s)
  | .modsDirty, s, _ => some (s.modsDirty, s)
  | .getSessionsDirty, s, _ => some (s.sessionsDirty, s)
  | .setSessionsDirty b, s, _ => some ((), { s with sessionsDirty := b })
  | .numSessions, s, _ => some (s.numSessions, s)
  | .getPid m, s, _ => some ((s.mods m).pid, s)
  | .getPipefd m, s, _ => some ((s.mods m).pipefd, s)
  | .getListenSock, s, _ => some (s.listenSock, s)
  | .sessionFds, s, _ => some (s.sessions.map (·.commFd), s)
  | .calloc _, s, a => some (a ≠ .fail, s)
  | .storePollfd _ _ _, s, _ => some ((), s)
  | .pollEnter _ _, s, _ => some ((), s)
  | .pollReturn nfds, s, .poll n ready =>
    if ready.length = nfds ∧ ready.count true ≤ n then some ((n, ready), s) else none
  | .pollReturn nfds, s, _ => some ((-1, List.replicate nfds false), s)
  | .malloc, s, a => some (a ≠ .fail, s)
  | .accept, s, .fd fd =>
    if s.isFresh fd then some (some fd, { s with fds := (fd, .other) :: s.fds }) else none
  | .accept, s, _ => some (none, s)
  | .linkSession fd, s, _ => some ((), { s with sessions := newSession fd :: s.sessions })
  | .incSessions, s, _ => some ((), { s with numSessions := s.numSessions + 1 })
  | .getSession fd, s, _ => some ((s.findSession fd).isSome, s)
  | .readMod _, s, _ => some ((), s)
  | .read fd, s, .read r => s.readSession fd r
  | .read fd, s, _ => s.readSession fd ⟨none, [0, 0, 0, 0]⟩
  | .write _ _, s, _ => some ((), s)
  | .closeComm fd, s, _ => some ((), s.close fd)
  | .unlinkSession fd, s, _ =>
    some ((), { s with sessions := s.sessions.eraseP (·.commFd = fd) })
  | .decSessions, s, _ => some ((), { s with numSessions := s.numSessions - 1 })
  -- with a session in the list, `list_for_each_entry_safe` is called with its cursors swapped
  -- and the loop reads a node it has freed
  | .closeSessionHandler, s, _ => if s.sessions = [] then some ((), s) else none
  | .closeListen, s, _ => some ((), s.close s.listenSock)
  | .exit, _, _ => none
  | .note e, s, _ => some ((), s.record e)

inductive Signal where
  | childExit (pid status : Int)
  | raiseChld
  | raiseTerm
  | deliverChld
  | deliverTerm
deriving DecidableEq

def markDead (dead status : Int) (s : State) (m : Mod) : State :=
  if dead = (s.mods m).pid ∧ (s.mods m).state = .running then
    { s.setMod m ({ · with state := .dead, needsRestart := true, pid := -1, wstatus := status }) with
      modsDirty := true }.record (.died m)
  else s

/-- One turn of the outer loop: `waitpid` has returned `dead`. -/
def reap (dead status : Int) (s : State) : State :=
  mods.foldl (markDead dead status) { s with children := s.children.filter (·.pid ≠ dead) }

def reapAll : List Child → State → State
  | [], s => s
  | c :: cs, s => match c.status with
    | none => reapAll cs s
    | some status => reapAll cs (reap c.pid status s)

def childDeathHandler (s : State) : State := reapAll s.children s

def termHandler (s : State) : State := { s with status := .stopped }.record .terminated

def signal (s : State) : Signal → Option State
  | .childExit pid status =>
    if s.children.any (fun c => c.pid = pid ∧ c.status = none) then
      some { s with
        children := s.children.map fun c => if c.pid = pid then { c with status := some status } else c
        pending := { s.pending with chld := true } }
    else none
  | .raiseChld => some { s with pending := { s.pending with chld := true } }
  | .raiseTerm => some { s with pending := { s.pending with term := true } }
  | .deliverChld =>
    if s.pending.chld && !s.mask.chld then
      some (childDeathHandler { s with pending := { s.pending with chld := false } })
    else none
  | .deliverTerm =>
    if s.pending.term && !s.mask.term then
      some (termHandler { s with pending := { s.pending with term := false } })
    else none

def machine : Machine Op.Res State Answer Signal where
  exec := exec
  async := signal
  ready := State.ready

end TeamspeakWebserver.Manager
