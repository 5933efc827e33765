import TeamspeakWebserver.Sessions.Session

/-! The memory of the manager (`man/manager.c`, `man/manager.h`), with the part of the kernel it
acts on: its children, its signals and its descriptors. -/

namespace TeamspeakWebserver.Manager

open Sessions

inductive Mod where
  | tsBot
  | tsWebserver
deriving DecidableEq

def mods : List Mod := [.tsBot, .tsWebserver]

def Mod.modName : Mod → Bytes
  | .tsBot => ascii "ts_bot"
  | .tsWebserver => ascii "ts_webserver"

/-- `MODULE_RUNNING`, `MODULE_OFF`, `MODULE_DEAD` and `MODULE_EXITED`. -/
inductive ModState where
  | running
  | off
  | dead
  | exited
deriving DecidableEq

def ModState.parked : ModState → Bool
  | .off | .exited => true
  | .running | .dead => false

def maxFailForStop : UInt32 := 5

structure Module where
  pid : Int
  numFails : UInt32
  needsRestart : Bool
  state : ModState
  wstatus : Int
  pipefd : Int
deriving DecidableEq

def defineModule : Module := ⟨-1, 0, false, .off, 0, -1⟩

inductive Status where
  | starting
  | running
  | stopped
deriving DecidableEq

/-- A child that has not been waited for: its status once it has died, and whether
`do_module_exit` has sent it a signal. -/
structure Child where
  pid : Int
  status : Option Int
  signalled : Bool
deriving DecidableEq

structure SigSet where
  chld : Bool
  term : Bool
deriving DecidableEq

inductive FdKind where
  | pipe
  | other
deriving DecidableEq

/-- What has happened, newest first. The manager never reads this. -/
inductive Event where
  | terminated
  | died (m : Mod)
  | launched (m : Mod)
  | requested (m : Mod)
  | disabled (m : Mod)
  | retrying (m : Mod)
  | failed (m : Mod)
  | relaunchFailed (m : Mod)
deriving DecidableEq

structure State where
  status : Status
  modsDirty : Bool
  mods : Mod → Module
  sessions : List Session
  numSessions : ℕ
  sessionsDirty : Bool
  listenSock : Int
  children : List Child
  pending : SigSet
  mask : SigSet
  fds : List (Int × FdKind)
  log : List Event

namespace State

def isOpen (s : State) (fd : Int) : Bool := s.fds.any (·.1 = fd)

def pipes (s : State) : List Int := (s.fds.filter (·.2 = .pipe)).map Prod.fst

def isChild (s : State) (pid : Int) : Bool := s.children.any (·.pid = pid)

def ready (s : State) : Bool :=
  !(s.pending.chld && !s.mask.chld) && !(s.pending.term && !s.mask.term)

def setMod (s : State) (m : Mod) (f : Module → Module) : State :=
  { s with mods := Function.update s.mods m (f (s.mods m)) }

def record (s : State) (e : Event) : State := { s with log := e :: s.log }

def close (s : State) (fd : Int) : State := { s with fds := s.fds.filter (·.1 ≠ fd) }

def setSession (s : State) (fd : Int) (f : Session → Session) : State :=
  { s with sessions := s.sessions.map fun t => if t.commFd = fd then f t else t }

variable (s : State) (m m' : Mod) (f : Module → Module) (e : Event) (fd : Int)

@[simp] lemma setMod_self : (s.setMod m f).mods m = f (s.mods m) := by simp [setMod]

@[simp] lemma setMod_ne (h : m' ≠ m) : (s.setMod m f).mods m' = s.mods m' := by
  simp [setMod, h]

lemma setMod_mods : (s.setMod m f).mods m' = if m' = m then f (s.mods m) else s.mods m' := by
  by_cases h : m' = m
  · subst h; simp
  · simp [h]

lemma setMod_field {α : Type} {s : State} {m : Mod} {f : Module → Module} (g : Module → α)
    (h : g (f (s.mods m)) = g (s.mods m)) (m' : Mod) :
    g ((s.setMod m f).mods m') = g (s.mods m') := by
  rw [setMod_mods]
  split
  case isTrue hm => rw [h, hm]
  case isFalse => rfl

@[simp] lemma setMod_status : (s.setMod m f).status = s.status := rfl
@[simp] lemma setMod_modsDirty : (s.setMod m f).modsDirty = s.modsDirty := rfl
@[simp] lemma setMod_sessions : (s.setMod m f).sessions = s.sessions := rfl
@[simp] lemma setMod_children : (s.setMod m f).children = s.children := rfl
@[simp] lemma setMod_pending : (s.setMod m f).pending = s.pending := rfl
@[simp] lemma setMod_mask : (s.setMod m f).mask = s.mask := rfl
@[simp] lemma setMod_fds : (s.setMod m f).fds = s.fds := rfl
@[simp] lemma setMod_log : (s.setMod m f).log = s.log := rfl

@[simp] lemma record_mods : (s.record e).mods = s.mods := rfl
@[simp] lemma record_log : (s.record e).log = e :: s.log := rfl

end State

lemma setMod_setMod (s : State) (m : Mod) (f g : Module → Module) :
    (s.setMod m f).setMod m g = s.setMod m fun M => g (f M) := by
  simp [State.setMod]

lemma setMod_id (s : State) (m : Mod) : s.setMod m (fun M => M) = s := by
  simp [State.setMod]

/-- The descriptors `main` holds when it has called `init_sighands`: the three standard ones,
which `init_manager` left open, and the listening socket. -/
structure Boot where
  listenSock : Int
  fds : List Int
  nonneg : ∀ fd ∈ fds, 0 ≤ fd
  stdin_open : 0 ∈ fds
  listen_open : listenSock ∈ fds

def Boot.state (b : Boot) : State where
  status := .starting
  modsDirty := false
  mods _ := defineModule
  sessions := []
  numSessions := 0
  sessionsDirty := false
  listenSock := b.listenSock
  children := []
  pending := ⟨false, false⟩
  mask := ⟨false, false⟩
  fds := b.fds.map (·, .other)
  log := []

def Boot.terminal : Boot := ⟨3, [0, 1, 2, 3], by decide, by decide, by decide⟩

end TeamspeakWebserver.Manager
