import TeamspeakWebserver.Manager.Program

/-! What each statement of the manager leaves alone. -/

namespace TeamspeakWebserver.Manager

open Interruptible Prog Sessions

namespace Op

def writesMods : Op → Bool
  | setPipefd _ _ | setState _ _ | setPid _ _ | clearNeedsRestart _ | bumpFails _ => true
  | _ => false

def writesChildren : Op → Bool
  | fork _ _ | kill _ _ => true
  | _ => false

def writesFds : Op → Bool
  | pipe _ | closeFd _ | closePipefd _ | accept | closeComm _ | closeListen => true
  | _ => false

def writesMask : Op → Bool
  | intrSave | intrRestore _ => true
  | _ => false

def writesStatus : Op → Bool
  | setStatus _ => true
  | _ => false

def writesSessions : Op → Bool
  | linkSession _ | incSessions | unlinkSession _ | decSessions | read _ => true
  | _ => false

def writesSessionsDirty : Op → Bool
  | setSessionsDirty _ => true
  | _ => false

def writesModsDirty : Op → Bool
  | setModsDirty _ => true
  | _ => false

def writesLog : Op → Bool
  | fork _ _ | bumpFails _ | note _ => true
  | _ => false

end Op

/-- The parts of the state a statement does not write. -/
structure Frame (op : Op) (s s' : State) : Prop where
  mods : op.writesMods = false → s'.mods = s.mods
  children : op.writesChildren = false → s'.children = s.children
  fds : op.writesFds = false → s'.fds = s.fds
  mask : op.writesMask = false → s'.mask = s.mask
  status : op.writesStatus = false → s'.status = s.status
  sessions : op.writesSessions = false → s'.sessions = s.sessions ∧ s'.numSessions = s.numSessions
  sessionsDirty : op.writesSessionsDirty = false → s'.sessionsDirty = s.sessionsDirty
  modsDirty : op.writesModsDirty = false → s'.modsDirty = s.modsDirty
  log : op.writesLog = false → s'.log = s.log
  listenSock : s'.listenSock = s.listenSock
  pending : s'.pending = s.pending

lemma Frame.refl (op : Op) (s : State) : Frame op s s :=
  ⟨fun _ => rfl, fun _ => rfl, fun _ => rfl, fun _ => rfl, fun _ => rfl, fun _ => ⟨rfl, rfl⟩,
    fun _ => rfl, fun _ => rfl, fun _ => rfl, rfl, rfl⟩

lemma kill_frame (s : State) (m : Mod) (hard : Bool) (pid : Int) :
    Frame (.kill m hard) s (s.kill pid).2 := by
  unfold State.kill
  split
  · exact ⟨fun _ => rfl, fun h => (by cases h), fun _ => rfl, fun _ => rfl, fun _ => rfl,
      fun _ => ⟨rfl, rfl⟩, fun _ => rfl, fun _ => rfl, fun _ => rfl, rfl, rfl⟩
  · exact .refl _ s

lemma readSession_cases {s s' : State} {fd : Int} {x : Read} {o : Outcome}
    (h : s.readSession fd x = some (o, s')) : ∃ t, s.findSession fd = some t ∧
      (∀ b ∈ x.got, 1 ≤ b.length ∧ b.length ≤ t.request) ∧ o = (t.onRead x).2 ∧
        s' = s.setSession fd fun t => (t.onRead x).1 := by
  unfold State.readSession at h
  split at h
  · cases h
  case h_2 t ht =>
    split at h
    case isTrue hx =>
      cases h
      exact ⟨t, ht, hx.2, rfl, rfl⟩
    case isFalse => cases h

lemma readSession_frame {s s' : State} {fd : Int} {x : Read} {o : Outcome}
    (h : s.readSession fd x = some (o, s')) : Frame (.read fd) s s' := by
  obtain ⟨t, -, -, -, rfl⟩ := readSession_cases h
  exact ⟨fun _ => rfl, fun _ => rfl, fun _ => rfl, fun _ => rfl, fun _ => rfl,
    fun h => (by cases h), fun _ => rfl, fun _ => rfl, fun _ => rfl, rfl, rfl⟩

lemma exec_frame {op : Op} {s s' : State} {i : Answer} {r : op.Res}
    (h : exec op s i = some (r, s')) : Frame op s s' := by
  unfold exec at h
  split at h
  all_goals first | exact readSession_frame h | skip
  all_goals try split at h
  all_goals
    first
    | (cases h; done)
    | (cases h; exact .refl _ _)
    | (obtain rfl := congrArg Prod.snd (Option.some.inj h); exact kill_frame _ _ _ _)
    | (cases h; constructor <;>
        first
        | rfl
        | exact fun _ => rfl
        | exact fun _ => ⟨rfl, rfl⟩
        | (intro hw; cases hw))

/-! ### The records of the modules -/

def Op.updates (m : Mod) : Op → Module → Module
  | .setPipefd m' fd, M => if m = m' then { M with pipefd := fd } else M
  | .setState m' st, M => if m = m' then { M with state := st } else M
  | .setPid m' p, M => if m = m' then { M with pid := p } else M
  | .clearNeedsRestart m', M => if m = m' then { M with needsRestart := false } else M
  | .bumpFails m', M => if m = m' then { M with numFails := M.numFails + 1 } else M
  | _, M => M

section Records

variable {op : Op} {s s' : State} {i : Answer} {r : op.Res} {m : Mod}

lemma exec_mods (he : exec op s i = some (r, s')) (m : Mod) : s'.mods m = op.updates m (s.mods m) := by
  have hset (m' : Mod) (f : Module → Module) :
      (s.setMod m' f).mods m = if m = m' then f (s.mods m) else s.mods m := by
    rw [State.setMod_mods]
    split
    case isTrue hm => rw [hm]
    case isFalse => rfl
  cases op with
  | setPipefd m' fd =>
    cases he
    exact hset m' _
  | setState m' st =>
    cases he
    exact hset m' _
  | setPid m' p =>
    cases he
    exact hset m' _
  | clearNeedsRestart m' =>
    cases he
    exact hset m' _
  | bumpFails m' =>
    cases he
    exact hset m' fun M => { M with numFails := M.numFails + 1 }
  | _ => exact congrFun ((exec_frame he).mods rfl) m

lemma exec_numFails (hn : op ≠ .bumpFails m) (he : exec op s i = some (r, s')) :
    (s'.mods m).numFails = (s.mods m).numFails := by
  rw [exec_mods he]
  cases op with
  | bumpFails m' =>
    have hne : m ≠ m' := by
      rintro rfl
      exact hn rfl
    rw [Op.updates, if_neg hne]
  | _ => first
    | rfl
    | (simp only [Op.updates]; split <;> rfl)

lemma exec_needsRestart (hn : op ≠ .clearNeedsRestart m) (he : exec op s i = some (r, s')) :
    (s'.mods m).needsRestart = (s.mods m).needsRestart := by
  rw [exec_mods he]
  cases op with
  | clearNeedsRestart m' =>
    have hne : m ≠ m' := by
      rintro rfl
      exact hn rfl
    rw [Op.updates, if_neg hne]
  | _ => first
    | rfl
    | (simp only [Op.updates]; split <;> rfl)

end Records

/-! ### The statements to which the kernel has a choice of answers -/

section Choices

variable {s s' : State} {i : Answer} {m : Mod} {flags : SigSet}

lemma exec_pipe {r : Option (Int × Int)} (h : exec (.pipe m) s i = some (r, s')) :
    (r = none ∧ s' = s) ∨ ∃ p q, i = .pipe p q ∧ r = some (p, q) ∧ s.isFresh p ∧ s.isFresh q ∧
      p ≠ q ∧ s' = { s with fds := (p, .pipe) :: (q, .pipe) :: s.fds } := by
  cases i with
  | pipe p q =>
    simp only [exec] at h
    split at h
    case isTrue hf => cases h; exact Or.inr ⟨p, q, rfl, rfl, hf.1, hf.2.1, hf.2.2, rfl⟩
    case isFalse => cases h
  | _ => cases h; exact Or.inl ⟨rfl, rfl⟩

lemma exec_fork {r : Option Int} (h : exec (.fork m flags) s i = some (r, s')) :
    (r = none ∧ s' = s) ∨ ∃ p, i = .pid p ∧ r = some p ∧ 0 < p ∧ s.isChild p = false ∧
      s' = { s with children := s.children ++ [Child.mk p none false] }.record (.launched m) := by
  cases i with
  | pid p =>
    simp only [exec] at h
    split at h
    case isTrue hp => cases h; exact Or.inr ⟨p, rfl, rfl, hp.1, hp.2, rfl⟩
    case isFalse => cases h
  | _ => cases h; exact Or.inl ⟨rfl, rfl⟩

lemma exec_accept {r : Option Int} (h : exec .accept s i = some (r, s')) :
    (r = none ∧ s' = s) ∨ ∃ fd, r = some fd ∧ s.isFresh fd ∧
      s' = { s with fds := (fd, .other) :: s.fds } := by
  cases i with
  | fd fd =>
    simp only [exec] at h
    split at h
    case isTrue hf => cases h; exact Or.inr ⟨fd, rfl, hf, rfl⟩
    case isFalse => cases h
  | _ => cases h; exact Or.inl ⟨rfl, rfl⟩

/-- Another answer is taken for a `read()` that finds nothing. -/
lemma exec_read_answer {fd : Int} {o : Outcome} (h : exec (.read fd) s i = some (o, s')) :
    ∃ x, s.readSession fd x = some (o, s') ∧ (i = .read x ∨ x.got = none ∧ ∀ r, i ≠ .read r) := by
  cases i with
  | read x => exact ⟨x, h, Or.inl rfl⟩
  | _ => exact ⟨_, h, Or.inr ⟨rfl, nofun⟩⟩

lemma exec_read {fd : Int} {o : Outcome} (h : exec (.read fd) s i = some (o, s')) :
    ∃ f : Session → Session, (∀ t, (f t).commFd = t.commFd) ∧ s' = s.setSession fd f := by
  obtain ⟨x, hx, -⟩ := exec_read_answer h
  obtain ⟨t, -, -, -, rfl⟩ := readSession_cases hx
  exact ⟨_, fun t => t.onRead_commFd x, rfl⟩

end Choices

end TeamspeakWebserver.Manager
