import TeamspeakWebserver.Manager.Apart
import TeamspeakWebserver.Manager.Tending

/-! The array the manager polls is never behind its sessions and modules. -/

namespace TeamspeakWebserver.Manager

open Interruptible Prog Rules Sessions

def Matches (fds : List Int × ℕ) (s : State) : Prop := fds.2 = fds.1.length ∧ fds.1 = s.watched

def Fresh (fds : List Int × ℕ) (s : State) : Prop :=
  s.modsDirty = true ∨ s.sessionsDirty = true ∨ Matches fds s

def WatchedAt (l : Option Op) (s : State) : Prop :=
  ∀ fds nfds, l = some (.pollEnter fds nfds) → Matches (fds, nfds) s

def Listed (s : State) : Prop := s.sessions.length = s.numSessions

def Current (fds : List Int × ℕ) (s : State) : Prop :=
  Listed s ∧ (s.status = .stopped ∨ Fresh fds s)

/-- What the array depends on has not changed, and the dirty flags have at most been raised. -/
structure Alike (s s' : State) : Prop where
  pipefd : ∀ m, (s'.mods m).pipefd = (s.mods m).pipefd
  commFds : s'.commFds = s.commFds
  listenSock : s'.listenSock = s.listenSock
  numSessions : s'.numSessions = s.numSessions
  modsDirty : s.modsDirty = true → s'.modsDirty = true
  sessionsDirty : s.sessionsDirty = true → s'.sessionsDirty = true
  status : s.status = .stopped → s'.status = .stopped

section Alike

variable {s s' : State} {fds : List Int × ℕ} {m : Mod}

lemma pipeFdsOf_congr (h : ∀ m, (s'.mods m).pipefd = (s.mods m).pipefd) (ms : List Mod) :
    s'.pipeFdsOf ms = s.pipeFdsOf ms := by
  simp only [State.pipeFdsOf, h]

lemma Alike.watched (h : Alike s s') : s'.watched = s.watched := by
  rw [State.watched, h.listenSock, h.commFds, State.pipeFds, pipeFdsOf_congr h.pipefd]
  rfl

lemma Alike.matches (h : Alike s s') (hm : Matches fds s) : Matches fds s' := by
  rw [Matches, h.watched]
  exact hm

lemma Alike.fresh (h : Alike s s') (hf : Fresh fds s) : Fresh fds s' := by
  rcases hf with hd | hd | hm
  · exact Or.inl (h.modsDirty hd)
  · exact Or.inr (Or.inl (h.sessionsDirty hd))
  · exact Or.inr (Or.inr (h.matches hm))

lemma Alike.length (h : Alike s s') : s'.sessions.length = s.sessions.length := by
  have hl := congrArg List.length h.commFds
  simpa [State.commFds] using hl

lemma Alike.listed (h : Alike s s') (hl : Listed s) : Listed s' := by
  rw [Listed, h.length, h.numSessions]
  exact hl

lemma Alike.current (h : Alike s s') (hc : Current fds s) : Current fds s' :=
  ⟨h.listed hc.1, hc.2.imp h.status h.fresh⟩

lemma Alike.refl (s : State) : Alike s s := ⟨fun _ => rfl, rfl, rfl, rfl, id, id, id⟩

lemma Alike.setMod (h : Alike s s') {f : Module → Module}
    (hf : ∀ M N : Module, M.pipefd = N.pipefd → (f M).pipefd = (f N).pipefd) :
    Alike (s.setMod m f) (s'.setMod m f) where
  pipefd m' := by
    rw [State.setMod_mods, State.setMod_mods]
    split
    · exact hf _ _ (h.pipefd m)
    · exact h.pipefd m'
  commFds := h.commFds
  listenSock := h.listenSock
  numSessions := h.numSessions
  modsDirty := h.modsDirty
  sessionsDirty := h.sessionsDirty
  status := h.status

lemma alike_setMod (s : State) (m : Mod) {f : Module → Module}
    (hf : (f (s.mods m)).pipefd = (s.mods m).pipefd) : Alike s (s.setMod m f) where
  pipefd := State.setMod_field Module.pipefd hf
  commFds := rfl
  listenSock := rfl
  numSessions := rfl
  modsDirty := id
  sessionsDirty := id
  status := id

lemma alike_reap (s : State) (dead status : Int) : Alike s (reap dead status s) where
  pipefd m := by rw [reap_mods, Module.onDeath_pipefd]
  commFds := by simp [State.commFds]
  listenSock := reap_listenSock ..
  numSessions := reap_numSessions ..
  modsDirty := reap_modsDirty dead status s
  sessionsDirty h := (reap_sessionsDirty dead status s).trans h
  status h := (reap_status dead status s).trans h

lemma resists_of_alike {P : State → Prop} (h : ∀ s s', Alike s s' → P s → P s') : Resists P where
  pending s _ := h s _ ⟨fun _ => rfl, rfl, rfl, rfl, id, id, id⟩
  childExit s _ _ := h s _ ⟨fun _ => rfl, rfl, rfl, rfl, id, id, id⟩
  reap s dead status _ := h s _ (alike_reap s dead status)
  term s _ := h s _ ⟨fun _ => rfl, rfl, rfl, rfl, id, id, fun _ => rfl⟩

end Alike

/-- The statements that may change what the array depends on, or clear a flag. -/
def Op.moves : Op → Bool
  | .setPipefd _ _ | .linkSession _ | .unlinkSession _ | .incSessions | .decSessions => true
  | .setModsDirty b | .setSessionsDirty b => !b
  | .setStatus st => st ≠ .stopped
  | _ => false

lemma exec_alike {op : Op} (h : op.moves = false) {s s' : State} {i : Answer} {r : op.Res}
    (he : exec op s i = some (r, s')) : Alike s s' := by
  have hf : Frame op s s' := exec_frame he
  cases op with
  | setState m st =>
    cases he
    exact alike_setMod s m rfl
  | setPid m p =>
    cases he
    exact alike_setMod s m rfl
  | clearNeedsRestart m =>
    cases he
    exact alike_setMod s m rfl
  | bumpFails m =>
    cases he
    have ha := alike_setMod s m (f := fun M => { M with numFails := M.numFails + 1 }) rfl
    exact ⟨ha.pipefd, rfl, rfl, rfl, id, id, id⟩
  | setModsDirty b =>
    cases he
    exact ⟨fun _ => rfl, rfl, rfl, rfl, fun _ => by simpa [Op.moves] using h, id, id⟩
  | setSessionsDirty b =>
    cases he
    exact ⟨fun _ => rfl, rfl, rfl, rfl, id, fun _ => by simpa [Op.moves] using h, id⟩
  | setStatus st =>
    cases he
    exact ⟨fun _ => rfl, rfl, rfl, rfl, id, id, fun _ => by simpa [Op.moves] using h⟩
  | read fd =>
    obtain ⟨f, hc, rfl⟩ := exec_read he
    refine ⟨fun _ => rfl, ?_, rfl, rfl, id, id, id⟩
    simp only [State.commFds, State.setSession, List.map_map]
    exact List.map_congr_left fun t _ => by simp only [Function.comp]; split <;> simp [hc]
  | _ => first
    | (cases h; done)
    | exact ⟨fun m => by rw [hf.mods rfl], by rw [State.commFds, (hf.sessions rfl).1]; rfl,
        hf.listenSock, (hf.sessions rfl).2, fun hd => (hf.modsDirty rfl).trans hd,
        fun hd => (hf.sessionsDirty rfl).trans hd, fun hs => (hf.status rfl).trans hs⟩

section Walk

structure Orderly (l : Option Op) (s : State) : Prop where
  raised : s.status = .stopped ∨ Raised s
  tended : TendedAt l s
  apart : ApartAt l s

abbrev watchRules : Rules Op.Res State Answer Signal := rules (fun l s _ => Orderly l s) WatchedAt

variable {P : State → Prop} {op : Op} {m : Mod} {fds : List Int × ℕ}

lemma watchedAt (hn : ∀ fds nfds, op ≠ .pollEnter fds nfds) (s : State) : WatchedAt (some op) s :=
  fun fds nfds he => absurd (Option.some.inj he) (hn fds nfds)

def Steady (P : State → Prop) : Prop := ∀ s s', Alike s s' → P s → P s'

lemma Steady.resists (hP : Steady P) : Resists P := resists_of_alike hP

lemma Steady.keeps (hP : Steady P) (hn : ∀ fds nfds, op ≠ .pollEnter fds nfds)
    (hm : op.moves = false) : watchRules.Keeps P op :=
  hP.resists.atomic (fun s _ => watchedAt hn s) fun s _ _ s' hs _ he => hP s s' (exec_alike hm he) hs

lemma Steady.det (hP : Steady P) (hn : ∀ fds nfds, op ≠ .pollEnter fds nfds) {Q : op.Res → State → Prop}
    {g : State → op.Res} {f : State → State} (hd : ∀ s i, exec op s i = some (g s, f s))
    (hx : ∀ s, P s → Q (g s) (f s)) : watchRules.Atomic op P Q :=
  hP.resists.det (fun s _ => watchedAt hn s) hd hx

lemma Steady.none (hP : Steady P) : watchRules.Holds none P :=
  hP.resists.holds fun _ _ => nofun

lemma Current.steady (fds : List Int × ℕ) : Steady (Current fds) := fun _ _ ha => ha.current

lemma Listed.steady : Steady Listed := fun _ _ ha => ha.listed

def Dirtied (s : State) : Prop := Listed s ∧ s.modsDirty = true

lemma Dirtied.steady : Steady Dirtied := fun _ _ ha h => ⟨ha.listed h.1, ha.modsDirty h.2⟩

lemma Dirtied.current {s : State} (h : Dirtied s) : Current fds s := ⟨h.1, Or.inr (Or.inl h.2)⟩

lemma setModsDirty_current (hP : Steady P) (hl : ∀ s, P s → Listed s) :
    watchRules.Atomic (.setModsDirty true) P fun _ => Dirtied :=
  hP.det (by simp) (fun _ _ => rfl) fun s h => ⟨hl s h, rfl⟩

def Given (m : Mod) (fds : List Int × ℕ) (s : State) : Prop :=
  Current fds (s.setMod m ({ · with pipefd := -1 }))

lemma Given.steady (m : Mod) (fds : List Int × ℕ) : Steady (Given m fds) :=
  fun _ _ ha => (ha.setMod fun _ _ _ => rfl).current

lemma pipe_current (m : Mod) : watchRules.Atomic (.pipe m)
    (fun s => Current fds s ∧ (s.mods m).state ≠ .running)
    fun r s => Current fds s ∧ (r ≠ none → Given m fds s) := by
  apply ((Current.steady fds).resists.and (.notRunning m)).atomic fun s _ => watchedAt (by simp) s
  intro s i r s' h hok he
  have ha := exec_alike rfl he
  refine ⟨ha.current h.1, fun _ => Given.steady m fds s s' ha ?_⟩
  have ht := hok.tended _ rfl rfl m
  -- a dead module is waiting for its restart, so `mods_dirty` is set
  have hpipe : s.status = .stopped ∨ s.modsDirty = true ∨ (s.mods m).pipefd = -1 := by
    cases hs : (s.mods m).state with
    | running => exact absurd hs h.2
    | dead => exact hok.raised.imp id fun hr => Or.inl (hr m (ht.dead hs))
    | off => exact Or.inr (Or.inr (ht.parked (by rw [hs]; rfl)))
    | exited => exact Or.inr (Or.inr (ht.parked (by rw [hs]; rfl)))
  refine ⟨h.1.1, ?_⟩
  rcases hpipe with hs | hd | hp
  · exact Or.inl hs
  · exact Or.inr (Or.inl hd)
  · exact ((alike_setMod s m hp.symm).current h.1).2

lemma doModuleInit_current (m : Mod) : watchRules.Valid (Current fds) (doModuleInit m)
    fun _ => Current fds := by
  have hc := Current.steady fds
  have hg := Given.steady m fds
  have hset (fd : Int) : watchRules.Keeps (Given m fds) (.setPipefd m fd) := by
    apply hg.det (by simp) fun _ _ => rfl
    intro s h
    rw [Given, setMod_setMod]
    exact h
  refine .act (B := fun r s => Current fds s ∧ (r = false → (s.mods m).state ≠ .running)) ?_
    fun (r : Bool) => ?_
  · exact hc.det (by simp) (fun _ _ => rfl) fun s h => ⟨h, of_decide_eq_false⟩
  cases r with
  | true => exact fun _ h => h.1
  | false =>
  refine (Valid.act (pipe_current m) fun (r : Option (Int × Int)) => ?_).weaken
    fun s h => ⟨h.1, h.2 rfl⟩
  cases r with
  | none => exact fun _ h => h.1
  | some p =>
  obtain ⟨r, w⟩ := p
  refine Valid.weaken (A := Given m fds) ?_ fun s h => h.2 nofun
  refine .act (hset r) fun _ => .act (hg.keeps (by simp) rfl) fun flags => ?_
  refine .act (hg.keeps (by simp) rfl) fun (q : Option Int) => ?_
  cases q with
  | none =>
    refine .act (hg.keeps (by simp) rfl) fun _ => .act (B := fun _ => Current fds) ?_ fun _ => ?_
    · exact hg.det (by simp) (fun _ _ => rfl) fun s h => h
    · exact .act (hc.keeps (by simp) rfl) fun _ => .act (hc.keeps (by simp) rfl) fun _ _ h => h
  | some p =>
    refine .act (hg.keeps (by simp) rfl) fun _ => .act (hg.keeps (by simp) rfl) fun _ => ?_
    refine .act (hg.keeps (by simp) rfl) fun _ => .act (hg.keeps (by simp) rfl) fun _ => ?_
    exact .act (setModsDirty_current hg fun s h => h.1) fun _ _ h => h.current

lemma doModuleExit_current (m : Mod) : watchRules.Valid (Current fds) (doModuleExit m)
    fun _ => Current fds := by
  have hc := Current.steady fds
  have hd := Dirtied.steady
  refine .act (hc.keeps (by simp) rfl) fun (b : Bool) => ?_
  cases b with
  | true => exact fun _ h => h
  | false =>
  have hend : watchRules.Valid (Current fds) (endChild m) fun _ => Current fds :=
    .of_uses hc.none ((endChild_uses m).mono fun op h => by
      cases op <;> first
        | cases h
        | exact hc.keeps (by simp) rfl)
  refine .act (hc.keeps (by simp) rfl) fun flags => hend.bind fun _ => ?_
  refine .act (setModsDirty_current hc fun s h => h.1) fun _ => .act (hd.keeps (by simp) rfl) fun _ => ?_
  refine .act (hd.keeps (by simp) rfl) fun _ => .act (B := fun _ => Dirtied) ?_ fun _ => ?_
  · exact hd.det (by simp) (fun _ _ => rfl) fun s h => h
  · exact (Valid.call (hd.keeps (by simp) rfl)).strengthen fun _ _ h => h.current

/-! ### Sessions -/

def Off (f : ℕ → ℕ) (s : State) : Prop := s.sessions.length = f s.numSessions

lemma Off.steady (f : ℕ → ℕ) : Steady (Off f) := by
  intro s s' ha h
  rw [Off, ha.length, ha.numSessions]
  exact h

lemma relisted (f : ℕ → ℕ) (hn : ∀ fds nfds, op ≠ .pollEnter fds nfds)
    (hx : ∀ s i r s', exec op s i = some (r, s') → s'.sessions = s.sessions ∧
      s'.numSessions = f s.numSessions) : watchRules.Atomic op (Off f) fun _ => Listed := by
  apply (Off.steady f).resists.atomic fun s _ => watchedAt hn s
  intro s i r s' h _ he
  obtain ⟨hs, hc⟩ := hx s i r s' he
  rw [Listed, hs, hc]
  exact h

lemma setSessionsDirty_current : watchRules.Atomic (.setSessionsDirty true) Listed
    fun _ => Current fds :=
  Listed.steady.det (by simp) (fun _ _ => rfl) fun _ h => ⟨h, Or.inr (Or.inr (Or.inl rfl))⟩

lemma startNewSession_current : watchRules.Valid (Current fds) startNewSession
    fun _ => Current fds := by
  have hc := Current.steady fds
  refine .act (hc.keeps (by simp) rfl) fun (b : Bool) => ?_
  cases b with
  | false => exact fun _ h => h
  | true =>
  refine .act (hc.keeps (by simp) rfl) fun (r : Option Int) => ?_
  cases r with
  | none => exact fun _ h => h
  | some fd =>
  refine .act (B := fun _ => Off (· + 1)) ?_ fun _ => .act (relisted (· + 1) (by simp) ?_) fun _ => ?_
  · exact hc.det (by simp) (fun _ _ => rfl) fun s h => congrArg (· + 1) h.1
  · intro s i r s' he
    cases he
    exact ⟨rfl, rfl⟩
  · exact .call setSessionsDirty_current

def Hosting (fds : List Int × ℕ) (fd : Int) (s : State) : Prop := Current fds s ∧ fd ∈ s.commFds

lemma Hosting.steady (fds : List Int × ℕ) (fd : Int) : Steady (Hosting fds fd) :=
  fun s s' ha h => ⟨ha.current h.1, by rw [ha.commFds]; exact h.2⟩

lemma closeSession_current (fd : Int) : watchRules.Valid (Hosting fds fd) (closeSession fd)
    fun _ => Current fds := by
  have hh := Hosting.steady fds fd
  refine .act (hh.keeps (by simp) rfl) fun _ => .act (B := fun _ => Off (· - 1)) ?_ fun _ => ?_
  · apply hh.det (by simp) fun _ _ => rfl
    rintro s ⟨h, hfd⟩
    obtain ⟨t, ht, hf⟩ := List.mem_map.mp hfd
    have hl := List.length_eraseP_of_mem (p := fun t => decide (t.commFd = fd)) ht (by simpa using hf)
    exact hl.trans (congrArg (· - 1) h.1)
  refine .act (relisted (· - 1) (by simp) fun s i r s' he => ?_) fun _ => .call setSessionsDirty_current
  cases he
  exact ⟨rfl, rfl⟩

lemma current_restart (op : Op) (h : op.ofRestart = true) (hd : ∀ b, op ≠ .setModsDirty b) :
    watchRules.Keeps (Current fds) op := by
  apply (Current.steady fds).keeps (by rintro fds nfds rfl; cases h)
  cases op with
  | setModsDirty b => exact absurd rfl (hd b)
  | _ => first
    | rfl
    | cases h

lemma served_current : Served watchRules (Current fds) (Hosting fds) where
  service op h := by
    apply (Current.steady fds).keeps (by rintro fds nfds rfl; cases h)
    cases op with
    | setStatus st => cases st <;> first | rfl | cases h
    | _ => first
      | rfl
      | cases h
  accept := startNewSession_current
  find fd := by
    apply (Current.steady fds).det (by simp) fun _ _ => rfl
    refine fun s h => ⟨h, fun hb => ⟨h, ?_⟩⟩
    rw [State.findSession, List.find?_isSome] at hb
    obtain ⟨t, ht, hf⟩ := hb
    exact List.mem_map.mpr ⟨t, ht, by simpa using hf⟩
  read fd := (Hosting.steady fds fd).keeps (by simp) rfl
  close := closeSession_current
  forget _ _ h := h.1
  command cmd m errv := runCommand_valid (current_restart _ rfl (by simp)) (doModuleExit_current m)
    (doModuleInit_current m) (doModuleExit_current m) (current_restart _ rfl (by simp)) cmd errv

/-! ### The array -/

def Counts (ms : List Mod) (len : ℕ) (s : State) : Prop := Listed s ∧
  (s.status = .stopped ∨ s.modsDirty = true ∨ len = 1 + s.sessions.length + (s.pipeFdsOf ms).length)

lemma Counts.steady (ms : List Mod) (len : ℕ) : Steady (Counts ms len) := by
  intro s s' ha h
  refine ⟨ha.listed h.1, ?_⟩
  rw [ha.length, pipeFdsOf_congr ha.pipefd]
  exact h.2.imp ha.status fun h => h.imp ha.modsDirty id

lemma Module.Tended.pid_iff {M : Module} (h : M.Tended) (hn : M.needsRestart = false)
    (hz : M.pipefd ≠ 0) : 0 < M.pid ↔ 0 < M.pipefd := by
  cases hs : M.state with
  | running =>
    obtain ⟨hp, hf⟩ := h.running hs
    exact ⟨fun _ => by omega, fun _ => hp⟩
  | dead =>
    rw [h.dead hs] at hn
    cases hn
  | off =>
    have hp := h.idle (by simp [hs])
    have hf := h.parked (by rw [hs]; rfl)
    omega
  | exited =>
    have hp := h.idle (by simp [hs])
    have hf := h.parked (by rw [hs]; rfl)
    omega

lemma getPid_counts (done : List Mod) (m : Mod) (len : ℕ) : watchRules.Atomic (.getPid m)
    (Counts done len) fun pid => Counts (done ++ [m]) (if 0 < pid then len + 1 else len) := by
  apply (Counts.steady done len).resists.atomic fun s _ => watchedAt (by simp) s
  intro s i r s' h hok he
  cases he
  refine ⟨h.1, ?_⟩
  rcases h.2 with hs | hd | hl
  · exact Or.inl hs
  · exact Or.inr (Or.inl hd)
  by_cases hn : (s.mods m).needsRestart = true
  · exact hok.raised.imp id fun hr => Or.inl (hr m hn)
  · have hz := (hok.apart _ rfl rfl).pipefd_ne_zero m
    have hp := (hok.tended _ rfl rfl m).pid_iff (by simpa using hn) hz
    refine Or.inr (Or.inr ?_)
    simp only [State.pipeFdsOf, List.filterMap_append, List.length_append] at hl ⊢
    simp only [hp]
    by_cases hf : 0 < (s.mods m).pipefd
    · simp [hf, hl, Nat.add_assoc]
    · simp [hf, hl]

lemma countPids_counts (ms done : List Mod) (len : ℕ) : watchRules.Valid (Counts done len)
    (countPids ms len) fun len => Counts (done ++ ms) len := by
  induction ms generalizing done len with
  | nil => exact fun s h => by simpa using h
  | cons m ms ih =>
    refine .act (getPid_counts done m len) fun (pid : Int) => ?_
    have hm := ih (done ++ [m]) (if 0 < pid then len + 1 else len)
    rwa [List.append_assoc] at hm

def Storing (len : ℕ) (p rest : List Int) (ms : List Mod) (s : State) : Prop :=
  Counts mods len s ∧ p ++ rest ++ s.pipeFdsOf ms = s.watched

lemma Storing.steady (len : ℕ) (p rest : List Int) (ms : List Mod) :
    Steady (Storing len p rest ms) := by
  intro s s' ha h
  refine ⟨Counts.steady mods len s s' ha h.1, ?_⟩
  rw [ha.watched, pipeFdsOf_congr ha.pipefd]
  exact h.2

lemma storeSessions_storing (len : ℕ) (rest p : List Int) : watchRules.Valid
    (Storing len p rest mods) (storeSessions len rest p) fun p => Storing len p [] mods := by
  induction rest generalizing p with
  | nil => exact fun s h => h
  | cons fd rest ih =>
    refine .act ((Storing.steady len p _ mods).keeps (by simp) rfl) fun _ => ?_
    refine (ih (p ++ [fd])).weaken fun s h => ⟨h.1, ?_⟩
    rw [List.append_assoc p [fd] rest]
    exact h.2

lemma getPipefd_storing (len : ℕ) (p : List Int) (m : Mod) (ms : List Mod) :
    watchRules.Atomic (.getPipefd m) (Storing len p [] (m :: ms))
      fun fd => Storing len (if 0 < fd then p ++ [fd] else p) [] ms := by
  apply (Storing.steady len p [] (m :: ms)).det (by simp) fun _ _ => rfl
  intro s h
  refine ⟨h.1, ?_⟩
  rw [← h.2]
  by_cases hf : 0 < (s.mods m).pipefd
  · simp [State.pipeFdsOf, hf]
  · simp [State.pipeFdsOf, hf]

lemma storePipes_storing (len : ℕ) (ms : List Mod) (p : List Int) : watchRules.Valid
    (Storing len p [] ms) (storePipes len ms p) fun p => Storing len p [] [] := by
  induction ms generalizing p with
  | nil => exact fun s h => h
  | cons m ms ih =>
    refine .act (getPipefd_storing len p m ms) fun (fd : Int) => ?_
    change watchRules.Valid _ (if 0 < fd then _ else _ : Code (List Int)) _
    by_cases hf : 0 < fd
    · simp only [hf, if_true]
      exact .act ((Storing.steady len _ [] ms).keeps (by simp) rfl) fun _ => ih _
    · simp only [hf, if_false]
      exact ih p

lemma Storing.current {len : ℕ} {p : List Int} {s : State} (h : Storing len p [] [] s) :
    Current (p, len) s := by
  obtain ⟨⟨hl, hc⟩, hp⟩ := h
  have hp' : p = s.watched := by simpa [State.pipeFdsOf] using hp
  refine ⟨hl, hc.imp id fun hc => hc.imp id fun hlen => Or.inr ⟨?_, hp'⟩⟩
  simp only [hlen, hp', State.watched, State.pipeFds, State.commFds, List.length_cons,
    List.length_append, List.length_map]
  omega

lemma setupPollFds_current : watchRules.Valid Listed setupPollFds fun fds => Current fds := by
  refine .act (B := fun n => Counts [] (1 + n)) ?_ fun (n : ℕ) => ?_
  · apply Listed.steady.det (by simp) fun _ _ => rfl
    intro s h
    exact ⟨h, Or.inr (Or.inr (by simp [State.pipeFdsOf, show s.sessions.length = _ from h]))⟩
  refine (countPids_counts mods [] (1 + n)).bind fun len => ?_
  have hc := Counts.steady mods len
  refine .act (hc.keeps (by simp) rfl) fun (b : Bool) => ?_
  cases b with
  | false => exact .act (hc.keeps (by simp) rfl) fun (r : Empty) => r.elim
  | true =>
  refine .act (B := fun sock s => Counts mods len s ∧ sock = s.listenSock) ?_ fun (sock : Int) => ?_
  · exact hc.det (by simp) (fun _ _ => rfl) fun s h => ⟨h, rfl⟩
  have hsock : Steady fun s => Counts mods len s ∧ sock = s.listenSock :=
    fun s s' ha h => ⟨hc s s' ha h.1, h.2.trans ha.listenSock.symm⟩
  refine .act (hsock.keeps (by simp) rfl) fun _ => ?_
  refine .act (B := fun fds => Storing len [sock] fds mods) ?_ fun (fds : List Int) => ?_
  · apply hsock.det (by simp) fun _ _ => rfl
    rintro s ⟨h, rfl⟩
    exact ⟨h, rfl⟩
  refine (storeSessions_storing len fds [sock]).bind fun p => ?_
  exact (storePipes_storing len mods p).bind fun p s h => h.current

/-! ### The loop -/

def Clean (fds : List Int × ℕ) (s : State) : Prop :=
  Listed s ∧ (s.sessionsDirty = true ∨ Matches fds s)

lemma listed_keeps {op : Op} (hn : ∀ fds nfds, op ≠ .pollEnter fds nfds)
    (hw : op.writesSessions = false) : watchRules.Keeps Listed op := by
  apply Listed.steady.resists.atomic fun s _ => watchedAt hn s
  intro s i r s' hs _ he
  have hf := (exec_frame he).sessions hw
  rw [Listed, hf.1, hf.2]
  exact hs

lemma listed_uses {α : Type} {p : Code α} {A : Op → Prop} (h : p.Uses A)
    (hA : ∀ op, A op → (∀ fds nfds, op ≠ .pollEnter fds nfds) ∧ op.writesSessions = false) :
    watchRules.Valid Listed p fun _ => Listed :=
  .of_uses Listed.steady.none (h.mono fun op ho => listed_keeps (hA op ho).1 (hA op ho).2)

lemma listed_restart (op : Op) (h : op.ofRestart = true) : watchRules.Keeps Listed op :=
  listed_keeps (by rintro fds nfds rfl; cases h) (by cases op <;> first | rfl | cases h)

lemma doModuleInit_listed (m : Mod) : watchRules.Valid Listed (doModuleInit m) fun _ => Listed :=
  listed_uses (doModuleInit_uses m) fun op h => by
    cases op <;> first
      | (cases h; done)
      | exact ⟨by simp, rfl⟩

lemma doModuleExit_listed (m : Mod) : watchRules.Valid Listed (doModuleExit m) fun _ => Listed :=
  listed_uses (doModuleExit_uses m) fun op h => by
    cases op <;> first
      | (cases h; done)
      | exact ⟨by simp, rfl⟩

lemma managerCleanupDirt_listed :
    watchRules.Valid Listed managerCleanupDirt fun _ => Listed := by
  refine managerCleanupDirt_valid (listed_restart _ rfl) (fun _ => ?_) (fun _ => ?_)
    fun _ => listed_restart _ rfl
  · exact restartMods_of_keeps Listed.steady.none listed_restart doModuleInit_listed
      doModuleExit_listed
  · exact Listed.steady.det (by simp) (fun _ _ => rfl) fun s h => h

lemma Clean.steady (fds : List Int × ℕ) : Steady (Clean fds) :=
  fun _ _ ha h => ⟨ha.listed h.1, h.2.imp ha.sessionsDirty ha.matches⟩

lemma loopTest_current : watchRules.Atomic .loopTest (Current fds)
    fun b s => cond b (Listed s ∧ Fresh fds s) (Listed s) := by
  apply (Current.steady fds).det (by simp) fun _ _ => rfl
  rintro s ⟨hl, hf⟩
  by_cases hr : s.status = .running
  · rw [decide_eq_true hr]
    refine ⟨hl, hf.resolve_left fun hs => ?_⟩
    rw [hr] at hs
    cases hs
  · rw [decide_eq_false hr]
    exact hl

lemma modsDirty_current : watchRules.Atomic .modsDirty (fun s => Listed s ∧ Fresh fds s)
    fun b s => cond b (Listed s) (Clean fds s) := by
  have hs : Steady fun s => Listed s ∧ Fresh fds s := fun _ _ ha h => ⟨ha.listed h.1, ha.fresh h.2⟩
  apply hs.det (by simp) fun _ _ => rfl
  rintro s ⟨hl, hf⟩
  cases hd : s.modsDirty with
  | true => exact hl
  | false => exact ⟨hl, hf.resolve_left (by simp [hd])⟩

lemma getSessionsDirty_current : watchRules.Atomic .getSessionsDirty (Clean fds)
    fun b s => cond b (Listed s) (Listed s ∧ Matches fds s) := by
  apply (Clean.steady fds).det (by simp) fun _ _ => rfl
  rintro s ⟨hl, hf⟩
  cases hd : s.sessionsDirty with
  | true => exact hl
  | false => exact ⟨hl, hf.resolve_left (by simp [hd])⟩

lemma pollEnter_current : watchRules.Atomic (.pollEnter fds.1 fds.2)
    (fun s => Listed s ∧ Matches fds s) fun _ => Current fds := by
  refine Resists.det (resists_of_alike fun s s' ha h => ⟨ha.listed h.1, ha.matches h.2⟩) ?_
    (fun _ _ => rfl) fun s h => ⟨h.1, Or.inr (Or.inr (Or.inr h.2))⟩
  rintro s ⟨-, h⟩ _ _ he
  cases he
  exact h

lemma main_watched (bot server : Bool) :
    watchRules.Valid Listed (main bot server) fun _ => Listed := by
  have hstop : watchRules.Valid Listed shutdownManager fun _ => Listed := by
    refine shutdownManager_valid (listed_restart _ rfl) ?_ ?_ ?_ doModuleExit_listed
    all_goals apply Listed.steady.resists.atomic fun s _ => watchedAt (by simp) s
    · intro s i r s' h _ he
      rw [exec] at he
      split at he
      · cases he
        exact h
      · cases he
    · intro s i r s' h _ he
      cases he
      exact h
    · intro s i r s' h _ he
      cases he
  have hrun : watchRules.Keeps Listed (.setStatus .running) :=
    Listed.steady.det (by simp) (fun _ _ => rfl) fun s h => h
  refine main_valid doModuleInit_listed hrun (setupPollFds_current.bind fun fds => ?_) bot server
  refine Valid.bind (Q := fun _ => Listed) ?_ fun _ => hstop
  refine .iterate (fun fds => (Current.steady fds).none) (fun fds => ?_) fds
  exact loopBody_valid loopTest_current modsDirty_current getSessionsDirty_current
    managerCleanupDirt_listed setupPollFds_current pollEnter_current
    ((Current.steady fds).keeps (by simp) rfl) served_current.serviceFds fun s h => h

end Walk

lemma watched_reached (b : Boot) (bot server : Bool) {c : Config Op.Res State Unit}
    (h : machine.Reaches (fun _ _ _ => True) (start b bot server) c) :
    WatchedAt c.prog.next c.st := by
  refine (main_watched bot server).guarantee (fun _ => Listed.steady.none) (s := b.state) rfl ?_
  refine h.strengthen fun d hd i _ => ⟨?_, tended b bot server hd, apart b bot server hd⟩
  exact (noticed b bot server hd).raised

lemma poll_array_current (b : Boot) (bot server : Bool) {c : Config Op.Res State Unit}
    (h : machine.Reaches (fun _ _ _ => True) (start b bot server) c) {fds : List Int} {nfds : ℕ}
    (hn : c.prog.next = some (.pollEnter fds nfds)) :
    nfds = fds.length ∧ fds = c.st.watched ∧ fds.Nodup := by
  obtain ⟨hl, hw⟩ := watched_reached b bot server h fds nfds hn
  have hd := (apart b bot server h _ hn rfl).watched_nodup
  exact ⟨hl, hw, by rwa [← hw] at hd⟩

end TeamspeakWebserver.Manager
