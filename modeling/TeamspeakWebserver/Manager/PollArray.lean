import TeamspeakWebserver.Manager.Ownership

/-! How `setup_poll_fds` sizes and fills its array. -/

namespace TeamspeakWebserver.Manager

open Interruptible Prog Rules Sessions

def StoresAt (l : Option Op) (_ : State) : Prop :=
  ∀ len i fd, l = some (.storePollfd len i fd) → i < len

def cleaned (l : Option Op) (s : State) (i : Input Answer Signal) : Bool :=
  match l, i with
  | some (.getPid m), .main _ => (s.mods m).state ≠ .dead || (s.mods m).pipefd ≤ 0
  | _, _ => true

/-- `num_sessions` is the length of the list, and a parked module has no pipe, those of `S` left
aside. -/
structure Counted (S : Mod → Prop) (s : State) : Prop where
  sessions : s.sessions.length = s.numSessions
  unpiped : ∀ m, ¬ S m → (s.mods m).state.parked = true → (s.mods m).pipefd = -1

namespace Counted

variable {S : Mod → Prop} {s s' : State} {m : Mod}

lemma congr (h : Counted S s) (hs : s'.sessions.length = s'.numSessions)
    (hm : ∀ m, ¬ S m → (s'.mods m).state.parked = (s.mods m).state.parked ∧
      (s'.mods m).pipefd = (s.mods m).pipefd) : Counted S s' where
  sessions := hs
  unpiped m hS hp := by
    rw [(hm m hS).1] at hp
    rw [(hm m hS).2]
    exact h.unpiped m hS hp

lemma reap (h : Counted S s) (dead status : Int) : Counted S (reap dead status s) := by
  apply h.congr
  · simpa using h.sessions
  · intro m _
    rw [reap_mods]
    exact ⟨Module.onDeath_parked .., Module.onDeath_pipefd ..⟩

lemma resists (S : Mod → Prop) : Resists (Counted S) where
  pending _ _ h := h.congr h.sessions fun _ _ => ⟨rfl, rfl⟩
  childExit _ _ _ h := h.congr h.sessions fun _ _ => ⟨rfl, rfl⟩
  reap _ dead status _ h := h.reap dead status
  term _ _ h := h.congr h.sessions fun _ _ => ⟨rfl, rfl⟩

lemma setMod (h : Counted S s) (hS : S m) (f : Module → Module) : Counted S (s.setMod m f) := by
  have hs : (s.setMod m f).sessions.length = (s.setMod m f).numSessions := h.sessions
  apply h.congr hs
  intro m' hm'
  have hne : m' ≠ m := by
    rintro rfl
    exact hm' hS
  simp [hne]

lemma mono {T : Mod → Prop} (h : Counted S s) (hT : ∀ m, S m → T m) : Counted T s :=
  ⟨h.sessions, fun m hm => h.unpiped m fun hS => hm (hT m hS)⟩

lemma setMod_same (h : Counted S s) {f : Module → Module} (hs : ∀ M, (f M).state = M.state)
    (hp : ∀ M, (f M).pipefd = M.pipefd) : Counted S (s.setMod m f) := by
  have hl : (s.setMod m f).sessions.length = (s.setMod m f).numSessions := h.sessions
  exact h.congr hl fun m' _ =>
    ⟨State.setMod_field (fun M => M.state.parked) (by rw [hs]) m', State.setMod_field Module.pipefd (hp _) m'⟩

lemma settle (h : Counted (fun m' => m' = m) s)
    (hm : (s.mods m).state.parked = true → (s.mods m).pipefd = -1) :
    Counted (fun _ => False) s where
  sessions := h.sessions
  unpiped m' _ hp := by
    by_cases he : m' = m
    · subst he
      exact hm hp
    · exact h.unpiped m' he hp

end Counted

section Walk

abbrev pollRules : Rules Op.Res State Answer Signal :=
  rules (fun l s i => cleaned l s i = true ∧ ∀ m, l = some (.getPid m) → Owned s) StoresAt

abbrev nobody : Mod → Prop := fun _ => False

variable {S : Mod → Prop} {op : Op} {m : Mod} {P : State → Prop}

lemma storesAt (hn : ∀ len i fd, op ≠ .storePollfd len i fd) (s : State) :
    StoresAt (some op) s :=
  fun len i fd he => (hn len i fd (Option.some.inj he)).elim

lemma counted_none (S : Mod → Prop) : pollRules.Holds none (Counted S) :=
  (Counted.resists S).holds fun _ _ _ _ _ => nofun

lemma Counted.frame {s s' : State} (h : Counted S s) (hf : Frame op s s')
    (hm : op.writesMods = false) (hs : op.writesSessions = false) : Counted S s' := by
  apply h.congr
  · rw [(hf.sessions hs).1, (hf.sessions hs).2]
    exact h.sessions
  · intro m _
    rw [hf.mods hm]
    exact ⟨rfl, rfl⟩

lemma counted_keeps (hn : ∀ len i fd, op ≠ .storePollfd len i fd) (hm : op.writesMods = false)
    (hs : op.writesSessions = false) : pollRules.Keeps (Counted S) op := by
  apply (Counted.resists S).atomic fun s _ => storesAt hn s
  intro s i r s' h _ he
  exact h.frame (exec_frame he) hm hs

lemma counted_on (hS : S m) (hop : op.On m) : pollRules.Keeps (Counted S) op := by
  have hset {m' : Mod} {f : Module → Module} (hn : ∀ len i fd, op ≠ .storePollfd len i fd)
      (hm : decide (m' = m) = true)
      (he : ∀ s i r s', exec op s i = some (r, s') → s' = s.setMod m' f) :
      pollRules.Keeps (Counted S) op := by
    obtain rfl := of_decide_eq_true hm
    apply (Counted.resists S).atomic fun s _ => storesAt hn s
    intro s i r s' h _ hx
    rw [he s i r s' hx]
    exact h.setMod hS f
  cases op with
  | setPipefd m' fd => exact hset (by simp) hop fun s i r s' he => by cases he; rfl
  | setState m' st => exact hset (by simp) hop fun s i r s' he => by cases he; rfl
  | setPid m' p => exact hset (by simp) hop fun s i r s' he => by cases he; rfl
  | _ => first
    | (cases hop; done)
    | exact counted_keeps (by simp) rfl rfl

lemma counted_setPid (p : Int) : pollRules.Keeps (Counted S) (.setPid m p) :=
  (Counted.resists S).det (fun s _ => storesAt (by simp) s) (fun _ _ => rfl) fun _ h =>
    h.setMod_same (fun _ => rfl) fun _ => rfl

lemma counted_on_self (h : op.On m) : pollRules.Keeps (Counted fun m' => m' = m) op :=
  counted_on rfl h

lemma doModuleInit_counted (m : Mod) : pollRules.Valid (Counted nobody) (doModuleInit m)
    fun _ => Counted nobody := by
  refine .act (counted_keeps (by simp) rfl rfl) fun (b : Bool) => ?_
  cases b with
  | true => exact fun _ h => h
  | false =>
  refine .act (counted_keeps (by simp) rfl rfl) fun (r : Option (Int × Int)) => ?_
  cases r with
  | none => exact fun _ h => h
  | some p =>
  obtain ⟨r, w⟩ := p
  refine Valid.weaken (A := Counted fun m' => m' = m) ?_ fun s h => h.mono fun _ => False.elim
  refine .act (counted_on_self (Op.on_self rfl)) fun _ => .act (counted_on_self rfl) fun flags => ?_
  refine .act (counted_on_self (Op.on_self rfl)) fun (q : Option Int) => ?_
  cases q with
  | none =>
    refine .act (counted_on_self rfl) fun _ => .act (B := fun _ => Counted nobody) ?_ fun _ => ?_
    · apply (Counted.resists _).det (fun s _ => storesAt (by simp) s) fun _ _ => rfl
      intro s h
      exact (h.setMod rfl _).settle (by simp)
    · exact .act (counted_keeps (by simp) rfl rfl) fun _ =>
        .act (counted_keeps (by simp) rfl rfl) fun _ _ h => h
  | some p =>
    refine .act (B := fun _ => Counted nobody) ?_ fun _ => .act (counted_setPid p) fun _ => ?_
    · apply (Counted.resists _).det (fun s _ => storesAt (by simp) s) fun _ _ => rfl
      intro s h
      exact (h.setMod rfl _).settle (by simp [ModState.parked])
    · exact .act (counted_keeps (by simp) rfl rfl) fun _ => .act (counted_keeps (by simp) rfl rfl)
        fun _ => .act (counted_keeps (by simp) rfl rfl) fun _ _ h => h

lemma doModuleExit_counted (m : Mod) : pollRules.Valid (Counted nobody) (doModuleExit m)
    fun _ => Counted nobody := by
  refine .act (counted_keeps (by simp) rfl rfl) fun (b : Bool) => ?_
  cases b with
  | true => exact fun _ h => h
  | false =>
  refine Valid.weaken (A := Counted fun m' => m' = m) ?_ fun s h => h.mono fun _ => False.elim
  refine .act (counted_on_self rfl) fun flags => ?_
  have hend := Valid.of_uses (counted_none _) ((endChild_uses m).mono fun _ h => counted_on_self h.on)
  refine hend.bind fun _ => .act (counted_on_self rfl) fun _ => .act (counted_on_self rfl) fun _ => ?_
  refine .act (counted_on_self (Op.on_self rfl)) fun _ => ?_
  -- the pipe is given up before the module is parked
  refine .act (B := fun _ s => Counted (fun m' => m' = m) s ∧ (s.mods m).pipefd = -1) ?_ fun _ => ?_
  · apply (Counted.resists _).det (fun s _ => storesAt (by simp) s) fun _ _ => rfl
    intro s h
    exact ⟨h.setMod rfl _, by simp⟩
  · apply Valid.call
    apply ((Counted.resists _).and (.pipefd m (-1))).det (fun s _ => storesAt (by simp) s)
      fun _ _ => rfl
    intro s h
    exact (h.1.setMod rfl _).settle fun _ => by simpa using h.2

lemma counted_restart (op : Op) (h : op.ofRestart = true) :
    pollRules.Keeps (Counted nobody) op := by
  cases op with
  | clearNeedsRestart m =>
    exact (Counted.resists _).det (fun s _ => storesAt (by simp) s) (fun _ _ => rfl) fun _ h =>
      h.setMod_same (fun _ => rfl) fun _ => rfl
  | bumpFails m =>
    apply (Counted.resists _).det (fun s _ => storesAt (by simp) s) fun _ _ => rfl
    intro s h
    have hb : Counted nobody (s.setMod m fun M => { M with numFails := M.numFails + 1 }) :=
      h.setMod_same (fun _ => rfl) fun _ => rfl
    exact hb.congr hb.sessions fun _ _ => ⟨rfl, rfl⟩
  | _ => first
    | (cases h; done)
    | exact counted_keeps (by simp) rfl rfl

/-! ### Sessions -/

def State.withCount (s : State) (f : ℕ → ℕ) : State := { s with numSessions := f s.numSessions }

lemma resists_withCount (f : ℕ → ℕ) : Resists fun s => Counted S (s.withCount f) where
  pending _ _ h := h.congr h.sessions fun _ _ => ⟨rfl, rfl⟩
  childExit _ _ _ h := h.congr h.sessions fun _ _ => ⟨rfl, rfl⟩
  reap s dead status _ h := by
    apply (h.reap dead status).congr
    · simpa [State.withCount] using h.sessions
    · intro m _
      rw [reap_mods]
      simp [State.withCount]
  term _ _ h := h.congr h.sessions fun _ _ => ⟨rfl, rfl⟩

def Found (fd : Int) (s : State) : Prop := Counted nobody s ∧ ∃ t ∈ s.sessions, t.commFd = fd

lemma Found.resists (fd : Int) : Resists (Found fd) where
  pending s p h := ⟨(Counted.resists _).pending s p h.1, h.2⟩
  childExit s pid status h := ⟨(Counted.resists _).childExit s pid status h.1, h.2⟩
  reap s dead status hm h := ⟨h.1.reap dead status, by rw [reap_sessions]; exact h.2⟩
  term s hm h := ⟨(Counted.resists _).term s hm h.1, h.2⟩

lemma startNewSession_counted : pollRules.Valid (Counted nobody) startNewSession
    fun _ => Counted nobody := by
  refine .act (counted_keeps (by simp) rfl rfl) fun (b : Bool) => ?_
  cases b with
  | false => exact fun _ h => h
  | true =>
  refine .act (counted_keeps (by simp) rfl rfl) fun (r : Option Int) => ?_
  cases r with
  | none => exact fun _ h => h
  | some fd =>
  refine .act (B := fun _ s => Counted nobody (s.withCount (· + 1))) ?_ fun _ => ?_
  · apply (Counted.resists _).det (fun s _ => storesAt (by simp) s) fun _ _ => rfl
    intro s h
    refine ⟨?_, h.unpiped⟩
    simp [State.withCount, h.sessions]
  refine .act (B := fun _ => Counted nobody) ?_ fun _ => .call (counted_keeps (by simp) rfl rfl)
  exact (resists_withCount _).det (fun s _ => storesAt (by simp) s) (fun _ _ => rfl) fun s h => h

lemma closeSession_counted (fd : Int) : pollRules.Valid (Found fd) (closeSession fd)
    fun _ => Counted nobody := by
  refine .act (B := fun _ => Found fd) ?_ fun _ => ?_
  · apply (Found.resists fd).det (fun s _ => storesAt (by simp) s) fun _ _ => rfl
    intro s h
    exact ⟨h.1.congr h.1.sessions fun _ _ => ⟨rfl, rfl⟩, h.2⟩
  refine .act (B := fun _ s => Counted nobody (s.withCount (· - 1))) ?_ fun _ => ?_
  · apply (Found.resists fd).det (fun s _ => storesAt (by simp) s) fun _ _ => rfl
    rintro s ⟨h, t, ht, hfd⟩
    refine ⟨?_, h.unpiped⟩
    simp only [State.withCount]
    rw [List.length_eraseP_of_mem ht (by simpa using hfd), h.sessions]
  refine .act (B := fun _ => Counted nobody) ?_ fun _ => .call (counted_keeps (by simp) rfl rfl)
  exact (resists_withCount _).det (fun s _ => storesAt (by simp) s) (fun _ _ => rfl) fun s h => h

lemma read_counted (fd : Int) : pollRules.Keeps (Found fd) (.read fd) := by
  apply (Found.resists fd).atomic fun s _ => storesAt (by simp) s
  rintro s i r s' ⟨h, t, ht, hfd⟩ _ he
  obtain ⟨f, hf, rfl⟩ := exec_read he
  refine ⟨⟨by simpa [State.setSession] using h.sessions, h.unpiped⟩, f t, ?_, ?_⟩
  · exact List.mem_map.mpr ⟨t, ht, if_pos hfd⟩
  · rw [hf, hfd]

lemma served_counted : Served pollRules (Counted nobody) Found where
  service op h := by
    cases op <;> first
      | (cases h; done)
      | exact counted_keeps (by simp) rfl rfl
  accept := startNewSession_counted
  find fd := by
    apply (Counted.resists _).det (fun s _ => storesAt (by simp) s) fun _ _ => rfl
    intro s h
    refine ⟨h, fun hb => ⟨h, ?_⟩⟩
    rw [State.findSession, List.find?_isSome] at hb
    simpa using hb
  read := read_counted
  close := closeSession_counted
  forget _ _ h := h.1
  command := runCommand_of_keeps counted_restart doModuleInit_counted doModuleExit_counted

/-! ### The array -/

def State.pipesOf (s : State) (ms : List Mod) : ℕ := ms.countP fun m => 0 < (s.mods m).pipefd

def Room (n : State → ℕ) (ms : List Mod) (len : ℕ) (s : State) : Prop :=
  Counted nobody s ∧ n s + s.pipesOf ms ≤ len

lemma Room.congr {n : State → ℕ} {ms : List Mod} {len : ℕ} {s s' : State} (h : Room n ms len s)
    (hc : Counted nobody s') (hn : n s' = n s)
    (hp : ∀ m, (s'.mods m).pipefd = (s.mods m).pipefd) : Room n ms len s' := by
  refine ⟨hc, ?_⟩
  simp only [State.pipesOf, hp, hn]
  exact h.2

lemma Room.resists {n : State → ℕ} (hn : ∀ s s', s'.sessions = s.sessions → n s' = n s)
    (ms : List Mod) (len : ℕ) : Resists (Room n ms len) where
  pending s p h := h.congr ((Counted.resists _).pending s p h.1) (hn s _ rfl) fun _ => rfl
  childExit s pid st h := h.congr ((Counted.resists _).childExit s pid st h.1) (hn s _ rfl)
    fun _ => rfl
  reap s dead status hm h := by
    apply h.congr (h.1.reap dead status) (hn s _ (reap_sessions ..))
    intro m
    rw [reap_mods, Module.onDeath_pipefd]
  term s hm h := h.congr ((Counted.resists _).term s hm h.1) (hn s _ rfl) fun _ => rfl

lemma room_keeps {n : State → ℕ} (hn : ∀ s s', s'.sessions = s.sessions → n s' = n s)
    {ms : List Mod} {len : ℕ} (ho : ∀ len i fd, op ≠ .storePollfd len i fd)
    (hm : op.writesMods = false) (hs : op.writesSessions = false) :
    pollRules.Keeps (Room n ms len) op := by
  apply (Room.resists hn ms len).atomic fun s _ => storesAt ho s
  intro s i r s' h _ he
  have hf := exec_frame he
  exact h.congr (h.1.frame hf hm hs) (hn s s' (hf.sessions hs).1) fun m => by rw [hf.mods hm]

lemma storePollfd_room {n : ℕ} {ms : List Mod} {len i : ℕ} {fd : Int} (hi : i < n) :
    pollRules.Keeps (Room (fun _ => n) ms len) (.storePollfd len i fd) := by
  apply (Room.resists (fun _ _ _ => rfl) ms len).det (f := fun s => s) ?_ fun _ _ => rfl
  · exact fun s h => h
  · intro s h len' i' fd' he
    obtain ⟨rfl, rfl, -⟩ := Op.storePollfd.inj (Option.some.inj he)
    have hl : n + s.pipesOf ms ≤ len := h.2
    omega

def sockets (s : State) : ℕ := 1 + s.sessions.length

lemma sockets_congr (s s' : State) (h : s'.sessions = s.sessions) : sockets s' = sockets s := by
  rw [sockets, h, sockets]

lemma getPid_room (done : List Mod) (m : Mod) (len : ℕ) : pollRules.Atomic (.getPid m)
    (Room sockets done len)
    fun pid => Room sockets (done ++ [m]) (if 0 < pid then len + 1 else len) := by
  apply (Room.resists sockets_congr done len).atomic fun s _ => storesAt (by simp) s
  intro s i r s' h hok he
  cases he
  refine ⟨h.1, ?_⟩
  have hl : sockets s + s.pipesOf done ≤ len := h.2
  have ho := hok.2 m rfl
  -- a module with a pipe is neither parked nor dead, so it has a pid
  have hp : 0 < (s.mods m).pipefd → 0 < (s.mods m).pid := by
    intro hfd
    rw [← ho.running_iff m]
    cases hst : (s.mods m).state with
    | running => rfl
    | dead =>
      have hd := hok.1
      simp only [cleaned, hst, Bool.or_eq_true, decide_eq_true_eq] at hd
      rcases hd with hd | hd
      · exact absurd rfl hd
      · omega
    | off =>
      have hu := h.1.unpiped m (by simp) (by rw [hst]; rfl)
      omega
    | exited =>
      have hu := h.1.unpiped m (by simp) (by rw [hst]; rfl)
      omega
  simp only [State.pipesOf, List.countP_append, List.countP_singleton, decide_eq_true_eq] at hl ⊢
  by_cases hfd : 0 < (s.mods m).pipefd
  · rw [if_pos hfd, if_pos (hp hfd)]
    exact Nat.succ_le_succ hl
  · rw [if_neg hfd]
    split
    · exact Nat.le_succ_of_le hl
    · exact hl

lemma countPids_room (ms done : List Mod) (len : ℕ) : pollRules.Valid (Room sockets done len)
    (countPids ms len) fun len => Room sockets (done ++ ms) len := by
  induction ms generalizing done len with
  | nil => exact fun s h => by simpa using h
  | cons m ms ih =>
    refine .act (getPid_room done m len) fun (pid : Int) => ?_
    have hm := ih (done ++ [m]) (if 0 < pid then len + 1 else len)
    rwa [List.append_assoc] at hm

lemma storeSessions_room (len : ℕ) (fds p : List Int) : pollRules.Valid
    (Room (fun _ => p.length + fds.length) mods len) (storeSessions len fds p)
    fun p => Room (fun _ => p.length) mods len := by
  induction fds generalizing p with
  | nil => exact fun s h => h
  | cons fd fds ih =>
    refine .act (storePollfd_room (by simp)) fun _ => ?_
    have hp := ih (p ++ [fd])
    rw [List.length_append, List.length_singleton] at hp
    simpa only [List.length_cons, Nat.add_assoc, Nat.add_comm 1] using! hp

lemma getPipefd_room (m : Mod) (ms : List Mod) (n len : ℕ) : pollRules.Atomic (.getPipefd m)
    (Room (fun _ => n) (m :: ms) len)
    fun fd => Room (fun _ => if 0 < fd then n + 1 else n) ms len := by
  apply (Room.resists (fun _ _ _ => rfl) _ len).atomic fun s _ => storesAt (by simp) s
  intro s i r s' h hok he
  cases he
  refine ⟨h.1, ?_⟩
  have hl : n + s.pipesOf (m :: ms) ≤ len := h.2
  simp only [State.pipesOf, List.countP_cons, decide_eq_true_eq] at hl ⊢
  split
  case isTrue hp =>
    rw [if_pos hp] at hl
    omega
  case isFalse hp =>
    rw [if_neg hp] at hl
    exact hl

lemma storePipes_room (len : ℕ) (ms : List Mod) (p : List Int) : pollRules.Valid
    (Room (fun _ => p.length) ms len) (storePipes len ms p) fun _ => Counted nobody := by
  induction ms generalizing p with
  | nil => exact fun s h => h.1
  | cons m ms ih =>
    refine .act (getPipefd_room m ms p.length len) fun (fd : Int) => ?_
    change pollRules.Valid _ (if 0 < fd then _ else _ : Code (List Int)) _
    by_cases hfd : 0 < fd
    · simp only [hfd, if_true]
      refine .act (storePollfd_room (Nat.lt_succ_self _)) fun _ => ?_
      have hp := ih (p ++ [fd])
      rwa [List.length_append, List.length_singleton] at hp
    · simp only [hfd, if_false]
      exact ih p

lemma setupPollFds_counted : pollRules.Valid (Counted nobody) setupPollFds
    fun _ => Counted nobody := by
  refine .act (B := fun n => Room sockets [] (1 + n)) ?_ fun (n : ℕ) => ?_
  · apply (Counted.resists _).det (fun s _ => storesAt (by simp) s) fun _ _ => rfl
    intro s h
    exact ⟨h, by simp [sockets, State.pipesOf, h.sessions]⟩
  refine (countPids_room mods [] (1 + n)).bind fun len => ?_
  refine .act (room_keeps sockets_congr (by simp) rfl rfl) fun (b : Bool) => ?_
  cases b with
  | false =>
    refine .act (B := fun _ _ => True) ?_ fun r => nomatch r
    exact (Room.resists sockets_congr mods len).atomic (fun s _ => storesAt (by simp) s)
      fun _ _ _ _ _ _ _ => trivial
  | true =>
  refine .act (room_keeps sockets_congr (by simp) rfl rfl) fun (sock : Int) => ?_
  refine .act (B := fun _ => Room sockets mods len) ?_ fun _ => ?_
  · apply (Room.resists sockets_congr mods len).det (f := fun s => s) ?_ fun _ _ => rfl
    · exact fun s h => h
    · intro s h len' i fd he
      obtain ⟨rfl, rfl, -⟩ := Op.storePollfd.inj (Option.some.inj he)
      have hl : 1 + s.sessions.length + s.pipesOf mods ≤ len := h.2
      omega
  refine .act (B := fun fds => Room (fun _ => 1 + fds.length) mods len) ?_ fun (fds : List Int) => ?_
  · apply (Room.resists sockets_congr mods len).det (fun s _ => storesAt (by simp) s) fun _ _ => rfl
    intro s h
    refine ⟨h.1, ?_⟩
    simpa [sockets] using h.2
  refine (storeSessions_room len fds [sock]).bind fun p => ?_
  exact (storePipes_room len mods p).bind fun _ _ h => h

lemma main_counted (bot server : Bool) : pollRules.Valid (Counted nobody) (main bot server)
    fun _ => Counted nobody := by
  have hloop : Looped pollRules (Counted nobody) Found :=
    { toServed := served_counted
      holds := counted_none _
      loop := fun op h => by
        cases op <;> first
          | (cases h; done)
          | exact counted_keeps (by simp) rfl rfl
      setup := setupPollFds_counted
      cleanup := managerCleanupDirt_valid (counted_restart _ rfl)
        (fun _ => restartMods_of_keeps (counted_none _) counted_restart doModuleInit_counted
          doModuleExit_counted)
        (fun _ => counted_keeps (by simp) rfl rfl) fun _ => counted_restart _ rfl }
  have hstop : pollRules.Valid (Counted nobody) shutdownManager fun _ => Counted nobody :=
    shutdownManager_valid (counted_restart _ rfl) (counted_keeps (by simp) rfl rfl)
      (counted_keeps (by simp) rfl rfl) (counted_keeps (by simp) rfl rfl) doModuleExit_counted
  exact main_valid doModuleInit_counted (counted_keeps (by simp) rfl rfl)
    (hloop.startManagerLoop hstop) bot server

end Walk

theorem stores_of_cleaned (b : Boot) (bot server : Bool) {c : Config Op.Res State Unit}
    (h : machine.Reaches (fun l s i => cleaned l s i = true) (start b bot server) c) :
    StoresAt c.prog.next c.st := by
  refine (main_counted bot server).guarantee (s := b.state) (fun _ => counted_none _) ?_
    (h.strengthen ?_)
  · exact ⟨rfl, fun m _ _ => rfl⟩
  · intro d hd i hok
    refine ⟨hok, fun m hm => ?_⟩
    have ho := (main_owned bot server).guarantee (fun _ => owned_none) (boot_owned b) hd
    exact ho.outside fun op he => by
      rw [hm] at he
      cases he
      rfl

theorem array_overrun : ¬ ∀ (b : Boot) (bot server : Bool) (c : Config Op.Res State Unit),
    machine.Reaches (fun _ _ _ => True) (start b bot server) c → StoresAt c.prog.next c.st := by
  have hrun : (follow (fun _ _ _ => True) (start .terminal true false)
      (launching .tsBot ⟨false, false⟩ 4 5 10 ++ dying (.setStatus .running) 10 ++
        [(.storePollfd 1 1 4, .async .raiseChld)])).map (fun c => c.prog.next) =
      some (some (.storePollfd 1 1 4)) := by decide
  obtain ⟨c, hc, he⟩ := Option.map_eq_some_iff.mp hrun
  intro h
  have hlt := h _ _ _ c (Machine.reaches_of_follow hc) 1 1 4 he
  omega

theorem stores_of_cleaned_session : ∃ c : Config Op.Res State Unit,
    c.prog.next = some (.storePollfd 3 2 4) ∧ StoresAt c.prog.next c.st := by
  have hrun : (follow (fun l s i => cleaned l s i = true) (start .terminal true false)
      (launching .tsBot ⟨false, false⟩ 4 5 10 ++ connecting 2 6 ++
        [(.storePollfd 3 2 4, .async .raiseChld)])).map (fun c => c.prog.next) =
      some (some (.storePollfd 3 2 4)) := by decide
  obtain ⟨c, hc, he⟩ := Option.map_eq_some_iff.mp hrun
  exact ⟨c, he, stores_of_cleaned .terminal true false (Machine.reaches_of_follow hc)⟩

end TeamspeakWebserver.Manager
