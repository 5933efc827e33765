import TeamspeakWebserver.Manager.Notices
import TeamspeakWebserver.Manager.Ownership

/-! The deaths of running modules: none is forgotten, but the manager may sleep on one. -/

namespace TeamspeakWebserver.Manager

open Interruptible Prog Rules Sessions

def Fallen (m : Mod) (s : State) : Prop := (s.mods m).state = .running ∧
  ∃ c ∈ s.children, c.status.isSome = true ∧ c.pid = (s.mods m).pid

def Recorded (m : Mod) (s : State) : Prop :=
  (s.mods m).needsRestart = true ∧ s.modsDirty = true

/-! ### `SIGCHLD` is pending as long as a child can be waited for -/

def AllPending (s : State) : Prop :=
  ∀ c ∈ s.children, c.status.isSome = true → s.pending.chld = true

lemma mem_reapAll_children {cs : List Child} {s : State} {d : Child}
    (h : d ∈ (reapAll cs s).children) :
    d ∈ s.children ∧ ∀ c ∈ cs, c.status.isSome = true → d.pid ≠ c.pid := by
  induction cs generalizing s with
  | nil => exact ⟨h, by simp⟩
  | cons c cs ih =>
    rw [reapAll] at h
    cases hc : c.status with
    | none =>
      rw [hc] at h
      obtain ⟨hd, hcs⟩ := ih h
      refine ⟨hd, fun c' hc' hs => ?_⟩
      rcases List.mem_cons.mp hc' with rfl | hc'
      · simp [hc] at hs
      · exact hcs c' hc' hs
    | some status =>
      rw [hc] at h
      obtain ⟨hd, hcs⟩ := ih h
      rw [reap_children, List.mem_filter] at hd
      refine ⟨hd.1, fun c' hc' hs => ?_⟩
      rcases List.mem_cons.mp hc' with rfl | hc'
      · simpa using hd.2
      · exact hcs c' hc' hs

lemma AllPending.exec {op : Op} {s s' : State} {i : Answer} {r : op.Res} (h : AllPending s)
    (he : exec op s i = some (r, s')) : AllPending s' := by
  have hf := exec_frame he
  rw [AllPending, hf.pending]
  by_cases hw : op.writesChildren = false
  · rw [hf.children hw]
    exact h
  cases op with
  | fork m flags =>
    rcases exec_fork he with ⟨-, rfl⟩ | ⟨p, -, -, -, -, rfl⟩
    · exact h
    · intro c hc hs
      rcases List.mem_append.mp hc with hc | hc
      · exact h c hc hs
      · rw [List.mem_singleton.mp hc] at hs
        cases hs
  | kill m hard =>
    have hx : s.kill (s.mods m).pid = (r, s') := Option.some.inj he
    unfold State.kill at hx
    split at hx
    · cases hx
      intro c hc hs
      obtain ⟨d, hd, rfl⟩ := List.mem_map.mp hc
      exact h d hd (by split at hs <;> exact hs)
    · cases hx
      exact h
  | _ => exact absurd rfl hw

lemma AllPending.signal {s s' : State} {e : Signal} (h : AllPending s)
    (he : signal s e = some s') : AllPending s' := by
  cases e with
  | childExit pid status =>
    simp only [Manager.signal] at he
    split at he
    · cases he
      exact fun _ _ _ => rfl
    · cases he
  | raiseChld =>
    cases he
    exact fun _ _ _ => rfl
  | raiseTerm =>
    cases he
    exact h
  | deliverChld =>
    simp only [Manager.signal] at he
    split at he
    · cases he
      intro d hd hs
      obtain ⟨hd, hn⟩ := mem_reapAll_children hd
      exact absurd rfl (hn d hd hs)
    · cases he
  | deliverTerm =>
    simp only [Manager.signal] at he
    split at he
    · cases he
      exact h
    · cases he

lemma Recorded.reap {m : Mod} {s : State} (h : Recorded m s) (dead status : Int) :
    Recorded m (reap dead status s) :=
  ⟨by rw [reap_needsRestart, h.1, Bool.true_or], reap_modsDirty dead status s h.2⟩

lemma reap_recorded {m : Mod} {s : State} {dead status : Int} (hr : (s.mods m).state = .running)
    (hp : dead = (s.mods m).pid) : Recorded m (reap dead status s) := by
  have hd : (s.mods m).dies dead = true := by simp [Module.dies, hp, hr]
  refine ⟨by rw [reap_needsRestart, hd, Bool.or_true], ?_⟩
  rw [reap_modsDirty_eq, Bool.or_eq_true]
  exact Or.inr (List.any_eq_true.mpr ⟨m, mem_mods m, hd⟩)

lemma reapAll_recorded {m : Mod} {cs : List Child} {s : State} (hm : s.mask.chld = false)
    (hr : (s.mods m).state = .running)
    (hc : ∃ c ∈ cs, c.status.isSome = true ∧ c.pid = (s.mods m).pid) :
    Recorded m (reapAll cs s) := by
  induction cs generalizing s with
  | nil => simp at hc
  | cons c cs ih =>
    obtain ⟨d, hd, hs, hp⟩ := hc
    rw [reapAll]
    cases hst : c.status with
    | none =>
      rcases List.mem_cons.mp hd with rfl | hd
      · simp [hst] at hs
      · exact ih hm hr ⟨d, hd, hs, hp⟩
    | some status =>
      by_cases hcp : c.pid = (s.mods m).pid
      · exact reapAll_keeps (P := Recorded m) (fun s dead status _ h => h.reap dead status) cs _
          (by simpa using hm) (reap_recorded hr hcp)
      · rcases List.mem_cons.mp hd with rfl | hd
        · exact absurd hp hcp
        · have he : (reap c.pid status s).mods m = s.mods m := by
            rw [reap_mods, Module.onDeath, if_neg fun h => hcp h.1]
          exact ih (by simpa using hm) (by rwa [he]) ⟨d, hd, hs, by rwa [he]⟩

lemma Fallen.deliverChld {m : Mod} {s s' : State} (h : Fallen m s)
    (hs : signal s .deliverChld = some s') : Recorded m s' := by
  simp only [signal] at hs
  split at hs
  case isTrue hp =>
    cases hs
    simp only [Bool.and_eq_true, Bool.not_eq_true'] at hp
    exact reapAll_recorded hp.2 h.1 h.2
  case isFalse => cases hs

lemma fallen_of_change {m : Mod} {s s' : State} (hs : signal s .deliverChld = some s')
    (h : s'.mods m ≠ s.mods m) : Fallen m s := by
  simp only [signal] at hs
  split at hs
  case isTrue =>
    cases hs
    have hf := reapAll_changes h
    exact hf
  case isFalse => cases hs

/-! ### Until the module is handled -/

def unhandled (m : Mod) (l : Option Op) (_ : State) (i : Input Answer Signal) : Prop :=
  ∀ a, i = .main a → l ≠ some (.clearNeedsRestart m)

lemma waiting_resists (m : Mod) : Resists fun s => (s.mods m).needsRestart = true where
  pending _ _ h := h
  childExit _ _ _ h := h
  reap s dead status _ h := by rw [reap_needsRestart, h, Bool.true_or]
  term _ _ h := h

def fallen (s : State) : Bool := mods.any fun m => (s.mods m).state = .running &&
  s.children.any fun c => c.status.isSome && c.pid = (s.mods m).pid

lemma fallen_iff {s : State} : fallen s = true ↔ ∃ m, Fallen m s := by
  simp only [fallen, List.any_eq_true, Bool.and_eq_true, decide_eq_true_eq, Fallen]
  exact ⟨fun ⟨m, _, h⟩ => ⟨m, h⟩, fun ⟨m, h⟩ => ⟨m, mem_mods m, h⟩⟩

def SleepsAt (l : Option Op) (s : State) : Prop :=
  ∀ fds nfds, l = some (.pollEnter fds nfds) → NoneWaiting s

/-- The handler marks no module between the read of `mods_dirty` and the `poll()`, except where the
loop is going to find `sessions_dirty` set. -/
def awake (l : Option Op) (s : State) (i : Input Answer Signal) : Bool :=
  match i with
  | .async .deliverChld => match l with
    | some .getSessionsDirty => s.sessionsDirty || !fallen s
    | some (.pollEnter _ _) => !fallen s
    | _ => true
  | _ => true

lemma signal_mods {s s' : State} {e : Signal} (hs : signal s e = some s') (m : Mod)
    (h : e ≠ .deliverChld ∨ fallen s = false) : s'.mods m = s.mods m := by
  cases e with
  | deliverChld =>
    by_contra hne
    rcases h with h | h
    · exact h rfl
    · have hf := fallen_iff.mpr ⟨m, fallen_of_change hs hne⟩
      rw [h] at hf
      cases hf
  | raiseChld =>
    cases hs
    rfl
  | raiseTerm =>
    cases hs
    rfl
  | childExit pid status =>
    simp only [signal] at hs
    split at hs
    · cases hs
      rfl
    · cases hs
  | deliverTerm =>
    obtain ⟨-, p, rfl⟩ := signal_deliverTerm hs
    rfl

lemma resists_sessionsDirty (b : Bool) : Resists fun s => s.sessionsDirty = b where
  pending _ _ h := h
  childExit _ _ _ h := h
  reap s dead status _ h := (reap_sessionsDirty dead status s).trans h
  term _ _ h := h

section Sleep

abbrev sleepRules : Rules Op.Res State Answer Signal :=
  rules (fun l s i => awake l s i = true ∧ (s.status = .stopped ∨ Raised s)) SleepsAt

variable {op : Op} {m : Mod}

lemma sleepsAt (hn : ∀ fds nfds, op ≠ .pollEnter fds nfds) (s : State) : SleepsAt (some op) s :=
  fun fds nfds he => absurd (Option.some.inj he) (hn fds nfds)

lemma sleep_keeps (hn : ∀ fds nfds, op ≠ .pollEnter fds nfds) :
    sleepRules.Keeps (fun _ => True) op :=
  (Resists.const True).atomic (fun s _ => sleepsAt hn s) fun _ _ _ _ _ _ _ => trivial

lemma sleep_none : sleepRules.Holds none fun _ => True :=
  (Resists.const True).holds fun _ _ => nofun

lemma loopTest_sleep : sleepRules.Atomic .loopTest (fun _ => True)
    fun b s => cond b (Raised s) True := by
  apply (Resists.const True).atomic fun s _ => sleepsAt (by simp) s
  intro s i b s' _ hok he
  cases he
  by_cases hr : s.status = .running
  · rw [decide_eq_true hr]
    refine hok.2.resolve_left fun hs => ?_
    rw [hr] at hs
    cases hs
  · rw [decide_eq_false hr]
    trivial

def Awake (s : State) : Prop := NoneWaiting s ∨ s.sessionsDirty = true

lemma modsDirty_sleep : sleepRules.Atomic .modsDirty Raised fun b s => cond b True (Awake s) := by
  apply Raised.resists.atomic fun s _ => sleepsAt (by simp) s
  intro s i b s' h _ he
  cases he
  cases hb : s.modsDirty with
  | true => trivial
  | false =>
    refine Or.inl fun m => ?_
    by_contra hm
    have hd := h m (by simpa using hm)
    rw [hb] at hd
    cases hd

lemma NoneWaiting.signal {s s' : State} {e : Signal} (h : NoneWaiting s)
    (hs : Manager.signal s e = some s') (hf : e = .deliverChld → fallen s = false) :
    NoneWaiting s' := by
  intro m
  rw [signal_mods hs m (not_or_of_imp hf)]
  exact h m

lemma getSessionsDirty_sleep : sleepRules.Atomic .getSessionsDirty Awake
    fun b s => cond b True (NoneWaiting s) := by
  refine ⟨⟨fun s e s' h hok hs => ?_, fun s _ => sleepsAt (by simp) s⟩, fun s i b s' h _ _ he => ?_⟩
  · rcases h with h | h
    · by_cases hd : s.sessionsDirty = true
      · exact Or.inr ((resists_sessionsDirty true).signal hd hs)
      · refine Or.inl (h.signal hs ?_)
        rintro rfl
        have ha := hok.1
        simp only [awake, hd, Bool.false_or, Bool.not_eq_true'] at ha
        exact ha
    · exact Or.inr ((resists_sessionsDirty true).signal h hs)
  · cases he
    cases hb : s.sessionsDirty with
    | true => trivial
    | false => exact h.resolve_right (by simp [hb])

lemma pollEnter_sleep (fds : List Int) (nfds : ℕ) :
    sleepRules.Atomic (.pollEnter fds nfds) NoneWaiting fun _ _ => True := by
  refine ⟨⟨fun s e s' h hok hs => h.signal hs ?_, fun s h _ _ _ => h⟩, fun _ _ _ _ _ _ _ _ => trivial⟩
  rintro rfl
  simpa [awake] using hok.1

lemma sleep_uses {α : Type} {p : Code α} {A : Op → Prop} (h : p.Uses A)
    (hA : ∀ op, A op → ∀ fds nfds, op ≠ .pollEnter fds nfds) :
    sleepRules.Valid (fun _ => True) p fun _ _ => True :=
  .of_uses sleep_none (h.mono fun op ho => sleep_keeps (hA op ho))

lemma main_sleep (bot server : Bool) :
    sleepRules.Valid (fun _ => True) (main bot server) fun _ _ => True := by
  have hinit (m : Mod) : sleepRules.Valid (fun _ => True) (doModuleInit m) fun _ _ => True :=
    sleep_uses (doModuleInit_uses m) fun op h => by rintro fds nfds rfl; cases h
  have hexit (m : Mod) : sleepRules.Valid (fun _ => True) (doModuleExit m) fun _ _ => True :=
    sleep_uses (doModuleExit_uses m) fun op h => by rintro fds nfds rfl; cases h
  have hrestart (op : Op) (h : op.ofRestart = true) : sleepRules.Keeps (fun _ => True) op :=
    sleep_keeps (by rintro fds nfds rfl; cases h)
  have hserved : Served sleepRules (fun _ => True) fun _ _ => True :=
    served_of_session sleep_none (fun op h => sleep_keeps (by rintro fds nfds rfl; cases h))
      (runCommand_of_keeps hrestart hinit hexit)
  have hclean : sleepRules.Valid (fun _ => True) managerCleanupDirt fun _ _ => True :=
    managerCleanupDirt_valid (hrestart _ rfl)
      (fun _ => restartMods_of_keeps sleep_none hrestart hinit hexit)
      (fun _ => sleep_keeps (by simp)) fun _ => hrestart _ rfl
  have hsetup : sleepRules.Valid (fun _ => True) setupPollFds fun _ _ => True :=
    sleep_uses setupPollFds_uses fun op h => by rintro fds nfds rfl; cases h
  have hstop : sleepRules.Valid (fun _ => True) shutdownManager fun _ _ => True :=
    shutdownManager_valid (hrestart _ rfl) (sleep_keeps (by simp)) (sleep_keeps (by simp))
      (sleep_keeps (by simp)) hexit
  refine main_valid hinit (sleep_keeps (by simp)) (hsetup.bind fun fds => ?_) bot server
  refine Valid.bind (Q := fun _ _ => True) ?_ fun _ => hstop
  refine .iterate (I := fun _ _ => True) (fun _ => sleep_none) (fun fds => ?_) fds
  refine (loopBody_valid (Q := fun _ _ => True) loopTest_sleep modsDirty_sleep
    getSessionsDirty_sleep hclean hsetup (pollEnter_sleep fds.1 fds.2) (sleep_keeps (by simp))
    hserved.serviceFds fun _ _ => trivial).strengthen fun r s _ => ?_
  cases r <;> trivial

end Sleep

theorem sleeps_of_awake (b : Boot) (bot server : Bool) {c : Config Op.Res State Unit}
    (h : machine.Reaches (fun l s i => awake l s i = true) (start b bot server) c) :
    SleepsAt c.prog.next c.st := by
  refine (main_sleep bot server).guarantee (s := b.state) (fun _ => sleep_none) trivial ?_
  refine h.strengthen fun d hd i hok => ⟨hok, ?_⟩
  exact (noticed b bot server (hd.mono fun _ _ _ _ => trivial)).raised

theorem death_slept_on : ¬ ∀ (b : Boot) (bot server : Bool) (c : Config Op.Res State Unit),
    machine.Reaches (fun _ _ _ => True) (start b bot server) c → SleepsAt c.prog.next c.st := by
  have hrun : (follow (fun _ _ _ => True) (start .terminal true false)
      (launching .tsBot ⟨false, false⟩ 4 5 10 ++ dying (.pollEnter [3, 4] 2) 10)).map
      (fun c => (c.prog.next, (c.st.mods .tsBot).needsRestart)) =
      some (some (.pollEnter [3, 4] 2), true) := by decide
  obtain ⟨c, hc, he⟩ := Option.map_eq_some_iff.mp hrun
  simp only [Prod.mk.injEq] at he
  intro h
  have hn := h _ _ _ c (Machine.reaches_of_follow hc) _ _ he.1 .tsBot
  rw [he.2] at hn
  cases hn

set_option maxRecDepth 4000 in
theorem sleeps_of_awake_restart : ∃ c : Config Op.Res State Unit,
    c.prog.next = some (.pollEnter [3, 4] 2) ∧ c.st.log =
      [.launched .tsBot, .failed .tsBot, .retrying .tsBot, .died .tsBot, .launched .tsBot] ∧
      SleepsAt c.prog.next c.st := by
  have hrun : (follow (fun l s i => awake l s i = true) (start .terminal true false)
      (launching .tsBot ⟨false, false⟩ 4 5 10 ++ dying (.pollReturn 2) 10 ++
        launching .tsBot ⟨true, true⟩ 4 5 11 ++
        [(.pollEnter [3, 4] 2, .async .raiseChld)])).map (fun c => (c.prog.next, c.st.log)) =
      some (some (.pollEnter [3, 4] 2),
        [.launched .tsBot, .failed .tsBot, .retrying .tsBot, .died .tsBot, .launched .tsBot]) := by
    decide
  obtain ⟨c, hc, he⟩ := Option.map_eq_some_iff.mp hrun
  simp only [Prod.mk.injEq] at he
  exact ⟨c, he.1, he.2, sleeps_of_awake .terminal true false (Machine.reaches_of_follow hc)⟩

end TeamspeakWebserver.Manager
