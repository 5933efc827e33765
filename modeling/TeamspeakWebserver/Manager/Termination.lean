import TeamspeakWebserver.Manager.Composition
import TeamspeakWebserver.Manager.Frame
import TeamspeakWebserver.Manager.Interference

/-! What becomes of a request to terminate. -/

namespace TeamspeakWebserver.Manager

open Interruptible Prog Rules Sessions

def TerminatedAt (l : Option Op) (s : State) : Prop :=
  .terminated ∈ s.log → s.status = .stopped ∧ ∀ fds nfds, l ≠ some (.pollEnter fds nfds)

/-- The request comes once `main` has set the status, and not between the loop's test of it and
the `poll()`, except where the loop is going to find something dirty first. -/
def heard (l : Option Op) (s : State) (i : Input Answer Signal) : Bool :=
  match i with
  | .async .deliverTerm => s.status ≠ .starting && match l with
    | some .modsDirty => s.modsDirty || s.sessionsDirty
    | some .getSessionsDirty => s.sessionsDirty
    | some (.pollEnter _ _) => false
    | _ => true
  | _ => true

def Stopping (s : State) : Prop := .terminated ∈ s.log → s.status = .stopped

def Unasked (s : State) : Prop := .terminated ∉ s.log

section Walk

abbrev termRules : Rules Op.Res State Answer Signal :=
  rules (fun l s i => heard l s i = true) TerminatedAt

variable {op : Op} {m : Mod} {P : State → Prop} {l : Option Op}

lemma reap_terminated (dead status : Int) (s : State) :
    .terminated ∈ (reap dead status s).log ↔ .terminated ∈ s.log := by
  rw [reap_log]
  simp

lemma Stopping.resists : Resists Stopping where
  pending _ _ h := h
  childExit _ _ _ h := h
  reap s dead status _ h ht := by
    rw [reap_status]
    exact h ((reap_terminated dead status s).mp ht)
  term _ _ _ _ := rfl

lemma Unasked.survives : Survives Unasked where
  pending _ _ h := h
  childExit _ _ _ h := h
  reap s dead status _ h ht := h ((reap_terminated dead status s).mp ht)

lemma Survives.holds (h : Survives P) (hG : ∀ s, P s → TerminatedAt l s)
    (ht : ∀ s p, P s → heard l s (.async .deliverTerm) = true → P (termHandler (s.setPending p))) :
    termRules.Holds l P where
  stable s e s' hs hok he := by
    by_cases hn : e = .deliverTerm
    · subst hn
      obtain ⟨-, p, rfl⟩ := signal_deliverTerm he
      exact ht s p hs hok
    · exact h.signal hs hn he
  guarantee := hG

lemma stopping_at (hn : ∀ fds nfds, op ≠ .pollEnter fds nfds) (s : State) (h : Stopping s) :
    TerminatedAt (some op) s :=
  fun ht => ⟨h ht, fun fds nfds he => hn fds nfds (Option.some.inj he)⟩

lemma stopping_none : termRules.Holds none Stopping :=
  Stopping.resists.holds fun _ h ht => ⟨h ht, fun _ _ => nofun⟩

lemma stopping_keeps (hn : ∀ fds nfds, op ≠ .pollEnter fds nfds) (hs : op.writesStatus = false)
    (hl : ∀ s i r s', exec op s i = some (r, s') → .terminated ∈ s'.log → .terminated ∈ s.log) :
    termRules.Keeps Stopping op := by
  apply Stopping.resists.atomic (stopping_at hn)
  intro s i r s' h _ he ht
  rw [(exec_frame he).status hs]
  exact h (hl s i r s' he ht)

lemma stopping_frame (hn : ∀ fds nfds, op ≠ .pollEnter fds nfds) (hs : op.writesStatus = false)
    (hl : op.writesLog = false) : termRules.Keeps Stopping op := by
  apply stopping_keeps hn hs
  intro s i r s' he ht
  rwa [(exec_frame he).log hl] at ht

lemma stopping_module (h : op.on m = true ∨ op.ofRestart = true) :
    termRules.Keeps Stopping op := by
  cases op with
  | fork m' flags =>
    apply stopping_keeps (by simp) rfl
    intro s i r s' he ht
    rcases exec_fork he with ⟨-, rfl⟩ | ⟨p, -, -, -, -, rfl⟩
    · exact ht
    · simpa using ht
  | bumpFails m' =>
    apply stopping_keeps (by simp) rfl
    intro s i r s' he ht
    cases he
    simpa using ht
  | note e =>
    apply stopping_keeps (by simp) rfl
    intro s i r s' he ht
    cases he
    have hne : e ≠ .terminated := by simpa [Op.on, Op.ofRestart] using h
    simpa [hne.symm] using ht
  | pollEnter fds nfds => simp [Op.on, Op.ofRestart] at h
  | setStatus st => simp [Op.on, Op.ofRestart] at h
  | _ => exact stopping_frame (by simp) rfl rfl

lemma doModuleInit_stopping (m : Mod) :
    termRules.Valid Stopping (doModuleInit m) fun _ => Stopping :=
  .of_uses stopping_none ((doModuleInit_uses m).mono fun _ h => stopping_module (Or.inl h))

lemma doModuleExit_stopping (m : Mod) :
    termRules.Valid Stopping (doModuleExit m) fun _ => Stopping :=
  .of_uses stopping_none ((doModuleExit_uses m).mono fun _ h => stopping_module (Or.inl h))

lemma stopping_restart (op : Op) (h : op.ofRestart = true) : termRules.Keeps Stopping op :=
  stopping_module (m := .tsBot) (Or.inr h)

lemma served_stopping : Served termRules Stopping fun _ => Stopping := by
  apply served_of_session stopping_none
  · intro op h
    cases op with
    | setStatus st =>
      cases st with
      | stopped =>
        exact Stopping.resists.det (stopping_at (by simp)) (fun _ _ => rfl) fun _ _ _ => rfl
      | starting => cases h
      | running => cases h
    | _ => first
      | (cases h; done)
      | exact stopping_frame (by simp) rfl rfl
  · exact runCommand_of_keeps stopping_restart doModuleInit_stopping doModuleExit_stopping

lemma setupPollFds_stopping : termRules.Valid Stopping setupPollFds fun _ => Stopping := by
  apply Valid.of_uses stopping_none
  apply setupPollFds_uses.mono
  intro op h
  cases op <;> first | (cases h; done) | exact stopping_frame (by simp) rfl rfl

lemma managerCleanupDirt_stopping :
    termRules.Valid Stopping managerCleanupDirt fun _ => Stopping := by
  have hrestart : termRules.Valid Stopping restartMods fun _ => Stopping :=
    restartMods_of_keeps stopping_none stopping_restart doModuleInit_stopping doModuleExit_stopping
  exact managerCleanupDirt_valid (stopping_restart _ rfl) (fun _ => hrestart)
    (fun _ => stopping_frame (by simp) rfl rfl) fun _ => stopping_restart _ rfl

def Dirty (mods : Bool) (s : State) : Prop := Stopping s ∧
  (.terminated ∈ s.log → (mods = true ∧ s.modsDirty = true) ∨ s.sessionsDirty = true)

lemma Dirty.survives (mods : Bool) : Survives (Dirty mods) where
  pending _ _ h := h
  childExit _ _ _ h := h
  reap s dead status hm h := by
    refine ⟨Stopping.resists.reap s dead status hm h.1, fun ht => ?_⟩
    rw [reap_sessionsDirty]
    rcases h.2 ((reap_terminated dead status s).mp ht) with hd | hd
    · exact Or.inl ⟨hd.1, reap_modsDirty dead status s hd.2⟩
    · exact Or.inr hd

lemma loopTest_stopping : termRules.Atomic .loopTest Stopping
    fun b s => cond b (Dirty true s) (Stopping s) := by
  apply Stopping.resists.atomic (stopping_at (by simp))
  intro s i b s' h _ he
  cases he
  by_cases hr : s.status = .running
  · rw [decide_eq_true hr]
    refine ⟨h, fun ht => ?_⟩
    rw [h ht] at hr
    cases hr
  · rw [decide_eq_false hr]
    exact h

lemma modsDirty_stopping : termRules.Atomic .modsDirty (Dirty true)
    fun b s => cond b (Stopping s) (Dirty false s) := by
  constructor
  · apply (Dirty.survives true).holds fun s h => stopping_at (by simp) s h.1
    intro s p h hok
    refine ⟨fun _ => rfl, fun _ => ?_⟩
    simp only [heard, Bool.and_eq_true, Bool.or_eq_true] at hok
    rcases hok.2 with hd | hd
    · exact Or.inl ⟨rfl, hd⟩
    · exact Or.inr hd
  · intro s i r s' h _ _ he
    cases he
    cases hb : s.modsDirty with
    | true => exact h.1
    | false =>
      refine ⟨h.1, fun ht => (h.2 ht).imp_left fun hd => ?_⟩
      rw [hd.2] at hb
      cases hb

lemma getSessionsDirty_stopping : termRules.Atomic .getSessionsDirty (Dirty false)
    fun b s => cond b (Stopping s) (Unasked s) := by
  constructor
  · apply (Dirty.survives false).holds fun s h => stopping_at (by simp) s h.1
    intro s p h hok
    refine ⟨fun _ => rfl, fun _ => ?_⟩
    simp only [heard, Bool.and_eq_true] at hok
    exact Or.inr hok.2
  · intro s i r s' h _ _ he
    cases he
    cases hb : s.sessionsDirty with
    | true => exact h.1
    | false =>
      intro ht
      rcases h.2 ht with hd | hd
      · cases hd.1
      · rw [hb] at hd
        cases hd

lemma pollEnter_stopping (fds : List Int) (nfds : ℕ) :
    termRules.Atomic (.pollEnter fds nfds) Unasked fun _ => Stopping := by
  constructor
  · apply Unasked.survives.holds fun s h ht => absurd ht h
    intro s p h hok
    simp [heard] at hok
  · intro s i r s' h _ _ he ht
    cases he
    exact absurd ht h

lemma loopBody_stopping (fds : List Int × ℕ) :
    termRules.Valid Stopping (loopBody fds) fun _ => Stopping :=
  loopBody_valid loopTest_stopping modsDirty_stopping getSessionsDirty_stopping
    managerCleanupDirt_stopping setupPollFds_stopping (pollEnter_stopping fds.1 fds.2)
    (stopping_frame (by simp) rfl rfl) served_stopping.serviceFds fun _ hs => hs

def Starting (s : State) : Prop := s.status = .starting ∧ Unasked s

lemma Starting.survives : Survives Starting where
  pending _ _ h := h
  childExit _ _ _ h := h
  reap s dead status hm h :=
    ⟨(reap_status dead status s).trans h.1, Unasked.survives.reap s dead status hm h.2⟩

lemma starting_holds (l : Option Op) : termRules.Holds l Starting := by
  apply Starting.survives.holds fun s h ht => absurd ht h.2
  intro s p h hok
  simp [heard, h.1] at hok

lemma starting_on (h : op.On m) : termRules.Keeps Starting op := by
  have hst : op.writesStatus = false := by cases op <;> first | rfl | cases h
  refine ⟨starting_holds _, fun s i r s' hs _ _ he => ?_⟩
  have hf : Frame op s s' := exec_frame he
  refine ⟨(hf.status hst).trans hs.1, fun ht => hs.2 ?_⟩
  cases op with
  | fork m' flags =>
    rcases exec_fork he with ⟨-, rfl⟩ | ⟨p, -, -, -, -, rfl⟩
    · exact ht
    · simpa using ht
  | _ => first
    | (cases h; done)
    | exact hf.log rfl ▸ ht

lemma main_stopping (bot server : Bool) :
    termRules.Valid Starting (main bot server) fun _ => Stopping := by
  have hinit (m : Mod) : termRules.Valid Starting (doModuleInit m) fun _ => Starting :=
    .of_uses (starting_holds _) ((doModuleInit_uses m).mono fun _ => starting_on)
  have hset : termRules.Atomic (.setStatus .running) Starting fun _ => Stopping := by
    refine ⟨starting_holds _, fun s i r s' hs _ _ he ht => ?_⟩
    cases he
    exact absurd ht hs.2
  have hstop : termRules.Valid Stopping shutdownManager fun _ => Stopping :=
    shutdownManager_valid (stopping_restart _ rfl) (stopping_frame (by simp) rfl rfl)
      (stopping_frame (by simp) rfl rfl) (stopping_frame (by simp) rfl rfl) doModuleExit_stopping
  refine main_valid hinit hset (setupPollFds_stopping.bind fun fds => ?_) bot server
  refine Valid.bind (Q := fun _ => Stopping) ?_ fun _ => hstop
  exact .iterate (I := fun _ => Stopping) (fun _ => stopping_none)
    (fun fds => (loopBody_stopping fds).strengthen fun r s hs => by cases r <;> exact hs) fds

end Walk

theorem terminated_of_heard (b : Boot) (bot server : Bool) {c : Config Op.Res State Unit}
    (h : machine.Reaches (fun l s i => heard l s i = true) (start b bot server) c) :
    TerminatedAt c.prog.next c.st :=
  (main_stopping bot server).guarantee (s := b.state) (fun _ => stopping_none)
    ⟨rfl, fun ht => by cases ht⟩ h

theorem termination_lost : ¬ ∀ (b : Boot) (bot server : Bool) (c : Config Op.Res State Unit),
    machine.Reaches (fun _ _ _ => True) (start b bot server) c →
      TerminatedAt c.prog.next c.st := by
  have hrun : (follow (fun _ _ _ => True) (start .terminal false false)
      [(.setStatus .running, .async .raiseTerm), (.setStatus .running, .async .deliverTerm),
        (.setStatus .running, .main .ok)]).map (fun c => (c.st.log, c.st.status)) =
      some ([.terminated], .running) := by decide
  obtain ⟨c, hc, he⟩ := Option.map_eq_some_iff.mp hrun
  simp only [Prod.mk.injEq] at he
  intro h
  have ht := (h _ _ _ c (Machine.reaches_of_follow hc) (by simp [he.1])).1
  rw [he.2] at ht
  cases ht

set_option maxRecDepth 4000 in
theorem terminated_of_heard_poll : ∃ c : Config Op.Res State Unit,
    c.st.log = [.terminated] ∧ c.prog.next = some .closeSessionHandler ∧
      TerminatedAt c.prog.next c.st := by
  have hrun : (follow (fun l s i => heard l s i = true) (start .terminal false false)
      [(.pollReturn 1, .async .raiseTerm), (.pollReturn 1, .async .deliverTerm),
        (.closeSessionHandler, .async .raiseChld)]).map (fun c => (c.st.log, c.prog.next)) =
      some ([.terminated], some .closeSessionHandler) := by decide
  obtain ⟨c, hc, he⟩ := Option.map_eq_some_iff.mp hrun
  simp only [Prod.mk.injEq] at he
  exact ⟨c, he.1, he.2, terminated_of_heard .terminal false false (Machine.reaches_of_follow hc)⟩

end TeamspeakWebserver.Manager
