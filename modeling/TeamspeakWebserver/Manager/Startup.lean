import TeamspeakWebserver.Manager.Deaths
import TeamspeakWebserver.Manager.Retries

/-! The deaths that are recorded before `main` sets the status to `RUNNING`. -/

namespace TeamspeakWebserver.Manager

open Interruptible Prog Rules Sessions

/-- `child_death_handler` records the death of the module while the status is `STARTING`. -/
structure DiesOnStartup (m : Mod) (c d : Config Op.Res State Unit) : Prop where
  starting : c.st.status = .starting
  handler : machine.step c (.async .deliverChld) = some d
  running : (c.st.mods m).state = .running
  dead : (d.st.mods m).state = .dead

/-- Since `s`, `needs_restart` has been cleared, and the module has neither been relaunched nor has
its `num_fails` been increased. -/
structure StartupFailure (m : Mod) (s s' : State) : Prop where
  cleared : (s'.mods m).needsRestart = false
  off : s'.log.count (.launched m) = s.log.count (.launched m)
  free : s'.log.count (.failed m) = s.log.count (.failed m)

section Log

lemma exec_log {op : Op} {s s' : State} {i : Answer} {r : op.Res} (he : exec op s i = some (r, s')) :
    s.log <:+ s'.log := by
  cases op with
  | fork m flags =>
    rcases exec_fork he with ⟨-, rfl⟩ | ⟨p, -, -, -, -, rfl⟩
    · exact List.suffix_rfl
    · exact List.suffix_cons _ _
  | bumpFails m =>
    cases he
    exact List.suffix_cons _ _
  | note e =>
    cases he
    exact List.suffix_cons _ _
  | _ =>
    rw [(exec_frame he).log rfl]

lemma log_resists (l : List Event) : Resists fun s => l <:+ s.log where
  pending _ _ h := h
  childExit _ _ _ h := h
  reap s dead status _ h := by
    rw [reap_log]
    exact h.trans (List.suffix_append _ _)
  term s _ h := h.trans (List.suffix_cons _ _)

lemma log_grows {ok : Condition Op State Answer Signal} {c d : Config Op.Res State Unit}
    (h : machine.Reaches ok c d) : c.st.log <:+ d.st.log :=
  h.keeps (J := fun s => c.st.log <:+ s.log) (fun _ _ _ _ _ hs he => hs.trans (exec_log he))
    (fun _ _ _ hs he => (log_resists _).signal hs he) List.suffix_rfl

lemma log_step {c d : Config Op.Res State Unit} {i : Input Answer Signal}
    (h : machine.step c i = some d) : c.st.log <:+ d.st.log :=
  log_grows (show machine.Reaches (fun _ _ _ => True) c d from Machine.Reaches.refl.tail i trivial h)

lemma head_of_suffix {l l' : List Event} {e : Event} (h : l <:+ l') (hc : l'.count e = l.count e)
    (hl : l.head? ≠ some e) : l'.head? ≠ some e := by
  obtain ⟨new, rfl⟩ := h
  cases new with
  | nil => exact hl
  | cons e' new =>
    intro he
    obtain rfl := Option.some.inj he
    simp only [List.cons_append, List.count_cons_self, List.count_append] at hc
    omega

end Log

/-! ### What the handler leaves behind -/

structure Waits (m : Mod) (s : State) : Prop where
  marked : (s.mods m).needsRestart = true
  spare : (s.mods m).numFails < maxFailForStop
  fresh : s.log.head? ≠ some (.launched m)

section Death

variable {m : Mod} {c d : Config Op.Res State Unit}

lemma Waits.unhandled {s : State} (h : Waits m s) : ¬ Handled m s := by
  rintro (⟨-, hl⟩ | ⟨-, hn⟩)
  · exact h.fresh hl
  · exact absurd h.spare (UInt32.not_lt.mpr hn)

lemma reap_head {dead status : Int} {s : State}
    (h : (s.mods m).dies dead = true ∨ s.log.head? ≠ some (.launched m)) :
    (reap dead status s).log.head? ≠ some (.launched m) := by
  rw [reap_log, ← List.map_reverse]
  cases hms : (mods.filter fun m => (s.mods m).dies dead).reverse with
  | nil =>
    refine h.resolve_left fun hd => ?_
    rw [List.reverse_eq_nil_iff, List.filter_eq_nil_iff] at hms
    exact hms m (mem_mods m) hd
  | cons m' ms => simp

lemma running_or_marked (m : Mod) : Resists fun s => (s.mods m).state = .running ∨
    ((s.mods m).needsRestart = true ∧ s.log.head? ≠ some (.launched m)) where
  pending _ _ h := h
  childExit _ _ _ h := h
  reap s dead status _ h := by
    rw [reap_needsRestart]
    by_cases hd : (s.mods m).dies dead = true
    · exact Or.inr ⟨by rw [hd, Bool.or_true], reap_head (Or.inl hd)⟩
    · refine h.imp (fun hrun => ?_) fun h => ⟨by rw [h.1, Bool.true_or], reap_head (Or.inr h.2)⟩
      rw [Module.dies, decide_eq_true_eq] at hd
      rw [reap_mods, Module.onDeath, if_neg hd, hrun]
  term _ _ h := h.imp id fun h => ⟨h.1, by simp [termHandler, State.record]⟩

lemma DiesOnStartup.signal (h : DiesOnStartup m c d) :
    Manager.signal c.st .deliverChld = some d.st := by
  obtain ⟨s', hs, rfl⟩ := Option.map_eq_some_iff.mp h.handler
  exact hs

lemma DiesOnStartup.marked (h : DiesOnStartup m c d) :
    (d.st.mods m).needsRestart = true ∧ d.st.log.head? ≠ some (.launched m) := by
  refine ((running_or_marked m).signal (Or.inl h.running) h.signal).resolve_left fun hrun => ?_
  have hdead := h.dead
  rw [hrun] at hdead
  cases hdead

end Death

/-! ### The status before `main` sets it -/

section Walk

structure StartedAt (l : Option Op) (s : State) : Prop where
  uncharged : s.status = .starting → ∀ m, (s.mods m).numFails = 0
  begun : l = some (.statusIs .starting) → s.status ≠ .starting

abbrev startRules : Rules Op.Res State Answer Signal := rules (fun _ _ _ => True) StartedAt

def Untried (s : State) : Prop := ∀ m, (s.mods m).numFails = 0

def Begun (s : State) : Prop := s.status ≠ .starting

variable {op : Op}

lemma Untried.resists : Resists Untried := .forall_mods fun m => resists_numFails m 0

lemma Begun.resists : Resists Begun where
  pending _ _ h := h
  childExit _ _ _ h := h
  reap _ _ _ _ h := by rwa [Begun, reap_status]
  term _ _ _ := by simp [Begun, termHandler, State.record]

lemma Begun.startedAt {l : Option Op} {s : State} (h : Begun s) : StartedAt l s :=
  ⟨fun hs => absurd hs h, fun _ => h⟩

lemma begun_none : startRules.Holds none Begun := Begun.resists.holds fun _ h => h.startedAt

lemma untried_on {m : Mod} (h : op.On m) : startRules.Keeps Untried op := by
  apply Untried.resists.atomic
  · refine fun s hs => ⟨fun _ => hs, fun he => ?_⟩
    cases he
    cases h
  · intro s i r s' hs _ he m'
    rw [exec_numFails (by rintro rfl; cases h) he]
    exact hs m'

lemma begun_keeps (h : op ≠ .setStatus .starting) : startRules.Keeps Begun op := by
  refine Begun.resists.atomic (fun _ hs => hs.startedAt) fun s i r s' hs _ he => ?_
  cases op with
  | setStatus st =>
    cases he
    rintro rfl
    exact h rfl
  | _ => rwa [Begun, (exec_frame he).status rfl]

lemma begun_uses {α : Type} {p : Code α} {A : Op → Prop} (h : p.Uses A)
    (hA : ¬ A (.setStatus .starting)) : startRules.Valid Begun p fun _ => Begun :=
  .of_uses begun_none (h.mono fun _ ho => begun_keeps fun he => hA (he ▸ ho))

lemma main_begun (bot server : Bool) :
    startRules.Valid Untried (main bot server) fun _ => Begun := by
  have hinit (m : Mod) : startRules.Valid Begun (doModuleInit m) fun _ => Begun :=
    begun_uses (doModuleInit_uses m) fun h => by cases h
  have hexit (m : Mod) : startRules.Valid Begun (doModuleExit m) fun _ => Begun :=
    begun_uses (doModuleExit_uses m) fun h => by cases h
  have hrestart (op : Op) (h : op.ofRestart = true) : startRules.Keeps Begun op :=
    begun_keeps (by rintro rfl; cases h)
  have hloop : Looped startRules Begun fun _ => Begun :=
    { toServed := served_of_session begun_none (fun op h => begun_keeps (by rintro rfl; cases h))
        (runCommand_of_keeps hrestart hinit hexit)
      holds := begun_none
      loop := fun op h => begun_keeps (by rintro rfl; cases h)
      setup := begun_uses setupPollFds_uses fun h => by cases h
      cleanup := managerCleanupDirt_valid (hrestart _ rfl)
        (fun _ => restartMods_of_keeps begun_none hrestart hinit hexit)
        (fun _ => begun_keeps (by simp)) fun _ => hrestart _ rfl }
  have hstop : startRules.Valid Begun shutdownManager fun _ => Begun :=
    shutdownManager_valid (hrestart _ rfl) (begun_keeps (by simp)) (begun_keeps (by simp))
      (begun_keeps (by simp)) hexit
  refine main_valid (fun m => ?_) ?_ (hloop.startManagerLoop hstop) bot server
  · exact .of_uses (Untried.resists.holds fun _ h => ⟨fun _ => h, fun h' => by cases h'⟩)
      ((doModuleInit_uses m).mono fun _ => untried_on)
  · exact Untried.resists.det (fun _ h => ⟨fun _ => h, fun h' => by cases h'⟩) (fun _ _ => rfl) fun _ _ => by
      simp [Begun]

end Walk

lemma started (b : Boot) (bot server : Bool) {c : Config Op.Res State Unit}
    (h : machine.Reaches (fun _ _ _ => True) (start b bot server) c) : StartedAt c.prog.next c.st :=
  (main_begun bot server).guarantee (s := b.state) (fun _ => begun_none) (fun _ => rfl) h

/-! ### The death is charged like any other -/

section Charged

variable {b : Boot} {bot server : Bool} {m : Mod} {c d e : Config Op.Res State Unit}

lemma DiesOnStartup.waits (h : DiesOnStartup m c d)
    (hc : machine.Reaches (fun _ _ _ => True) (start b bot server) c) : Waits m d.st := by
  have hzero := (started b bot server hc).uncharged h.starting m
  have hnum : (d.st.mods m).numFails = 0 := (resists_numFails m 0).signal hzero h.signal
  refine ⟨h.marked.1, ?_, h.marked.2⟩
  rw [hnum]
  decide

lemma Waits.step (h : Waits m c.st) (hc : machine.Reaches (fun _ _ _ => True) (start b bot server) c)
    {i : Input Answer Signal} (hs : machine.step c i = some d)
    (hl : d.st.log.count (.launched m) = c.st.log.count (.launched m))
    (hf : d.st.log.count (.failed m) = c.st.log.count (.failed m)) : Waits m d.st := by
  have hfresh := head_of_suffix (log_step hs) hl h.fresh
  rcases Machine.step_cases hs with ⟨x, -, he, -⟩ | ⟨a, -, -, ⟨op, r, hn, he⟩ | ⟨-, he⟩⟩
  · refine ⟨(waiting_resists m).signal h.marked he, ?_, hfresh⟩
    rw [(resists_numFails m _).signal rfl he]
    exact h.spare
  · have hclear : op ≠ .clearNeedsRestart m := by
      rintro rfl
      exact h.unhandled ((noticed b bot server hc).handled m hn).2
    have hbump : op ≠ .bumpFails m := by
      rintro rfl
      have hst : d.st.log = .failed m :: c.st.log :=
        congrArg State.log (congrArg Prod.snd (Option.some.inj he)).symm
      rw [hst, List.count_cons_self] at hf
      omega
    refine ⟨(exec_needsRestart hclear he).trans h.marked, ?_, hfresh⟩
    rw [exec_numFails hbump he]
    exact h.spare
  · rw [he]
    exact h

lemma Waits.reaches (h : Waits m c.st) (hc : machine.Reaches (fun _ _ _ => True) (start b bot server) c)
    (hd : machine.Reaches (fun _ _ _ => True) c d)
    (hl : d.st.log.count (.launched m) = c.st.log.count (.launched m))
    (hf : d.st.log.count (.failed m) = c.st.log.count (.failed m)) : Waits m d.st := by
  induction hd with
  | refl => exact h
  | @tail d e i hd _ hs ih =>
    have hcd (x : Event) : c.st.log.count x ≤ d.st.log.count x := (log_grows hd).sublist.count_le x
    have hde (x : Event) : d.st.log.count x ≤ e.st.log.count x :=
      (log_step hs).sublist.count_le x
    have hlc := hcd (.launched m)
    have hld := hde (.launched m)
    have hfc := hcd (.failed m)
    have hfd := hde (.failed m)
    exact (ih (by omega) (by omega)).step (hc.trans hd) hs (by omega) (by omega)

lemma no_startup_failure (hc : machine.Reaches (fun _ _ _ => True) (start b bot server) c)
    (hd : DiesOnStartup m c d) (he : machine.Reaches (fun _ _ _ => True) d e) :
    ¬ StartupFailure m d.st e.st := by
  intro h
  have hstart := hc.tail (.async .deliverChld) trivial hd.handler
  have hw := ((hd.waits hc).reaches hstart he h.off h.free).marked
  rw [h.cleared] at hw
  cases hw

/-- `.statusIs .starting` is the test of `__restart_mods`, and `.setSessionsDirty false` the statement
after the call of `restart_mods`. -/
theorem startup_death_retried (hc : machine.Reaches (fun _ _ _ => True) (start b bot server) c)
    (hd : DiesOnStartup m c d) (he : machine.Reaches (fun _ _ _ => True) d e) :
    (e.prog.next = some (.statusIs .starting) → e.st.status ≠ .starting) ∧
      ¬ StartupFailure m d.st e.st ∧
      (e.prog.next = some (.setSessionsDirty false) → e.st.status = .running →
        (e.st.mods m).needsRestart = false ∧
          (d.st.log.count (.launched m) < e.st.log.count (.launched m) ∨
            d.st.log.count (.failed m) < e.st.log.count (.failed m))) := by
  have hstart := (hc.tail (.async .deliverChld) trivial hd.handler).trans he
  have hno := no_startup_failure hc hd he
  refine ⟨(started b bot server hstart).begun, hno, fun hn hs => ?_⟩
  have hp := (noticed b bot server hstart).passed hn
  rw [hs] at hp
  have hclear := (hp.resolve_left nofun).2 m
  refine ⟨hclear, ?_⟩
  by_contra! hcount
  have hl := (log_grows he).sublist.count_le (.launched m)
  have hf := (log_grows he).sublist.count_le (.failed m)
  exact hno ⟨hclear, by omega, by omega⟩

end Charged

set_option maxRecDepth 4000 in
/-- The bot dies before `main` sets the status, and the first pass relaunches it. -/
lemma startup_death_run : ∃ c d e : Config Op.Res State Unit,
    machine.Reaches (fun _ _ _ => True) (start .terminal true false) c ∧ DiesOnStartup .tsBot c d ∧
      machine.Reaches (fun _ _ _ => True) d e ∧ e.prog.next = some (.setSessionsDirty false) ∧
      e.st.status = .running := by
  have hrun : ((follow (fun _ _ _ => True) (start .terminal true false)
      (launching .tsBot ⟨false, false⟩ 4 5 10 ++
        [(.setStatus .running, .async (.childExit 10 0))])).bind fun c =>
      (machine.step c (.async .deliverChld)).bind fun d =>
        (follow (fun _ _ _ => True) d (launching .tsBot ⟨true, true⟩ 4 5 11 ++
          [(.setSessionsDirty false, .async .raiseChld)])).map fun e =>
        (c.st.status, (c.st.mods .tsBot).state, (d.st.mods .tsBot).state, e.prog.next, e.st.status)) =
      some (.starting, .running, .dead, some (.setSessionsDirty false), .running) := by
    decide
  obtain ⟨c, hc, hrun⟩ := Option.bind_eq_some_iff.mp hrun
  obtain ⟨d, hd, hrun⟩ := Option.bind_eq_some_iff.mp hrun
  obtain ⟨e, he, hrun⟩ := Option.map_eq_some_iff.mp hrun
  simp only [Prod.mk.injEq] at hrun
  exact ⟨c, d, e, Machine.reaches_of_follow hc, ⟨hrun.1, hd, hrun.2.1, hrun.2.2.1⟩,
    Machine.reaches_of_follow he, hrun.2.2.2.1, hrun.2.2.2.2⟩

theorem startup_death_retried_bot : ∃ c d e : Config Op.Res State Unit, DiesOnStartup .tsBot c d ∧
    machine.Reaches (fun _ _ _ => True) d e ∧ (e.st.mods .tsBot).needsRestart = false ∧
      (d.st.log.count (.launched .tsBot) < e.st.log.count (.launched .tsBot) ∨
        d.st.log.count (.failed .tsBot) < e.st.log.count (.failed .tsBot)) := by
  obtain ⟨c, d, e, hc, hd, he, hn, hs⟩ := startup_death_run
  exact ⟨c, d, e, hd, he, (startup_death_retried hc hd he).2.2 hn hs⟩

theorem startup_death_not_dropped : ¬ ∀ (b : Boot) (bot server : Bool) (m : Mod)
    (c d e : Config Op.Res State Unit), machine.Reaches (fun _ _ _ => True) (start b bot server) c →
      DiesOnStartup m c d → machine.Reaches (fun _ _ _ => True) d e →
      e.prog.next = some (.setSessionsDirty false) → e.st.status = .running →
      ∃ x, machine.Reaches (fun _ _ _ => True) d x ∧ machine.Reaches (fun _ _ _ => True) x e ∧
        StartupFailure m d.st x.st := by
  intro h
  obtain ⟨c, d, e, hc, hd, he, hn, hs⟩ := startup_death_run
  obtain ⟨x, hx, -, hfailure⟩ := h _ _ _ _ c d e hc hd he hn hs
  exact no_startup_failure hc hd hx hfailure

end TeamspeakWebserver.Manager
