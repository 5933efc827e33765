import TeamspeakWebserver.Manager.Overrun
import TeamspeakWebserver.Manager.Ownership
import TeamspeakWebserver.Manager.Startup
import TeamspeakWebserver.Manager.Tending

/-! What `shutdown_manager` leaves behind. -/

namespace TeamspeakWebserver.Manager

open Interruptible Prog Rules Sessions

structure Ending (ms : List Mod) (s : State) : Prop where
  mask : s.mask = blocked
  status : s.status = .stopped
  parked : ∀ m ∈ ms, (s.mods m).state.parked = true

def EndingAt (l : Option Op) (s : State) : Prop := l = some .closeListen → Ending mods s

section Walk

abbrev endRules : Rules Op.Res State Answer Signal := rules (fun _ _ _ => True) EndingAt

variable {P : State → Prop} {op : Op} {m : Mod} {ms : List Mod}

lemma endingAt (h : op ≠ .closeListen) (s : State) : EndingAt (some op) s := by
  intro he
  cases he
  exact absurd rfl h

lemma begun_ends (hs : op ≠ .setStatus .starting) (hl : op ≠ .closeListen) :
    endRules.Keeps Begun op := by
  refine Begun.resists.atomic (fun s _ => endingAt hl s) fun s i r s' h _ he => ?_
  cases op with
  | setStatus st =>
    cases he
    rintro rfl
    exact hs rfl
  | _ => rwa [Begun, (exec_frame he).status rfl]

lemma begun_ends_none : endRules.Holds none Begun := Begun.resists.holds fun _ _ => nofun

lemma Ending.resists (ms : List Mod) : Resists (Ending ms) where
  pending _ _ h := ⟨h.mask, h.status, h.parked⟩
  childExit _ _ _ h := ⟨h.mask, h.status, h.parked⟩
  reap s _ _ hm h := by simp [h.mask] at hm
  term s hm h := by simp [h.mask] at hm

lemma ending_keeps (hl : op ≠ .closeListen) (hk : op.writesMask = false)
    (hs : op.writesStatus = false)
    (hw : ∀ m st, op = .setState m st → m ∉ ms) : endRules.Keeps (Ending ms) op := by
  refine (Ending.resists ms).atomic (fun s _ => endingAt hl s) fun s i r s' h _ he => ?_
  have hf := exec_frame he
  refine ⟨(hf.mask hk).trans h.mask, (hf.status hs).trans h.status, fun m hm => ?_⟩
  have hst : (s'.mods m).state = (s.mods m).state := by
    rw [exec_mods he]
    cases op with
    | setState m' st =>
      have hne : m ≠ m' := by
        rintro rfl
        exact hw m st rfl hm
      rw [Op.updates, if_neg hne]
    | _ => first
      | rfl
      | (simp only [Op.updates]; split <;> rfl)
  rw [hst]
  exact h.parked m hm

lemma doModuleExit_ending (hm : m ∉ ms) :
    endRules.Valid (Ending ms) (doModuleExit m) fun _ => Ending (m :: ms) := by
  have hsave : endRules.Atomic .intrSave (Ending ms) fun fl s => Ending ms s ∧ fl = blocked :=
    (Ending.resists ms).det (fun s _ => endingAt (by simp) s) (fun _ _ => rfl) fun s h =>
      ⟨⟨rfl, h.status, h.parked⟩, h.mask⟩
  have hrestore : endRules.Keeps (Ending ms) (.intrRestore blocked) :=
    (Ending.resists ms).det (fun s _ => endingAt (by simp) s) (fun _ _ => rfl) fun s h =>
      ⟨rfl, h.status, h.parked⟩
  apply doModuleExit_blocked _ hsave hrestore _ ((Ending.resists ms).holds fun _ _ => nofun)
  · exact ending_keeps (by simp) rfl rfl (by simp)
  · exact ending_keeps (by simp) rfl rfl (by simp)
  · exact ending_keeps (by simp) rfl rfl (by simp)
  · refine (Ending.resists ms).det (fun s _ => endingAt (by simp) s) (fun _ _ => rfl) fun s h => ?_
    refine ⟨h.mask, h.status, fun m' hm' => ?_⟩
    rw [State.setMod_mods]
    split
    case isTrue => rfl
    case isFalse hne => exact h.parked m' ((List.mem_cons.mp hm').resolve_left hne)
  · refine (Ending.resists ms).det (fun s _ => endingAt (by simp) s) (fun _ _ => rfl) fun s h => ?_
    refine ⟨h, fun hp => ⟨h.mask, h.status, fun m' hm' => ?_⟩⟩
    rcases List.mem_cons.mp hm' with rfl | hm'
    · exact hp
    · exact h.parked m' hm'
  · intro op ho
    cases op with
    | setState m' st =>
      refine ending_keeps (by simp) rfl rfl fun m₁ st₁ he => ?_
      cases he
      cases st with
      | dead =>
        obtain rfl : m' = m := by simpa [Op.ends] using ho
        exact hm
      | _ => cases ho
    | closeListen => cases ho
    | _ => first
      | exact ending_keeps (by simp) rfl rfl (by simp)
      | cases ho

lemma each_ending : endRules.Valid (Ending []) (each doModuleExit mods) fun _ => Ending mods := by
  refine (doModuleExit_ending (by simp)).bind fun _ => ?_
  refine (doModuleExit_ending (by simp)).bind fun _ s h => ?_
  exact ⟨h.mask, h.status, fun m _ => h.parked m (by cases m <;> simp)⟩

lemma resists_stopped : Resists fun s => s.status = .stopped :=
  ⟨⟨fun _ _ h => h, fun _ _ _ h => h, fun _ _ _ _ h => by rwa [reap_status]⟩, fun _ _ _ => rfl⟩

lemma shutdownManager_ending :
    endRules.Valid (fun s => s.status = .stopped) shutdownManager fun _ _ => True := by
  refine .act (B := fun _ s => s.mask = blocked ∧ s.status = .stopped) ?_ fun _ => ?_
  · exact resists_stopped.det (fun s _ => endingAt (by simp) s) (fun _ _ => rfl) fun s h => ⟨rfl, h⟩
  refine .act (B := fun _ => Ending []) ?_ fun _ => ?_
  · apply (Resists.blocked (fun _ _ h => h) fun _ _ _ h => h).atomic fun s _ => endingAt (by simp) s
    intro s i r s' h _ he
    simp only [exec] at he
    split at he
    case isTrue => cases he; exact ⟨h.1, h.2, fun _ hm => by cases hm⟩
    case isFalse => cases he
  refine each_ending.bind fun _ => ?_
  refine .act (B := fun _ _ => True) ?_ fun _ => .act (B := fun _ _ => True) ?_ fun r => Empty.elim r
  · exact (Ending.resists mods).det (fun s h _ => h) (fun _ _ => rfl) fun _ _ => trivial
  · exact (Resists.const True).atomic (fun s _ => endingAt (by simp) s) fun _ _ _ _ _ _ _ => trivial

lemma begun_ends_uses {α : Type} {p : Code α} {A : Op → Prop} (h : p.Uses A)
    (hs : ¬ A (.setStatus .starting)) (hl : ¬ A .closeListen) :
    endRules.Valid Begun p fun _ => Begun := by
  refine .of_uses begun_ends_none (h.mono fun op ho => begun_ends ?_ ?_)
  · rintro rfl
    exact hs ho
  · rintro rfl
    exact hl ho

lemma looped_ends : Looped endRules Begun fun _ => Begun := by
  have hinit (m : Mod) : endRules.Valid Begun (doModuleInit m) fun _ => Begun :=
    begun_ends_uses (doModuleInit_uses m) (by simp [Op.On, Op.on]) (by simp [Op.On, Op.on])
  have hexit (m : Mod) : endRules.Valid Begun (doModuleExit m) fun _ => Begun :=
    begun_ends_uses (doModuleExit_uses m) (by simp [Op.On, Op.on]) (by simp [Op.On, Op.on])
  have hrestart (op : Op) (h : op.ofRestart = true) : endRules.Keeps Begun op :=
    begun_ends (by rintro rfl; cases h) (by rintro rfl; cases h)
  exact
    { toServed := served_of_session begun_ends_none
        (fun op h => begun_ends (by rintro rfl; cases h) (by rintro rfl; cases h))
        (runCommand_of_keeps hrestart hinit hexit)
      holds := begun_ends_none
      loop := fun op h => begun_ends (by rintro rfl; cases h) (by rintro rfl; cases h)
      setup := begun_ends_uses setupPollFds_uses (by simp [Op.Setup, Op.ofSetup])
        (by simp [Op.Setup, Op.ofSetup])
      cleanup := managerCleanupDirt_valid (hrestart _ rfl)
        (fun _ => restartMods_of_keeps begun_ends_none hrestart hinit hexit)
        (fun _ => begun_ends (by simp) (by simp)) fun _ => hrestart _ rfl }

lemma loopBody_ends (fds : List Int × ℕ) : endRules.Valid Begun (loopBody fds)
    (Sum.elim (fun _ => Begun) fun _ s => s.status = .stopped) := by
  have hkeep (op : Op) (h : op.ofLoop = true) : endRules.Keeps Begun op := looped_ends.loop op h
  have hloop {op : Op} (ho : op.ofLoop = true) {Q : op.Res → State → Prop}
      (hQ : ∀ r s, Begun s → Q r s) : endRules.Atomic op Begun Q :=
    (hkeep op ho).strengthen hQ
  have htested (b : Bool) (s : State) (h : Begun s) : cond b (Begun s) (Begun s) := by
    cases b <;> exact h
  refine loopBody_valid ?_ (hloop rfl htested) (hloop rfl htested) looped_ends.cleanup
    looped_ends.setup (hkeep _ rfl) (hkeep _ rfl) looped_ends.serviceFds fun _ h => h
  refine Begun.resists.atomic (fun s _ => endingAt (by simp) s) fun s i r s' h _ he => ?_
  cases he
  cases hs : s.status with
  | starting => exact absurd hs h
  | running => simpa [hs] using h
  | stopped => simp [hs]

lemma main_ends (bot server : Bool) :
    endRules.Valid (fun _ => True) (main bot server) fun _ _ => True := by
  have hany {op : Op} (hl : op ≠ .closeListen) : endRules.Keeps (fun _ => True) op :=
    (Resists.const True).atomic (fun s _ => endingAt hl s) fun _ _ _ _ _ _ _ => trivial
  refine main_valid (J := Begun) (fun m => ?_) ?_ ?_ bot server
  · exact .of_uses ((Resists.const True).holds fun _ _ => nofun)
      ((doModuleInit_uses m).mono fun op h => hany (by rintro rfl; cases h))
  · exact (Resists.const True).det (fun s _ => endingAt (by simp) s) (fun _ _ => rfl)
      fun _ _ => by simp [Begun]
  · refine looped_ends.setup.bind fun fds => Valid.bind (Q := fun _ s => s.status = .stopped) ?_
      fun _ => shutdownManager_ending
    exact .iterate (fun _ => begun_ends_none) loopBody_ends fds

end Walk

/-- With a session open, the loop of `close_session_handler` reads a node it has freed, and a body read
must not store behind the `buf` of its session. -/
abbrev Defined : Condition Op State Answer Signal := fun l s i =>
  (l = some .closeSessionHandler → s.sessions = []) ∧ InBuffer l s i

/-- `.closeListen` comes after the last `do_module_exit` of `shutdown_manager`. What happens after a
step that is not `Defined` is left open. -/
theorem shutdown_ends_modules (b : Boot) (bot server : Bool) {c : Config Op.Res State Unit}
    (hr : machine.Strays Defined (fun _ _ _ => True) Defined (start b bot server) c)
    (hn : c.prog.next = some .closeListen) :
    c.st.status = .stopped ∧ c.st.mask = blocked ∧
      (∀ m, (c.st.mods m).state.parked = true ∧ (c.st.mods m).pid = -1 ∧
        (c.st.mods m).pipefd = -1) ∧
      ∀ child ∈ c.st.children, child.signalled = true := by
  have h : machine.Reaches (fun _ _ _ => True) (start b bot server) c :=
    hr.reaches.mono fun _ _ _ _ => trivial
  have he : Ending mods c.st :=
    (main_ends bot server).guarantee (fun _ => (Resists.const True).holds fun _ _ => nofun)
      (s := b.state) trivial h hn
  have ht := tended b bot server h _ hn rfl
  have hparked (m : Mod) : (c.st.mods m).state.parked = true := he.parked m (mem_mods m)
  have hidle (m : Mod) : (c.st.mods m).state ≠ .running := by
    intro hr
    have hp := hparked m
    rw [hr] at hp
    cases hp
  refine ⟨he.status, he.mask, fun m => ?_, fun child hc => ?_⟩
  · exact ⟨hparked m, (ht m).idle (hidle m), (ht m).parked (hparked m)⟩
  · have ho : Owned c.st := by
      refine ((main_owned bot server).guarantee (fun _ => owned_none) (boot_owned b) h).outside ?_
      rintro op hop
      rw [hn] at hop
      cases hop
      rfl
    by_contra hsig
    obtain ⟨m, hr, -⟩ := (ho.owned_iff child.pid).mpr ⟨child, hc, rfl, by simpa using hsig⟩
    exact hidle m hr

set_option maxRecDepth 4000 in
theorem shutdown_ends_bot : ∃ c : Config Op.Res State Unit, c.prog.next = some .closeListen ∧
    c.st.children = [⟨10, none, true⟩] ∧
    ∀ m, (c.st.mods m).state.parked = true ∧ (c.st.mods m).pid = -1 ∧ (c.st.mods m).pipefd = -1 := by
  have hrun : (follow Defined (start .terminal true false)
      (launching .tsBot ⟨false, false⟩ 4 5 10 ++ [(.loopTest, .async .raiseTerm),
        (.loopTest, .async .deliverTerm), (.closeListen, .async .raiseChld)])).map
      (fun c => (c.prog.next, c.st.children)) = some (some .closeListen, [⟨10, none, true⟩]) := by
    decide
  obtain ⟨c, hc, he⟩ := Option.map_eq_some_iff.mp hrun
  simp only [Prod.mk.injEq] at he
  have hreach : machine.Strays Defined (fun _ _ _ => True) Defined (start .terminal true false) c :=
    (Machine.reaches_of_follow hc).strays fun _ _ _ hi => ⟨hi, hi⟩
  exact ⟨c, he.1, he.2, (shutdown_ends_modules .terminal true false hreach he.1).2.2.1⟩

end TeamspeakWebserver.Manager
