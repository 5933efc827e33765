import TeamspeakWebserver.Manager.Notices

/-! What the manager holds for a module in each of its states. -/

namespace TeamspeakWebserver.Manager

open Interruptible Prog Rules Sessions

structure Module.Tended (M : Module) : Prop where
  running : M.state = .running → 0 < M.pid ∧ 0 ≤ M.pipefd
  dead : M.state = .dead → M.needsRestart = true
  idle : M.state ≠ .running → M.pid = -1
  parked : M.state.parked = true → M.pipefd = -1

lemma Module.Tended.onDeath {M : Module} (h : M.Tended) (dead status : Int) :
    (M.onDeath dead status).Tended := by
  unfold Module.onDeath
  split
  · exact ⟨nofun, fun _ => rfl, fun _ => rfl, nofun⟩
  · exact h

def AllTended (s : State) : Prop := ∀ m, (s.mods m).Tended

/-- The statements inside `do_module_init` and `do_module_exit`, where a module is between two
states. -/
def Op.unsettled : Op → Bool
  | .setPipefd _ _ | .intrSave | .intrRestore _ | .fork _ _ | .setState _ _ | .setPid _ _ => true
  | .closeFd _ | .kill _ _ | .closePipefd _ => true
  | .setModsDirty b => b
  | _ => false

def TendedAt (l : Option Op) (s : State) : Prop :=
  ∀ op, l = some op → op.unsettled = false → AllTended s

def Tending (m : Mod) (p : Module → Prop) (s : State) : Prop :=
  (∀ m', m' ≠ m → (s.mods m').Tended) ∧ p (s.mods m)

section Tending

variable {m : Mod} {p q : Module → Prop} {s : State}

lemma AllTended.tending (h : AllTended s) (hp : p (s.mods m)) : Tending m p s :=
  ⟨fun m' _ => h m', hp⟩

lemma Tending.all (h : Tending m p s) (hp : ∀ M, p M → M.Tended) : AllTended s := by
  intro m'
  by_cases hm : m' = m
  · rw [hm]
    exact hp _ h.2
  · exact h.1 m' hm

lemma Tending.setMod (h : Tending m p s) {f : Module → Module} (hf : ∀ M, p M → q (f M)) :
    Tending m q (s.setMod m f) := by
  refine ⟨fun m' hm => ?_, ?_⟩
  · rw [State.setMod_ne s m m' f hm]
    exact h.1 m' hm
  · rw [State.setMod_self]
    exact hf _ h.2

lemma AllTended.resists : Resists AllTended :=
  .forall_mods fun m => .ofModule m fun _ dead status h => h.onDeath dead status

lemma Tending.resists (m : Mod) {p : Module → Prop}
    (hp : ∀ M dead status, p M → p (M.onDeath dead status)) : Resists (Tending m p) := by
  apply Resists.and
  · apply Resists.forall_mods
    exact fun m' => .ofModule m' (P := fun M => m' ≠ m → M.Tended)
      fun M dead status h hm => (h hm).onDeath dead status
  · exact .ofModule m hp

lemma Tending.idle (m : Mod) {p : Module → Prop} (hp : ∀ M, p M → M.state ≠ .running) :
    Resists (Tending m p) := by
  apply Tending.resists m
  intro M dead status h
  rw [Module.onDeath, if_neg fun hd => hp M h hd.2]
  exact h

lemma Tending.blocked (m : Mod) (p : Module → Prop) :
    Resists fun s => s.mask = blocked ∧ Tending m p s :=
  .blocked (fun _ _ h => h) fun _ _ _ h => h

end Tending

section Walk

abbrev tendRules : Rules Op.Res State Answer Signal :=
  rules (fun l s _ => ∀ m, l = some (.clearNeedsRestart m) → Handled m s) TendedAt

variable {op : Op} {m : Mod} {P : State → Prop}

lemma tendedAt_unsettled (hu : op.unsettled = true) (s : State) : TendedAt (some op) s := by
  intro op' he hu'
  cases he
  rw [hu] at hu'
  cases hu'

lemma tended_keeps (hm : op.writesMods = false) : tendRules.Keeps AllTended op := by
  apply AllTended.resists.atomic fun s h _ _ _ => h
  intro s i r s' h _ he
  rw [AllTended, (exec_frame he).mods hm]
  exact h

lemma tended_none : tendRules.Holds none AllTended := AllTended.resists.holds fun _ h _ _ _ => h

lemma tended_restart (h : op.ofRestart = true) : tendRules.Keeps AllTended op := by
  cases op with
  | bumpFails m =>
    apply AllTended.resists.det (fun s h _ _ _ => h) fun _ _ => rfl
    intro s h
    have ht : Tending m Module.Tended (s.setMod m fun M => { M with numFails := M.numFails + 1 }) :=
      (h.tending (h m)).setMod fun M hM => ⟨hM.running, hM.dead, hM.idle, hM.parked⟩
    exact ht.all fun M hM => hM
  | clearNeedsRestart m =>
    apply AllTended.resists.atomic fun s h _ _ _ => h
    intro s i r s' h hok he
    cases he
    have hd : (s.mods m).state ≠ .dead := by
      intro hd
      rcases hok m rfl with hr | hr
      · rw [hd] at hr
        cases hr.1
      · rw [hd] at hr
        cases hr.1
    have ht : Tending m (fun M => M.Tended ∧ M.state ≠ .dead) s := h.tending ⟨h m, hd⟩
    refine (ht.setMod fun M hM => ?_).all fun M hM => hM
    exact ⟨hM.1.running, fun hs => absurd hs hM.2, hM.1.idle, hM.1.parked⟩
  | _ => first
    | (cases h; done)
    | exact tended_keeps rfl

structure Opening (r : Int) (M : Module) : Prop where
  opened : 0 ≤ r ∧ M.pipefd = r
  idle : M.state ≠ .running ∧ M.pid = -1
  dead : M.state = .dead → M.needsRestart = true

lemma pipe_tended (m : Mod) : tendRules.Atomic (.pipe m)
    (fun s => AllTended s ∧ (s.mods m).state ≠ .running)
    fun r s => (AllTended s ∧ (s.mods m).state ≠ .running) ∧ ∀ p, r = some p → 0 ≤ p.1 := by
  apply (AllTended.resists.and (.notRunning m)).atomic fun s h _ _ _ => h.1
  intro s i r s' h _ he
  rcases exec_pipe he with ⟨rfl, rfl⟩ | ⟨p, q, -, rfl, hp, -, -, rfl⟩
  · exact ⟨h, nofun⟩
  · refine ⟨h, fun p' hp' => ?_⟩
    cases hp'
    exact hp.1

lemma setPipefd_opening (m : Mod) (r : Int) (hr : 0 ≤ r) : tendRules.Atomic (.setPipefd m r)
    (fun s => AllTended s ∧ (s.mods m).state ≠ .running) fun _ => Tending m (Opening r) := by
  apply (AllTended.resists.and (.notRunning m)).det (fun s _ => tendedAt_unsettled rfl s) fun _ _ => rfl
  intro s h
  have ht : Tending m (fun M => M.Tended ∧ M.state ≠ .running) s := h.1.tending ⟨h.1 m, h.2⟩
  exact ht.setMod fun M hM => ⟨⟨hr, rfl⟩, ⟨hM.2, hM.1.idle hM.2⟩, hM.1.dead⟩

lemma Opening.closed {r : Int} {M : Module} (h : Opening r M) : { M with pipefd := -1 }.Tended :=
  ⟨fun hs => absurd hs h.idle.1, h.dead, fun _ => h.idle.2, fun _ => rfl⟩

lemma launched_tended (m : Mod) (r p w : Int) (fl : SigSet) (hp : 0 < p) : tendRules.Valid
    (fun s => s.mask = blocked ∧ Tending m (Opening r) s) (do
      stmt (.setState m .running)
      stmt (.setPid m p)
      stmt (.intrRestore fl)
      stmt (.closeFd w)
      stmt (.setModsDirty true)
      return (0 : Int)) fun _ => AllTended := by
  refine .act (B := fun _ s => s.mask = blocked ∧
    Tending m (fun M => M.state = .running ∧ 0 ≤ M.pipefd) s) ?_ fun _ => ?_
  · apply (Tending.blocked m _).det (fun s _ => tendedAt_unsettled rfl s) fun _ _ => rfl
    intro s h
    refine ⟨h.1, h.2.setMod fun M hM => ⟨rfl, ?_⟩⟩
    obtain ⟨hr, rfl⟩ := hM.opened
    exact hr
  refine .act (B := fun _ => AllTended) ?_ fun _ => ?_
  · apply (Tending.blocked m _).det (fun s _ => tendedAt_unsettled rfl s) fun _ _ => rfl
    intro s h
    refine (h.2.setMod (q := Module.Tended) fun M hM => ?_).all fun M hM => hM
    refine ⟨fun _ => ⟨hp, hM.2⟩, fun hs => ?_, fun hs => absurd hM.1 hs, fun hs => ?_⟩
    · rw [hM.1] at hs
      cases hs
    · rw [hM.1] at hs
      cases hs
  refine .act (tended_keeps rfl) fun _ => .act (tended_keeps rfl) fun _ => ?_
  exact .act (tended_keeps rfl) fun _ _ h => h

lemma doModuleInit_tended (m : Mod) :
    tendRules.Valid AllTended (doModuleInit m) fun _ => AllTended := by
  refine .act (B := fun r s => AllTended s ∧ (r = false → (s.mods m).state ≠ .running)) ?_
    fun (r : Bool) => ?_
  · apply AllTended.resists.det (fun s h _ _ _ => h) fun _ _ => rfl
    exact fun s h => ⟨h, of_decide_eq_false⟩
  cases r with
  | true => exact fun _ h => h.1
  | false =>
  refine (Valid.act (pipe_tended m) fun (r : Option (Int × Int)) => ?_).weaken
    fun s h => ⟨h.1, h.2 rfl⟩
  cases r with
  | none => exact fun _ h => h.1.1
  | some p =>
  obtain ⟨r, w⟩ := p
  refine Valid.weaken (A := fun s => (AllTended s ∧ (s.mods m).state ≠ .running) ∧ 0 ≤ r)
    (.of_fact fun hr => ?_) fun s h => ⟨h.1, h.2 _ rfl⟩
  refine .act (setPipefd_opening m r hr) fun _ => ?_
  refine .act (B := fun _ s => s.mask = blocked ∧ Tending m (Opening r) s) ?_ fun fl => ?_
  · apply (Tending.idle m fun M hM => hM.idle.1).det (fun s _ => tendedAt_unsettled rfl s)
      fun _ _ => rfl
    exact fun s h => ⟨rfl, h⟩
  refine .act (B := fun q s => (s.mask = blocked ∧ Tending m (Opening r) s) ∧
    ∀ p, q = some p → 0 < p) ?_ fun (q : Option Int) => ?_
  · apply (Tending.blocked m _).atomic fun s _ => tendedAt_unsettled rfl s
    intro s i q s' h _ he
    rcases exec_fork he with ⟨rfl, rfl⟩ | ⟨p, -, rfl, hp, -, rfl⟩
    · exact ⟨h, nofun⟩
    · refine ⟨h, fun p' hp' => ?_⟩
      cases hp'
      exact hp
  cases q with
  | none =>
    refine .act (B := fun _ => Tending m (Opening r)) ?_ fun _ => ?_
    · apply ((Tending.blocked m _).and (.const _)).det (fun s _ => tendedAt_unsettled rfl s)
        fun _ _ => rfl
      exact fun s h => h.1.2
    refine .act (B := fun _ => AllTended) ?_ fun _ => ?_
    · apply (Tending.idle m fun M hM => hM.idle.1).det (fun s _ => tendedAt_unsettled rfl s)
        fun _ _ => rfl
      exact fun s h => (h.setMod fun M hM => hM.closed).all fun M hM => hM
    · exact .act (tended_keeps rfl) fun _ => .act (tended_keeps rfl) fun _ _ h => h
  | some p =>
    refine Valid.weaken (A := fun s => (s.mask = blocked ∧ Tending m (Opening r) s) ∧ 0 < p)
      (.of_fact fun hp => ?_) fun s h => ⟨h.1, h.2 _ rfl⟩
    exact launched_tended m r p w fl hp

def Ended (M : Module) : Prop := M.state ≠ .running ∧ M.pid = -1

lemma endChild_tended (m : Mod) : tendRules.Valid (fun s => s.mask = blocked ∧ AllTended s)
    (endChild m) fun _ s => s.mask = blocked ∧ Tending m Ended s := by
  have hb : Resists fun s => s.mask = blocked ∧ AllTended s := .and (.mask _) AllTended.resists
  refine .act (B := fun r s => (s.mask = blocked ∧ AllTended s) ∧
    (r = false → (s.mods m).state ≠ .running)) ?_ fun (r : Bool) => ?_
  · apply hb.det (fun s h _ _ _ => h.2) fun _ _ => rfl
    exact fun s h => ⟨h, of_decide_eq_false⟩
  cases r with
  | false => exact fun s h => ⟨h.1.1, h.1.2.tending ⟨h.2 rfl, (h.1.2 m).idle (h.2 rfl)⟩⟩
  | true =>
  refine Valid.weaken (A := fun s => s.mask = blocked ∧ AllTended s) ?_ fun s h => h.1
  have hkill (hard : Bool) : tendRules.Keeps (fun s => s.mask = blocked ∧ AllTended s)
      (.kill m hard) := by
    apply hb.atomic fun s _ => tendedAt_unsettled rfl s
    intro s i r s' h _ he
    have hf := exec_frame he
    rw [hf.mask rfl, AllTended, hf.mods rfl]
    exact h
  have hdead : tendRules.Valid (fun s => s.mask = blocked ∧ AllTended s) (do
      stmt (.setState m .dead)
      stmt (.setPid m (-1))) fun _ s => s.mask = blocked ∧ Tending m Ended s := by
    refine .act (B := fun _ s => s.mask = blocked ∧ Tending m (fun M => M.state ≠ .running) s) ?_
      fun _ => .call ?_
    · apply hb.det (fun s _ => tendedAt_unsettled rfl s) fun _ _ => rfl
      exact fun s h => ⟨h.1, (h.2.tending (p := fun _ => True) trivial).setMod fun _ _ => by simp⟩
    · apply (Tending.blocked m _).det (fun s _ => tendedAt_unsettled rfl s) fun _ _ => rfl
      exact fun s h => ⟨h.1, h.2.setMod fun M hM => ⟨hM, rfl⟩⟩
  refine .act (hkill false) fun (r : Int) => ?_
  change tendRules.Valid _ (if r ≠ 0 then _ else _ : Code Unit) _
  split
  · exact .act (hkill true) fun _ => hdead
  · exact hdead

lemma doModuleExit_tended (m : Mod) :
    tendRules.Valid AllTended (doModuleExit m) fun _ => AllTended := by
  have hidle : Resists (Tending m Ended) := Tending.idle m fun M hM => hM.1
  have hkeep {op : Op} (hu : op.unsettled = true) (hm : op.writesMods = false) :
      tendRules.Keeps (Tending m Ended) op := by
    apply hidle.atomic fun s _ => tendedAt_unsettled hu s
    intro s i r s' h _ he
    rw [Tending, (exec_frame he).mods hm]
    exact h
  refine .act (tended_keeps rfl) fun (b : Bool) => ?_
  cases b with
  | true => exact fun _ h => h
  | false =>
  refine .act (B := fun _ s => s.mask = blocked ∧ AllTended s) ?_ fun fl => ?_
  · apply AllTended.resists.det (fun s _ => tendedAt_unsettled rfl s) fun _ _ => rfl
    exact fun s h => ⟨rfl, h⟩
  refine (endChild_tended m).bind fun _ => ?_
  refine (Valid.act (hkeep rfl rfl) fun _ => ?_).weaken fun s h => h.2
  refine .act (hkeep rfl rfl) fun _ => .act (hkeep rfl rfl) fun _ => ?_
  refine .act (B := fun _ => Tending m fun M => Ended M ∧ M.pipefd = -1) ?_ fun _ => .call ?_
  · apply hidle.det (fun s _ => tendedAt_unsettled rfl s) fun _ _ => rfl
    exact fun s h => h.setMod fun M hM => ⟨hM, rfl⟩
  · apply (Tending.idle m fun M hM => hM.1.1).det (fun s _ => tendedAt_unsettled rfl s) fun _ _ => rfl
    intro s h
    refine (h.setMod (q := Module.Tended) fun M hM => ?_).all fun M hM => hM
    exact ⟨nofun, nofun, fun _ => hM.1.2, fun _ => hM.2⟩

lemma main_tended (bot server : Bool) :
    tendRules.Valid AllTended (main bot server) fun _ => AllTended := by
  have hplain (op : Op) (h : op.Plain) : tendRules.Keeps AllTended op :=
    tended_keeps (by cases op <;> first | rfl | cases h)
  have hkeep (op : Op) (h : op.ofRestart = true) : tendRules.Keeps AllTended op := tended_restart h
  exact main_of_plain tended_none hplain doModuleInit_tended (hplain _ rfl)
    (runCommand_of_keeps hkeep doModuleInit_tended doModuleExit_tended) (hkeep _ rfl)
    (fun _ => hkeep _ rfl) (restartMods_of_keeps tended_none hkeep doModuleInit_tended
      doModuleExit_tended) doModuleExit_tended bot server

end Walk

lemma boot_tended (b : Boot) : AllTended b.state :=
  fun _ => ⟨nofun, nofun, fun _ => rfl, fun _ => rfl⟩

lemma tended (b : Boot) (bot server : Bool) {c : Config Op.Res State Unit}
    (h : machine.Reaches (fun _ _ _ => True) (start b bot server) c) :
    TendedAt c.prog.next c.st := by
  refine (main_tended bot server).guarantee (fun _ => tended_none) (boot_tended b) ?_
  exact h.strengthen fun d hd _ _ m hm => ((noticed b bot server hd).handled m hm).2

end TeamspeakWebserver.Manager
