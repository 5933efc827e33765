import TeamspeakWebserver.Manager.Composition
import TeamspeakWebserver.Manager.Interference

/-! How the death of a module is noticed, and when the manager has dealt with it. -/

namespace TeamspeakWebserver.Manager

open Interruptible Prog Rules Sessions

def Raised (s : State) : Prop := ∀ m, (s.mods m).needsRestart = true → s.modsDirty = true

def NoneWaiting (s : State) : Prop := ∀ m, (s.mods m).needsRestart = false

def Handled (m : Mod) (s : State) : Prop :=
  ((s.mods m).state = .running ∧ s.log.head? = some (.launched m)) ∨
    ((s.mods m).state.parked = true ∧ maxFailForStop ≤ (s.mods m).numFails)

/-- `.setSessionsDirty false` is the statement after the call of `restart_mods`. -/
structure NoticedAt (l : Option Op) (s : State) : Prop where
  raised : s.status = .stopped ∨ Raised s
  handled : ∀ m, l = some (.clearNeedsRestart m) → s.status ≠ .starting ∧ Handled m s
  passed : l = some (.setSessionsDirty false) →
    s.status = .stopped ∨ (s.modsDirty = false ∧ NoneWaiting s)

section Reap

variable (dead status : Int) (s : State) (m : Mod)

lemma markDead_modsDirty :
    (markDead dead status s m).modsDirty = (s.modsDirty || (s.mods m).dies dead) := by
  unfold markDead Module.dies
  split
  case isTrue h => simp [h, State.record]
  case isFalse h => simp [h]

lemma reap_modsDirty_eq : (reap dead status s).modsDirty =
    (s.modsDirty || mods.any fun m => (s.mods m).dies dead) := by
  simp [reap, mods, markDead_modsDirty, markDead_mods, Bool.or_assoc]

lemma reap_needsRestart : ((reap dead status s).mods m).needsRestart =
    ((s.mods m).needsRestart || (s.mods m).dies dead) := by
  rw [reap_mods, Module.onDeath, Module.dies]
  split
  case isTrue h => simp [h]
  case isFalse h => simp [h]

end Reap

lemma mem_mods (m : Mod) : m ∈ mods := by cases m <;> simp [mods]

lemma Raised.reap {s : State} (h : Raised s) (dead status : Int) : Raised (reap dead status s) := by
  intro m hm
  rw [reap_needsRestart, Bool.or_eq_true] at hm
  rw [reap_modsDirty_eq, Bool.or_eq_true]
  rcases hm with hm | hm
  · exact Or.inl (h m hm)
  · exact Or.inr (List.any_eq_true.mpr ⟨m, mem_mods m, hm⟩)

lemma Raised.resists : Resists Raised where
  pending _ _ h := h
  childExit _ _ _ h := h
  reap _ dead status _ h := h.reap dead status
  term _ _ h := h

def Noted (s : State) : Prop := s.status ≠ .starting ∧ (s.status = .stopped ∨ Raised s)

lemma Noted.resists : Resists Noted where
  pending _ _ h := h
  childExit _ _ _ h := h
  reap _ dead status _ h := by
    rw [Noted, reap_status]
    exact ⟨h.1, h.2.imp id fun hr => hr.reap dead status⟩
  term _ _ _ := ⟨by simp [termHandler, State.record], Or.inl rfl⟩

/-! ### What the statements do to the marks -/

def Op.quiet : Op → Bool
  | .clearNeedsRestart _ | .setStatus _ => false
  | .setModsDirty b | .setSessionsDirty b => b
  | _ => true

def Marked (P : State → Prop) : Prop := ∀ s s', s'.status = s.status →
  (s.modsDirty = true → s'.modsDirty = true) →
  (∀ m, (s'.mods m).needsRestart = (s.mods m).needsRestart) → P s → P s'

lemma Raised.marked : Marked Raised := by
  intro s s' _ hd hm h m hn
  rw [hm] at hn
  exact hd (h m hn)

lemma Noted.marked : Marked Noted := by
  intro s s' hs hd hm h
  rw [Noted, hs]
  exact ⟨h.1, h.2.imp id (Raised.marked s s' hs hd hm)⟩

lemma Marked.exec {P : State → Prop} (hP : Marked P) {op : Op} (hq : op.quiet = true)
    {s s' : State} {i : Answer} {r : op.Res} (he : exec op s i = some (r, s')) (h : P s) :
    P s' := by
  have hf : Frame op s s' := exec_frame he
  refine hP s s' (hf.status ?_) ?_ (fun m => exec_needsRestart ?_ he) h
  · cases op <;> first | rfl | cases hq
  · cases op with
    | setModsDirty b =>
      cases he
      exact fun _ => hq
    | _ => exact fun hd => (hf.modsDirty rfl).trans hd
  · rintro rfl
    cases hq

section Walk

abbrev noticeRules : Rules Op.Res State Answer Signal := rules (fun _ _ _ => True) NoticedAt

variable {P : State → Prop} {op : Op} {m : Mod}

lemma noticedAt (hq : op.quiet = true) (hr : ∀ s, P s → s.status = .stopped ∨ Raised s) (s : State)
    (h : P s) : NoticedAt (some op) s where
  raised := hr s h
  handled m he := by
    cases he
    cases hq
  passed he := by
    cases he
    cases hq

lemma Marked.keeps (hP : Marked P) (hR : Resists P)
    (hr : ∀ s, P s → s.status = .stopped ∨ Raised s) (hq : op.quiet = true) :
    noticeRules.Keeps P op :=
  hR.atomic (noticedAt hq hr) fun _ _ _ _ hs _ he => hP.exec hq he hs

lemma marked_none (hR : Resists P) (hr : ∀ s, P s → s.status = .stopped ∨ Raised s) :
    noticeRules.Holds none P :=
  hR.holds fun s h => ⟨hr s h, nofun, nofun⟩

lemma raised_keeps (hq : op.quiet = true) : noticeRules.Keeps Raised op :=
  Raised.marked.keeps Raised.resists (fun _ => Or.inr) hq

lemma noted_keeps (hq : op.quiet = true) : noticeRules.Keeps Noted op :=
  Noted.marked.keeps Noted.resists (fun _ h => h.2) hq

lemma noted_none : noticeRules.Holds none Noted := marked_none Noted.resists fun _ h => h.2

lemma Op.On.quiet (h : op.On m) : op.quiet = true := by
  cases op <;> first
    | (cases h; done)
    | exact h
    | rfl

/-! ### A pass of `restart_mods` -/

def Passing (ms : List Mod) (s : State) : Prop := s.mask = blocked ∧ Noted s ∧
  (s.status = .stopped ∨ ∀ m, m ∉ ms → (s.mods m).needsRestart = false)

lemma Passing.resists (ms : List Mod) : Resists (Passing ms) :=
  .blocked (fun _ _ h => h) fun _ _ _ h => h

lemma Passing.exec {o : Op} {ms : List Mod} {s s' : State} {i : Answer} {r : o.Res}
    (h : Passing ms s) (hq : o.quiet = true) (hm : o.writesMask = false)
    (he : exec o s i = some (r, s')) : Passing ms s' := by
  have hP : Marked fun s => Noted s ∧
      (s.status = .stopped ∨ ∀ m, m ∉ ms → (s.mods m).needsRestart = false) := by
    intro s s' hs hd hn h
    refine ⟨Noted.marked s s' hs hd hn h.1, ?_⟩
    simp only [hs, hn]
    exact h.2
  exact ⟨((exec_frame he).mask hm).trans h.1, hP.exec hq he h.2⟩

lemma passing_keeps {ms : List Mod} (hq : op.quiet = true) (hm : op.writesMask = false) :
    noticeRules.Keeps (Passing ms) op :=
  (Passing.resists ms).atomic (noticedAt hq fun _ h => h.2.1.2) fun _ _ _ _ hs _ he =>
    hs.exec hq hm he

lemma passing_intrSave {ms : List Mod} : noticeRules.Atomic .intrSave (Passing ms)
    fun fl s => Passing ms s ∧ fl = blocked :=
  (Passing.resists ms).det (noticedAt rfl fun _ h => h.2.1.2) (fun _ _ => rfl) fun _ h =>
    ⟨⟨rfl, h.2⟩, h.1⟩

lemma passing_intrRestore {ms : List Mod} :
    noticeRules.Keeps (Passing ms) (.intrRestore blocked) :=
  (Passing.resists ms).det (noticedAt rfl fun _ h => h.2.1.2) (fun _ _ => rfl) fun _ h =>
    ⟨rfl, h.2⟩

section Pass

variable {ms : List Mod} {X : State → Prop}

/-- Both signals are blocked, so what the events leave alone is not lost during the pass. -/
structure Undisturbed (X : State → Prop) : Prop where
  pending : ∀ s p, X s → X (s.setPending p)
  childExit : ∀ s pid status, X s → X (s.childExit pid status)

lemma Undisturbed.resists (hX : Undisturbed X) (ms : List Mod) :
    Resists fun s => Passing ms s ∧ X s where
  pending s p h := ⟨(Passing.resists ms).pending s p h.1, hX.pending s p h.2⟩
  childExit s pid st h := ⟨(Passing.resists ms).childExit s pid st h.1, hX.childExit s pid st h.2⟩
  reap s dead status hm h := by simp [h.1.1] at hm
  term s hm h := by simp [h.1.1] at hm

lemma Undisturbed.keeps (hX : Undisturbed X) (hq : op.quiet = true)
    (hx : ∀ s i r s', Passing ms s ∧ X s → exec op s i = some (r, s') → Passing ms s' ∧ X s') :
    noticeRules.Keeps (fun s => Passing ms s ∧ X s) op :=
  (hX.resists ms).atomic (noticedAt hq fun _ h => h.1.2.1.2) fun s i r s' h _ => hx s i r s' h

def Relaunched (m : Mod) (s : State) : Prop :=
  (s.mods m).state = .running ∧ s.log.head? = some (.launched m)

lemma relaunched_undisturbed (m : Mod) : Undisturbed (Relaunched m) :=
  ⟨fun _ _ h => h, fun _ _ _ h => h⟩

lemma relaunched_keeps (hq : op.quiet = true) (hm : op.writesMask = false)
    (hs : ∀ s i r s', exec op s i = some (r, s') →
      (s'.mods m).state = (s.mods m).state ∧ s'.log = s.log) :
    noticeRules.Keeps (fun s => Passing ms s ∧ Relaunched m s) op := by
  apply (relaunched_undisturbed m).keeps hq
  intro s i r s' h he
  obtain ⟨hst, hl⟩ := hs s i r s' he
  exact ⟨h.1.exec hq hm he, hst.trans h.2.1, by rw [hl]; exact h.2.2⟩

lemma doModuleInit_passing (ms : List Mod) (m : Mod) : noticeRules.Valid (Passing ms)
    (doModuleInit m) fun r s => if r = 0 then Passing ms s ∧ Relaunched m s else Passing ms s := by
  have hlog : Undisturbed fun s => s.log.head? = some (.launched m) :=
    ⟨fun _ _ h => h, fun _ _ _ h => h⟩
  apply doModuleInit_blocked (L := fun s => Passing ms s ∧ s.log.head? = some (.launched m))
  · exact fun op hop hm _ => passing_keeps (Op.On.quiet hop) hm
  · exact passing_intrSave
  · exact passing_intrRestore
  · intro fl
    apply (Passing.resists ms).atomic (noticedAt rfl fun _ h => h.2.1.2)
    intro s i r s' h _ he
    rcases exec_fork he with ⟨rfl, rfl⟩ | ⟨p, -, rfl, -, -, rfl⟩
    · exact h
    · exact ⟨h, rfl⟩
  · apply (hlog.resists ms).det (noticedAt rfl fun _ h => h.1.2.1.2) fun _ _ => rfl
    exact fun s h => ⟨h.1.exec (o := .setState m .running) (i := .ok) rfl rfl rfl, by simp, h.2⟩
  · exact fun p => relaunched_keeps rfl rfl fun s i r s' he => by cases he; simp
  · apply (relaunched_undisturbed m).keeps rfl
    intro s i r s' h he
    cases he
    exact ⟨⟨rfl, h.1.2⟩, h.2⟩
  · exact fun fd => relaunched_keeps rfl rfl fun s i r s' he => by cases he; exact ⟨rfl, rfl⟩
  · exact relaunched_keeps rfl rfl fun s i r s' he => by cases he; exact ⟨rfl, rfl⟩

def Parked (m : Mod) (s : State) : Prop := (s.mods m).state.parked = true

lemma parked_undisturbed (m : Mod) : Undisturbed (Parked m) :=
  ⟨fun _ _ h => h, fun _ _ _ h => h⟩

lemma doModuleExit_passing (ms : List Mod) (m : Mod) : noticeRules.Valid (Passing ms)
    (doModuleExit m) fun _ s => Passing ms s ∧ Parked m s := by
  apply doModuleExit_blocked (P := Passing ms)
  · apply (Passing.resists ms).det (noticedAt rfl fun _ h => h.2.1.2) fun _ _ => rfl
    exact fun s h => ⟨h, fun hb => ⟨h, hb⟩⟩
  · exact passing_intrSave
  · exact passing_intrRestore
  · intro op hop
    have hon : op.On m := Op.Ends.on hop
    apply passing_keeps hon.quiet
    cases op <;> first | rfl | cases hop
  · exact (Passing.resists ms).holds fun s h => ⟨h.2.1.2, nofun, nofun⟩
  · exact passing_keeps rfl rfl
  · exact passing_keeps rfl rfl
  · exact passing_keeps rfl rfl
  · apply (Passing.resists ms).det (noticedAt rfl fun _ h => h.2.1.2) fun _ _ => rfl
    intro s h
    exact ⟨h.exec (o := .setState m .exited) (i := .ok) rfl rfl rfl, by simp [Parked, ModState.parked]⟩

lemma retry_passing (ms : List Mod) (m : Mod) : noticeRules.Valid (Passing ms) (retry m)
    (Sum.elim (fun _ => Passing ms) fun _ s => Passing ms s ∧ Handled m s) := by
  have hfailed (r : UInt32) : Undisturbed fun s => Parked m s ∧ (s.mods m).numFails = r :=
    ⟨fun _ _ h => h, fun _ _ _ h => h⟩
  apply retry_valid (doModuleExit_passing ms m)
    (B := fun r s => Passing ms s ∧ Parked m s ∧ (s.mods m).numFails = r) (F := Passing ms)
  · apply ((parked_undisturbed m).resists ms).det (noticedAt rfl fun _ h => h.1.2.1.2) fun _ _ => rfl
    intro s h
    refine ⟨h.1.exec (o := .bumpFails m) (i := .ok) rfl rfl rfl, ?_, by simp⟩
    simpa [Parked] using h.2
  · rintro r s hr ⟨hP, hp, rfl⟩
    exact ⟨hP, Or.inr ⟨hp, hr⟩⟩
  · intro r _
    refine ((doModuleInit_passing ms m).weaken fun s h => h.1).strengthen fun r s h => ?_
    split
    case isTrue hr =>
      rw [if_pos hr] at h
      exact ⟨h.1, Or.inl h.2⟩
    case isFalse hr =>
      rw [if_neg hr] at h
      exact h
  · exact passing_keeps rfl rfl

lemma Passing.statusIs {ms : List Mod} (st : Status) : noticeRules.Atomic (.statusIs st)
    (Passing ms) fun b s => Passing ms s ∧ (b = true ↔ s.status = st) :=
  (Passing.resists ms).det (noticedAt rfl fun _ h => h.2.1.2) (fun _ _ => rfl) fun _ h =>
    ⟨h, decide_eq_true_iff⟩

lemma handled_undisturbed (m : Mod) : Undisturbed (Handled m) :=
  ⟨fun _ _ h => h, fun _ _ _ h => h⟩

lemma clear_passing (ms : List Mod) (m : Mod) : noticeRules.Atomic (.clearNeedsRestart m)
    (fun s => Passing (m :: ms) s ∧ Handled m s) fun _ => Passing ms := by
  apply ((handled_undisturbed m).resists (m :: ms)).det ?_ fun _ _ => rfl
  · rintro s ⟨⟨hb, hn, hp⟩, -⟩
    refine ⟨hb, ⟨hn.1, hn.2.imp id fun hr m' hm' => ?_⟩, hp.imp id fun hp m' hm' => ?_⟩
    · rw [State.setMod_mods] at hm'
      split at hm'
      case isTrue => cases hm'
      case isFalse => exact hr m' hm'
    · rw [State.setMod_mods]
      split
      case isTrue => rfl
      case isFalse hne => exact hp m' (by simp [hne, hm'])
  · intro s h
    refine ⟨h.1.2.1.2, fun m' he => ?_, nofun⟩
    cases he
    exact ⟨h.1.2.1.1, h.2⟩

lemma restartMod_passing (ms : List Mod) (m : Mod) : noticeRules.Valid (Passing (m :: ms))
    (restartMod m) fun b s => Passing (m :: ms) s ∧
      (if b then Passing ms s else s.status = .stopped) := by
  refine .act (B := fun b s => Passing (m :: ms) s ∧ (b = false → Passing ms s)) ?_
    fun (b : Bool) => ?_
  · apply (Passing.resists _).det (noticedAt rfl fun _ h => h.2.1.2) fun _ _ => rfl
    intro s h
    refine ⟨h, fun hb => ⟨h.1, h.2.1, h.2.2.imp id fun hp m' hm' => ?_⟩⟩
    by_cases he : m' = m
    · rw [he]
      exact hb
    · exact hp m' (by simp [he, hm'])
  cases b with
  | false => exact fun s h => ⟨h.1, h.2 rfl⟩
  | true =>
  refine Valid.weaken (A := Passing (m :: ms)) ?_ fun s h => h.1
  refine .act (Passing.statusIs .starting) fun (b : Bool) => ?_
  cases b with
  -- the loop only runs once the status has left `STARTING`
  | true => exact .absurd fun s h => h.1.2.1.1 (h.2.mp rfl)
  | false =>
  refine Valid.weaken (A := Passing (m :: ms)) ?_ fun s h => h.1
  refine .act (Passing.statusIs .stopped) fun (b : Bool) => ?_
  cases b with
  | true => exact fun s h => ⟨h.1, h.2.mp rfl⟩
  | false =>
  refine Valid.weaken (A := Passing (m :: ms)) ?_ fun s h => h.1
  refine .act (passing_keeps rfl rfl) fun _ => ?_
  change noticeRules.Valid _ ((iterate (fun _ => retry m) ()).bind fun _ =>
    .act (.clearNeedsRestart m) fun _ => .ret true) _
  refine Valid.bind (Q := fun _ s => Passing (m :: ms) s ∧ Handled m s) ?_ fun _ => ?_
  · refine .iterate (I := fun _ => Passing (m :: ms)) (fun _ => ?_) (fun _ => retry_passing _ m) ()
    exact (Passing.resists _).holds fun s h => ⟨h.2.1.2, nofun, nofun⟩
  · refine .act (clear_passing ms m) fun _ s h => ⟨⟨h.1, h.2.1, ?_⟩, h⟩
    exact h.2.2.imp id fun hp m' hm' => hp m' fun hm => hm' (by simp [hm])

lemma restartEach_passing (ms : List Mod) : noticeRules.Valid (Passing ms) (restartEach ms)
    fun _ => Passing [] := by
  induction ms with
  | nil => exact fun _ h => h
  | cons m ms ih =>
    refine (restartMod_passing ms m).bind fun b => ?_
    cases b with
    | true => exact ih.weaken fun s h => h.2
    | false => exact fun s h => ⟨h.1.1, h.1.2.1, Or.inl h.2⟩

def Passed (s : State) : Prop := s.mask = blocked ∧ s.status ≠ .starting ∧
  (s.status = .stopped ∨ (s.modsDirty = false ∧ NoneWaiting s))

lemma Passed.noted {s : State} (h : Passed s) : Noted s :=
  ⟨h.2.1, h.2.2.imp id fun hp m hm => by simp [hp.2 m] at hm⟩

lemma Passed.resists : Resists Passed := .blocked (fun _ _ h => h) fun _ _ _ h => h

lemma restartMods_passed : noticeRules.Valid (fun s => s.mask = blocked ∧ Noted s) restartMods
    fun _ => Passed := by
  have hall : ∀ s, s.mask = blocked ∧ Noted s → Passing mods s := fun s h =>
    ⟨h.1, h.2, Or.inr fun m hm => absurd (mem_mods m) hm⟩
  refine Valid.weaken (A := Passing mods) ?_ hall
  refine .act passing_intrSave fun (fl : SigSet) => .of_fact ?_
  rintro rfl
  refine (restartEach_passing mods).bind fun _ => .act (B := fun _ => Passed) ?_ fun _ => .call ?_
  · apply (Passing.resists []).det ?_ fun _ _ => rfl
    · exact fun s h => ⟨h.1, h.2.1.1, h.2.2.imp id fun hp => ⟨rfl, fun m => hp m (by simp)⟩⟩
    · exact fun s h => ⟨h.2.1.2, nofun, nofun⟩
  · exact Passed.resists.det (fun s h => ⟨h.noted.2, nofun, nofun⟩) (fun _ _ => rfl) fun s h =>
      ⟨rfl, h.2⟩

end Pass

lemma managerCleanupDirt_noted : noticeRules.Valid Noted managerCleanupDirt fun _ => Noted := by
  refine .act (B := fun _ s => s.mask = blocked ∧ Noted s) ?_ fun fl => ?_
  · exact Noted.resists.det (noticedAt rfl fun _ h => h.2) (fun _ _ => rfl) fun s h => ⟨rfl, h⟩
  refine restartMods_passed.bind fun _ => .act (B := fun _ => Noted) ?_ fun _ => ?_
  · apply Passed.resists.det ?_ fun _ _ => rfl
    · exact fun s h => h.noted
    · exact fun s h => ⟨h.noted.2, nofun, fun _ => h.2.2⟩
  · exact .call (noted_keeps rfl)

lemma main_noted (bot server : Bool) : noticeRules.Valid Raised (main bot server)
    fun _ => Noted := by
  have hon (m : Mod) (op : Op) (h : op.On m) : noticeRules.Keeps Noted op := noted_keeps (Op.On.quiet h)
  have hinit (m : Mod) : noticeRules.Valid Noted (doModuleInit m) fun _ => Noted :=
    .of_uses noted_none ((doModuleInit_uses m).mono (hon m))
  have hexit (m : Mod) : noticeRules.Valid Noted (doModuleExit m) fun _ => Noted :=
    .of_uses noted_none ((doModuleExit_uses m).mono (hon m))
  have hcmd (cmd : ManagerCmds) (m : Mod) (errv : Int) :=
    runCommand_valid (noted_keeps rfl) (hexit m) (hinit m) (hexit m) (noted_keeps rfl) cmd errv
  have hstop : noticeRules.Valid Noted shutdownManager fun _ => Noted :=
    shutdownManager_valid (noted_keeps rfl) (noted_keeps rfl) (noted_keeps rfl) (noted_keeps rfl) hexit
  have hserved : Served noticeRules Noted fun _ => Noted := by
    apply served_of_session noted_none _ hcmd
    intro op h
    cases op with
    | setStatus st =>
      cases st with
      | stopped =>
        exact Noted.resists.det (fun s hs => ⟨hs.2, nofun, nofun⟩) (fun _ _ => rfl) fun s hs =>
          ⟨by simp, Or.inl rfl⟩
      | starting => cases h
      | running => cases h
    | _ => first
      | (cases h; done)
      | exact noted_keeps h
  have hloop : Looped noticeRules Noted fun _ => Noted :=
    { toServed := hserved
      holds := noted_none
      loop := fun op h => noted_keeps (by cases op <;> first | rfl | cases h)
      setup := .of_uses noted_none (setupPollFds_uses.mono fun op h =>
        noted_keeps (by cases op <;> first | rfl | cases h))
      cleanup := managerCleanupDirt_noted }
  refine main_valid (fun m => ?_) ?_ (hloop.startManagerLoop hstop) bot server
  · exact .of_uses (marked_none Raised.resists fun _ => Or.inr) ((doModuleInit_uses m).mono
      fun op h => raised_keeps (Op.On.quiet h))
  · exact Raised.resists.det (fun s h => ⟨Or.inr h, nofun, nofun⟩) (fun _ _ => rfl) fun s h =>
      ⟨by simp, Or.inr h⟩

end Walk

lemma noticed (b : Boot) (bot server : Bool) {c : Config Op.Res State Unit}
    (h : machine.Reaches (fun _ _ _ => True) (start b bot server) c) :
    NoticedAt c.prog.next c.st :=
  (main_noted bot server).guarantee (s := b.state) (fun _ => noted_none) (fun m hm => by cases hm) h

end TeamspeakWebserver.Manager
