import TeamspeakWebserver.Manager.Composition
import TeamspeakWebserver.Manager.Frame
import TeamspeakWebserver.Manager.Interference

/-! What the automatic restarts are made of, and what `num_fails` counts. -/

namespace TeamspeakWebserver.Manager

open Interruptible Prog Rules Sessions

def Event.costless : Event → Bool
  | .failed _ | .died _ | .relaunchFailed _ => false
  | _ => true

/-- Every failure is paid for by a death or a failed relaunch, with `needs_restart` for one more to
come; for a module that is being restarted, `x` tells how many. -/
structure Accounted (x : Mod → Option ℕ) (flags : SigSet) (s : State) : Prop where
  mask : s.mask = flags
  numFails : ∀ m, (s.mods m).numFails = UInt32.ofNat (s.log.count (.failed m))
  paid : ∀ m, s.log.count (.failed m) + (x m).getD (s.mods m).needsRestart.toNat ≤
    s.log.count (.died m) + s.log.count (.relaunchFailed m)
  idle : ∀ m, x m = none → (s.mods m).needsRestart = true → (s.mods m).state ≠ .running

def resting : Mod → Option ℕ := fun _ => none

def owing (m : Mod) (k : ℕ) : Mod → Option ℕ := fun m' => if m' = m then some k else none

lemma count_costless {l : List Event} (hl : ∀ e ∈ l, e.costless = true) {e : Event}
    (he : e.costless = false) (es : List Event) : (l ++ es).count e = es.count e := by
  rw [List.count_append, List.count_eq_zero.mpr, Nat.zero_add]
  intro hm
  rw [hl e hm] at he
  cases he

lemma count_deaths (p : Mod → Bool) (m : Mod) :
    ((mods.filter p).map Event.died).reverse.count (.died m) = (p m).toNat := by
  cases m <;> cases hb : p .tsBot <;> cases hw : p .tsWebserver <;> simp [mods, hb, hw]

namespace Accounted

variable {x : Mod → Option ℕ} {flags : SigSet} {s s' : State} {m : Mod} {k : ℕ}

lemma costless {flags' : SigSet} {l : List Event} (h : Accounted x flags s)
    (hl : ∀ e ∈ l, e.costless = true) (hlog : s'.log = l ++ s.log) (hmask : s'.mask = flags')
    (hmods : ∀ m, (s'.mods m).numFails = (s.mods m).numFails ∧
      (s'.mods m).needsRestart = (s.mods m).needsRestart ∧
      (x m = none → (s'.mods m).state = .running →
        (s.mods m).state = .running ∨ (s.mods m).needsRestart = false)) :
    Accounted x flags' s' where
  mask := hmask
  numFails m := by
    rw [(hmods m).1, hlog, count_costless hl rfl]
    exact h.numFails m
  paid m := by
    rw [(hmods m).2.1, hlog, count_costless hl rfl, count_costless hl rfl, count_costless hl rfl]
    exact h.paid m
  idle m hx hn hr := by
    rw [(hmods m).2.1] at hn
    rcases (hmods m).2.2 hx hr with hr | hn'
    · exact h.idle m hx hn hr
    · rw [hn] at hn'
      cases hn'

lemma reap (h : Accounted x flags s) (dead status : Int) :
    Accounted x flags (Manager.reap dead status s) where
  mask := by simpa using h.mask
  numFails m := by
    have hc : ((Manager.reap dead status s).log.count (.failed m)) = s.log.count (.failed m) := by
      rw [reap_log, List.count_append, List.count_eq_zero.mpr, Nat.zero_add]
      simp
    rw [hc, ← h.numFails m, reap_mods, Module.onDeath_numFails]
  paid m := by
    have hp := h.paid m
    have hf : ((Manager.reap dead status s).log.count (.failed m)) = s.log.count (.failed m) := by
      rw [reap_log, List.count_append, List.count_eq_zero.mpr, Nat.zero_add]
      simp
    have hr : ((Manager.reap dead status s).log.count (.relaunchFailed m)) =
        s.log.count (.relaunchFailed m) := by
      rw [reap_log, List.count_append, List.count_eq_zero.mpr, Nat.zero_add]
      simp
    have hd : (Manager.reap dead status s).log.count (.died m) =
        ((s.mods m).dies dead).toNat + s.log.count (.died m) := by
      rw [reap_log, List.count_append, count_deaths]
    rw [hf, hr, hd, reap_mods, Module.onDeath]
    cases hx : x m with
    | some k =>
      rw [hx] at hp
      simp only [Option.getD_some] at hp ⊢
      omega
    | none =>
      rw [hx] at hp
      simp only [Option.getD_none] at hp ⊢
      by_cases hm : dead = (s.mods m).pid ∧ (s.mods m).state = .running
      · -- a running module is not waiting for a restart, so the death pays for the new one
        have hn : (s.mods m).needsRestart = false := by
          by_contra hn
          exact h.idle m hx (by simpa using hn) hm.2
        rw [if_pos hm, Module.dies, decide_eq_true hm]
        rw [hn] at hp
        simp only [Bool.toNat_true, Bool.toNat_false] at hp ⊢
        omega
      · rw [if_neg hm]
        omega
  idle m hx hn := by
    rw [reap_mods, Module.onDeath] at hn ⊢
    split
    case isTrue => simp
    case isFalse hm =>
      rw [if_neg hm] at hn
      exact h.idle m hx hn

lemma resists (x : Mod → Option ℕ) (flags : SigSet) : Resists (Accounted x flags) where
  pending s p h := h.costless (l := []) (by simp) rfl h.mask fun m => ⟨rfl, rfl, fun _ => Or.inl⟩
  childExit s pid status h :=
    h.costless (l := []) (by simp) rfl h.mask fun m => ⟨rfl, rfl, fun _ => Or.inl⟩
  reap s dead status _ h := h.reap dead status
  term s _ h := h.costless (l := [.terminated]) (by simp [Event.costless]) rfl h.mask
    fun m => ⟨rfl, rfl, fun _ => Or.inl⟩

lemma setMod (h : Accounted x flags s) {f : Module → Module}
    (hn : ∀ M, (f M).numFails = M.numFails) (hr : ∀ M, (f M).needsRestart = M.needsRestart)
    (hs : (f (s.mods m)).state = .running →
      (s.mods m).state = .running ∨ x m ≠ none ∨ (s.mods m).needsRestart = false) :
    Accounted x flags (s.setMod m f) := by
  refine h.costless (l := []) (by simp) rfl h.mask fun m' => ?_
  rw [State.setMod_mods]
  split
  case isTrue he =>
    subst he
    refine ⟨hn _, hr _, fun hx hrun => ?_⟩
    rcases hs hrun with hs | hs | hs
    · exact Or.inl hs
    · exact absurd hx hs
    · exact Or.inr hs
  case isFalse => exact ⟨rfl, rfl, fun _ => Or.inl⟩

end Accounted

structure RestartsAt (l : Option Op) (s : State) : Prop where
  down : ∀ m, l = some (.note (.retrying m)) → (s.mods m).state ≠ .running
  numFails : ∀ m, (s.mods m).numFails = UInt32.ofNat (s.log.count (.failed m))
  paid : ∀ m, s.log.count (.failed m) ≤ s.log.count (.died m) + s.log.count (.relaunchFailed m)

/-- A module is only launched by a command when it waits for no restart: `fork()` succeeds with
`SIGCHLD` blocked before, as it is in `__restart_mods`, or with `needs_restart` clear. -/
def unawaited (l : Option Op) (s : State) (i : Input Answer Signal) : Bool :=
  match l, i with
  | some (.fork m flags), .main (.pid _) => flags.chld || !(s.mods m).needsRestart
  | _, _ => true

section Walk

abbrev restartRules : Rules Op.Res State Answer Signal :=
  rules (fun l s i => unawaited l s i = true) RestartsAt

variable {x : Mod → Option ℕ} {flags : SigSet} {op : Op} {m : Mod}

lemma restartsAt (hn : ∀ m, op ≠ .note (.retrying m)) (s : State) (h : Accounted x flags s) :
    RestartsAt (some op) s where
  down m he := absurd (Option.some.inj he) (hn m)
  numFails := h.numFails
  paid m := (Nat.le_add_right _ _).trans (h.paid m)

lemma accounted_holds (x : Mod → Option ℕ) (flags : SigSet) :
    restartRules.Holds none (Accounted x flags) :=
  (Accounted.resists x flags).holds fun _ h =>
    ⟨nofun, h.numFails, fun m => (Nat.le_add_right _ _).trans (h.paid m)⟩

lemma Accounted.frame {s s' : State} (h : Accounted x flags s) (hf : Frame op s s')
    (hm : op.writesMods = false) (hl : op.writesLog = false) (hk : op.writesMask = false) :
    Accounted x flags s' :=
  h.costless (l := []) (by simp) (hf.log hl) ((hf.mask hk).trans h.mask) fun m => by
    rw [hf.mods hm]
    exact ⟨rfl, rfl, fun _ => Or.inl⟩

lemma accounted_keeps (hm : op.writesMods = false) (hl : op.writesLog = false)
    (hk : op.writesMask = false) : restartRules.Keeps (Accounted x flags) op := by
  refine (Accounted.resists x flags).atomic (restartsAt ?_) fun s i r s' h _ he =>
    h.frame (exec_frame he) hm hl hk
  rintro m rfl
  cases hl

lemma accounted_setPipefd (fd : Int) : restartRules.Keeps (Accounted x flags) (.setPipefd m fd) :=
  (Accounted.resists x flags).det (restartsAt (by simp)) (fun _ _ => rfl) fun _ h =>
    h.setMod (fun _ => rfl) (fun _ => rfl) Or.inl

lemma accounted_setPid (p : Int) : restartRules.Keeps (Accounted x flags) (.setPid m p) :=
  (Accounted.resists x flags).det (restartsAt (by simp)) (fun _ _ => rfl) fun _ h =>
    h.setMod (fun _ => rfl) (fun _ => rfl) Or.inl

lemma accounted_setState {st : ModState} (hst : st ≠ .running) :
    restartRules.Keeps (Accounted x flags) (.setState m st) :=
  (Accounted.resists x flags).det (restartsAt (by simp)) (fun _ _ => rfl) fun _ h =>
    h.setMod (fun _ => rfl) (fun _ => rfl) fun hr => absurd hr hst

lemma accounted_intrSave : restartRules.Atomic .intrSave (Accounted x flags)
    fun fl s => Accounted x blocked s ∧ fl = flags :=
  (Accounted.resists x flags).det (restartsAt (by simp)) (fun _ _ => rfl) fun _ h =>
    ⟨h.costless (l := []) (by simp) rfl rfl fun _ => ⟨rfl, rfl, fun _ => Or.inl⟩, h.mask⟩

lemma accounted_intrRestore {fl : SigSet} : restartRules.Atomic (.intrRestore fl)
    (Accounted x flags) fun _ => Accounted x fl :=
  (Accounted.resists x flags).det (restartsAt (by simp)) (fun _ _ => rfl) fun _ h =>
    h.costless (l := []) (by simp) rfl rfl fun _ => ⟨rfl, rfl, fun _ => Or.inl⟩

lemma accounted_note {e : Event} (he : e.costless = true) (hr : ∀ m, e ≠ .retrying m) :
    restartRules.Keeps (Accounted x flags) (.note e) :=
  (Accounted.resists x flags).det (restartsAt (by simpa using hr)) (fun _ _ => rfl) fun _ h =>
    h.costless (l := [e]) (by simpa using he) rfl h.mask fun _ => ⟨rfl, rfl, fun _ => Or.inl⟩

lemma endChild_accounted (m : Mod) : restartRules.Valid (Accounted x flags) (endChild m)
    fun _ => Accounted x flags := by
  refine .of_uses (accounted_holds x flags) ((endChild_uses m).mono fun op h => ?_)
  cases op with
  | setState m' st => cases st <;> first | cases h | exact accounted_setState (by simp)
  | setPid m' p => exact accounted_setPid p
  | _ => first
    | cases h
    | exact accounted_keeps rfl rfl rfl

lemma doModuleExit_accounted (x : Mod → Option ℕ) (flags : SigSet) (m : Mod) :
    restartRules.Valid (Accounted x flags) (doModuleExit m) fun _ => Accounted x flags := by
  refine .act (accounted_keeps rfl rfl rfl) fun (b : Bool) => ?_
  cases b with
  | true => exact fun _ h => h
  | false =>
  refine .act accounted_intrSave fun (fl : SigSet) => .of_fact ?_
  rintro rfl
  refine (endChild_accounted m).bind fun _ => .act (accounted_keeps rfl rfl rfl) fun _ => ?_
  refine .act accounted_intrRestore fun _ => .act (accounted_keeps rfl rfl rfl) fun _ => ?_
  exact .act (accounted_setPipefd (-1)) fun _ => .call (accounted_setState (by simp))

def Launching (x : Mod → Option ℕ) (m : Mod) (s : State) : Prop :=
  Accounted x blocked s ∧ (x m ≠ none ∨ (s.mods m).needsRestart = false)

lemma Launching.resists (x : Mod → Option ℕ) (m : Mod) : Resists (Launching x m) where
  pending s p h := ⟨(Accounted.resists x _).pending s p h.1, h.2⟩
  childExit s pid status h := ⟨(Accounted.resists x _).childExit s pid status h.1, h.2⟩
  reap s dead status hm h := by simp [h.1.mask] at hm
  term s hm h := by simp [h.1.mask] at hm

lemma fork_accounted (hx : x m ≠ none ∨ flags.chld = false) :
    restartRules.Atomic (.fork m flags) (Accounted x blocked) fun r s => match r with
      | none => Accounted x blocked s
      | some _ => Launching x m s := by
  refine (Accounted.resists x _).atomic (restartsAt (by simp)) fun s i r s' h hok he => ?_
  rcases exec_fork he with ⟨rfl, rfl⟩ | ⟨p, rfl, rfl, -, -, rfl⟩
  · exact h
  · refine ⟨h.costless (l := [.launched m]) (by simp [Event.costless]) rfl h.mask
      fun _ => ⟨rfl, rfl, fun _ => Or.inl⟩, ?_⟩
    rcases hx with hx | hf
    · exact Or.inl hx
    · exact Or.inr (by simpa [unawaited, hf] using hok)

lemma doModuleInit_accounted (hx : x m ≠ none ∨ flags.chld = false) :
    restartRules.Valid (Accounted x flags) (doModuleInit m) fun _ => Accounted x flags := by
  refine .act (accounted_keeps rfl rfl rfl) fun (b : Bool) => ?_
  cases b with
  | true => exact fun _ h => h
  | false =>
  refine .act (accounted_keeps rfl rfl rfl) fun (r : Option (Int × Int)) => ?_
  cases r with
  | none => exact fun _ h => h
  | some p =>
  obtain ⟨r, w⟩ := p
  refine .act (accounted_setPipefd r) fun _ => ?_
  refine .act accounted_intrSave fun (fl : SigSet) => .of_fact ?_
  rintro rfl
  refine .act (fork_accounted hx) fun (q : Option Int) => ?_
  cases q with
  | none =>
    refine .act accounted_intrRestore fun _ => .act (accounted_setPipefd (-1)) fun _ => ?_
    exact .act (accounted_keeps rfl rfl rfl) fun _ =>
      .act (accounted_keeps rfl rfl rfl) fun _ _ h => h
  | some p =>
    refine .act (B := fun _ => Accounted x blocked) ((Launching.resists x m).det
      (fun s h => restartsAt (by simp) s h.1) (fun _ _ => rfl) fun s h =>
        h.1.setMod (fun _ => rfl) (fun _ => rfl) fun _ => Or.inr h.2) fun _ => ?_
    refine .act (accounted_setPid p) fun _ => .act accounted_intrRestore fun _ => ?_
    exact .act (accounted_keeps rfl rfl rfl) fun _ =>
      .act (accounted_keeps rfl rfl rfl) fun _ _ h => h

lemma Accounted.retrying {s : State} (h : Accounted resting flags s)
    (hn : (s.mods m).needsRestart = true) :
    Accounted (owing m 1) flags (s.record (.retrying m)) where
  mask := h.mask
  numFails m' := by simpa using h.numFails m'
  paid m' := by
    have hp := h.paid m'
    simp only [State.record_log, ne_eq, reduceCtorEq, not_false_eq_true, List.count_cons_of_ne]
    by_cases hm : m' = m
    · subst hm
      simpa [owing, resting, hn] using hp
    · simpa [owing, resting, hm] using hp
  idle m' hx := h.idle m' rfl

lemma Accounted.bumped {s : State} {k : ℕ} (h : Accounted (owing m (k + 1)) flags s) :
    Accounted (owing m k) flags
      ((s.setMod m fun M => { M with numFails := M.numFails + 1 }).record (.failed m)) where
  mask := h.mask
  numFails m' := by
    have hn := h.numFails m'
    by_cases hm : m' = m
    · subst hm
      simp [hn, List.count_cons_self]
    · simpa [hm, Ne.symm hm] using hn
  paid m' := by
    have hp := h.paid m'
    by_cases hm : m' = m
    · subst hm
      simp only [owing, if_true, Option.getD_some, State.record_log, State.setMod_log,
        List.count_cons_self, ne_eq, reduceCtorEq, not_false_eq_true, List.count_cons_of_ne] at hp ⊢
      omega
    · simpa [owing, hm, Ne.symm hm] using hp
  idle m' hx := by
    have hm : m' ≠ m := by
      rintro rfl
      simp [owing] at hx
    simpa [hm] using h.idle m' (by simp [owing, hm])

lemma Accounted.relaunchFailed {s : State} {k : ℕ} (h : Accounted (owing m k) flags s) :
    Accounted (owing m (k + 1)) flags (s.record (.relaunchFailed m)) where
  mask := h.mask
  numFails m' := by simpa using h.numFails m'
  paid m' := by
    have hp := h.paid m'
    by_cases hm : m' = m
    · subst hm
      simp only [owing, if_true, Option.getD_some, State.record_log, List.count_cons_self, ne_eq,
        reduceCtorEq, not_false_eq_true, List.count_cons_of_ne] at hp ⊢
      omega
    · simpa [owing, hm, Ne.symm hm] using hp
  idle m' hx := h.idle m' (by simpa [owing] using hx)

lemma Accounted.cleared {s : State} {y : Mod → Option ℕ} (h : Accounted y flags s)
    (hy : ∀ m', m' ≠ m → y m' = none) :
    Accounted resting flags (s.setMod m ({ · with needsRestart := false })) where
  mask := h.mask
  numFails m' := by
    rw [State.setMod_mods]
    split
    case isTrue hm => exact hm ▸ h.numFails m
    case isFalse => exact h.numFails m'
  paid m' := by
    have hp := h.paid m'
    rw [State.setMod_mods]
    split
    case isTrue hm =>
      simp only [resting, Option.getD_none, Bool.toNat_false, State.setMod_log]
      omega
    case isFalse hm =>
      rw [hy m' hm] at hp
      exact hp
  idle m' _ hn := by
    rw [State.setMod_mods] at hn ⊢
    split at hn
    · cases hn
    case isFalse hm =>
      rw [if_neg hm]
      exact h.idle m' (hy m' hm) hn

def Awaiting (m : Mod) (s : State) : Prop :=
  Accounted resting blocked s ∧ (s.mods m).needsRestart = true

lemma Awaiting.resists (m : Mod) : Resists (Awaiting m) where
  pending s p h := ⟨(Accounted.resists _ _).pending s p h.1, h.2⟩
  childExit s pid status h := ⟨(Accounted.resists _ _).childExit s pid status h.1, h.2⟩
  reap s dead status hm h := by simp [h.1.mask] at hm
  term s hm h := by simp [h.1.mask] at hm

lemma restartMod_accounted (m : Mod) : restartRules.Valid (Accounted resting blocked)
    (restartMod m) fun _ => Accounted resting blocked := by
  have hone : ∀ m', m' ≠ m → owing m 0 m' = none := fun m' hm => by simp [owing, hm]
  refine restartMod_valid (A := Awaiting m) (I := Accounted (owing m 1) blocked)
    (O := Accounted (owing m 0) blocked) ?_ (fun st => ?_) (fun _ h => h.1) ?_ ?_
    (accounted_holds _ _) ?_ ?_
  · exact (Accounted.resists _ _).det (restartsAt (by simp)) (fun _ _ => rfl) fun s h =>
      ⟨h, fun hn => ⟨h, hn⟩⟩
  · exact (Awaiting.resists m).det (fun s h => restartsAt (by simp) s h.1) (fun _ _ => rfl)
      fun s h => h
  · exact (Awaiting.resists m).det (fun s h => restartsAt (by simp) s h.1) (fun _ _ => rfl)
      fun s h => h.1.cleared fun _ _ => rfl
  · refine (Awaiting.resists m).det (fun s h => ⟨fun m' he => ?_, h.1.numFails, fun m' =>
      (Nat.le_add_right _ _).trans (h.1.paid m')⟩) (fun _ _ => rfl) fun s h => h.1.retrying h.2
    cases he
    exact h.1.idle m rfl h.2
  · refine retry_valid (F := Accounted (owing m 0) blocked) (doModuleExit_accounted _ _ m)
      ((Accounted.resists _ _).det (restartsAt (by simp)) (fun _ _ => rfl) fun s h => h.bumped)
      (fun _ _ _ h => h) ?_
      ((Accounted.resists _ _).det (restartsAt (by simp)) (fun _ _ => rfl) fun s h =>
        h.relaunchFailed)
    exact fun _ _ => (doModuleInit_accounted (Or.inl (by simp [owing]))).strengthen fun r s h => by
      split <;> exact h
  · exact (Accounted.resists _ _).det (restartsAt (by simp)) (fun _ _ => rfl) fun s h =>
      h.cleared hone

abbrev unblocked : SigSet := ⟨false, false⟩

lemma section_keeps {fl fl' : SigSet} (hm : op.writesMods = false) (hl : op.writesLog = false)
    (hk : op.writesMask = false) :
    restartRules.Keeps (fun s => Accounted resting blocked s ∧ fl = fl') op :=
  ((Accounted.resists _ _).and (.const _)).atomic
    (fun s h => restartsAt (fun m he => by subst he; cases hl) s h.1) fun s i r s' h _ he =>
      ⟨h.1.frame (exec_frame he) hm hl hk, h.2⟩

lemma section_ends {fl fl' : SigSet} : restartRules.Atomic (.intrRestore fl)
    (fun s => Accounted resting blocked s ∧ fl = fl') fun _ => Accounted resting fl' :=
  ((Accounted.resists _ _).and (.const _)).det (fun s h => restartsAt (by simp) s h.1)
    (fun _ _ => rfl) fun s h =>
      h.1.costless (l := []) (by simp) rfl h.2 fun _ => ⟨rfl, rfl, fun _ => Or.inl⟩

lemma restartMods_accounted : restartRules.Valid (Accounted resting blocked) restartMods
    fun _ => Accounted resting blocked := by
  refine restartMods_valid accounted_intrSave (fun fl m => .of_fact ?_)
    (fun fl => section_keeps rfl rfl rfl) fun fl => section_ends
  rintro rfl
  exact (restartMod_accounted m).strengthen fun _ _ h => ⟨h, rfl⟩

lemma managerCleanupDirt_accounted : restartRules.Valid (Accounted resting unblocked)
    managerCleanupDirt fun _ => Accounted resting unblocked := by
  refine managerCleanupDirt_valid accounted_intrSave (fun fl => .of_fact ?_)
    (fun fl => section_keeps rfl rfl rfl) fun fl => section_ends
  rintro rfl
  exact restartMods_accounted.strengthen fun _ _ h => ⟨h, rfl⟩

lemma main_accounted (bot server : Bool) : restartRules.Valid (Accounted resting unblocked)
    (main bot server) fun _ => Accounted resting blocked := by
  have hplain (op : Op) (h : op.Plain) : restartRules.Keeps (Accounted resting unblocked) op :=
    accounted_keeps (by cases op <;> first | rfl | cases h) (by cases op <;> first | rfl | cases h)
      (by cases op <;> first | rfl | cases h)
  have hinit (m : Mod) : restartRules.Valid (Accounted resting unblocked) (doModuleInit m)
      fun _ => Accounted resting unblocked := doModuleInit_accounted (Or.inr rfl)
  have hcmd (cmd : ManagerCmds) (m : Mod) (errv : Int) :=
    runCommand_valid (accounted_note rfl (by simp)) (doModuleExit_accounted _ _ m) (hinit m)
      (doModuleExit_accounted _ _ m) (accounted_note rfl (by simp)) cmd errv
  have hstop : restartRules.Valid (Accounted resting unblocked) shutdownManager
      fun _ => Accounted resting blocked := by
    refine shutdownManager_valid ?_ (accounted_keeps rfl rfl rfl) (accounted_keeps rfl rfl rfl)
      (accounted_keeps rfl rfl rfl) (doModuleExit_accounted _ _)
    exact ⟨accounted_intrSave.holds, fun s i r s' h hr hok he =>
      (accounted_intrSave.exec s i r s' h hr hok he).1⟩
  exact main_valid hinit (hplain _ rfl) ((looped_of_plain (accounted_holds _ _) hplain hcmd
    managerCleanupDirt_accounted).startManagerLoop hstop) bot server

end Walk

theorem restarts_of_unawaited (b : Boot) (bot server : Bool) {c : Config Op.Res State Unit}
    (h : machine.Reaches (fun l s i => unawaited l s i = true) (start b bot server) c) :
    RestartsAt c.prog.next c.st :=
  (main_accounted bot server).guarantee (s := b.state) (fun _ => accounted_holds _ _)
    ⟨rfl, fun m => rfl, fun m => by simp [Boot.state, resting, defineModule], fun m _ hn => by
      cases hn⟩ h

set_option maxRecDepth 4000 in
theorem live_module_restarted : ¬ ∀ (b : Boot) (bot server : Bool) (c : Config Op.Res State Unit),
    machine.Reaches (fun _ _ _ => True) (start b bot server) c → RestartsAt c.prog.next c.st := by
  have hrun : (follow (fun _ _ _ => True) (start .terminal true false)
      (launching .tsBot ⟨false, false⟩ 4 5 10 ++ connecting 2 6 ++
        commanding 3 6 (ascii "enable ts_bot") ++ dying (.isRunning .tsBot) 10 ++
        launching .tsBot ⟨false, false⟩ 5 7 11 ++
        [(.note (.retrying .tsBot), .async .raiseChld)])).map
      (fun c => (c.prog.next, (c.st.mods .tsBot).state)) =
      some (some (.note (.retrying .tsBot)), .running) := by decide
  obtain ⟨c, hc, he⟩ := Option.map_eq_some_iff.mp hrun
  simp only [Prod.mk.injEq] at he
  intro h
  exact (h _ _ _ c (Machine.reaches_of_follow hc)).down .tsBot he.1 he.2

set_option maxRecDepth 4000 in
theorem restarts_of_unawaited_death : ∃ c : Config Op.Res State Unit,
    c.prog.next = some (.note (.retrying .tsBot)) ∧ (c.st.mods .tsBot).state = .dead ∧
      RestartsAt c.prog.next c.st := by
  have hrun : (follow (fun l s i => unawaited l s i = true) (start .terminal true false)
      (launching .tsBot ⟨false, false⟩ 4 5 10 ++ dying (.pollEnter [3, 4] 2) 10 ++
        [(.note (.retrying .tsBot), .async .raiseChld)])).map
      (fun c => (c.prog.next, (c.st.mods .tsBot).state)) =
      some (some (.note (.retrying .tsBot)), .dead) := by decide
  obtain ⟨c, hc, he⟩ := Option.map_eq_some_iff.mp hrun
  simp only [Prod.mk.injEq] at he
  exact ⟨c, he.1, he.2,
    restarts_of_unawaited .terminal true false (Machine.reaches_of_follow hc)⟩

end TeamspeakWebserver.Manager
