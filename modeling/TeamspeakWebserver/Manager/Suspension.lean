import TeamspeakWebserver.Manager.Composition
import TeamspeakWebserver.Manager.Frame
import TeamspeakWebserver.Manager.Interference

/-! What a `disable` command means for the launches that follow. -/

namespace TeamspeakWebserver.Manager

open Interruptible Prog Rules Sessions

def suspended (m : Mod) : List Event → Bool
  | [] => false
  | e :: es => e = .disabled m || (e ≠ .requested m && suspended m es)

def obeyed : List Event → Prop
  | [] => True
  | e :: es => (∀ m, e = .launched m → suspended m es = false) ∧ obeyed es

/-- Between a `disable` and a later launch of the module there is a command to launch it. -/
def NeverRevived (log : List Event) : Prop := ∀ m l₁ l₂ l₃,
  log = l₁ ++ .launched m :: (l₂ ++ .disabled m :: l₃) → .requested m ∈ l₂

lemma requested_of_not_suspended {m : Mod} {l₂ l₃ : List Event}
    (h : suspended m (l₂ ++ .disabled m :: l₃) = false) : .requested m ∈ l₂ := by
  induction l₂ with
  | nil => simp [suspended] at h
  | cons e l₂ ih =>
    simp only [List.cons_append, suspended, Bool.or_eq_false_iff, Bool.and_eq_false_iff,
      decide_eq_false_iff_not, not_not] at h
    rcases h.2 with he | hs
    · simp [he]
    · exact List.mem_cons_of_mem e (ih hs)

lemma neverRevived_of_obeyed {log : List Event} (h : obeyed log) : NeverRevived log := by
  intro m l₁ l₂ l₃ hl
  subst hl
  induction l₁ with
  | nil => exact requested_of_not_suspended (h.1 m rfl)
  | cons e l₁ ih => exact ih h.2

def Event.silent : Event → Bool
  | .launched _ | .requested _ | .disabled _ => false
  | _ => true

lemma suspended_silent {l : List Event} (hl : ∀ e ∈ l, e.silent = true) (m : Mod)
    (es : List Event) : suspended m (l ++ es) = suspended m es := by
  induction l with
  | nil => rfl
  | cons e l ih =>
    have he := hl e (by simp)
    have ih := ih fun d hd => hl d (by simp [hd])
    cases e <;> first | (cases he; done) | simpa [suspended] using ih

lemma obeyed_silent {l : List Event} (hl : ∀ e ∈ l, e.silent = true) {es : List Event}
    (h : obeyed es) : obeyed (l ++ es) := by
  induction l with
  | nil => exact h
  | cons e l ih =>
    have he := hl e (by simp)
    refine ⟨fun m hm => ?_, ih fun d hd => hl d (by simp [hd])⟩
    subst hm
    cases he

/-- A suspended module is parked and waits for no restart; the modules of `S` are not suspended. -/
structure Heeded (S : Mod → Prop) (s : State) : Prop where
  parked : ∀ m, suspended m s.log = true →
    (s.mods m).state.parked = true ∧ (s.mods m).needsRestart = false
  obeyed : obeyed s.log
  free : ∀ m, S m → suspended m s.log = false

namespace Heeded

variable {S : Mod → Prop} {s s' : State} {m : Mod}

lemma silent (h : Heeded S s) {l : List Event} (hl : ∀ e ∈ l, e.silent = true)
    (hlog : s'.log = l ++ s.log)
    (hm : ∀ m, suspended m s.log = true → (s.mods m).state.parked = true →
      (s.mods m).needsRestart = false → s'.mods m = s.mods m) : Heeded S s' where
  parked m hs := by
    rw [hlog, suspended_silent hl] at hs
    obtain ⟨hp, hn⟩ := h.parked m hs
    rw [hm m hs hp hn]
    exact ⟨hp, hn⟩
  obeyed := by rw [hlog]; exact obeyed_silent hl h.obeyed
  free m hS := by rw [hlog, suspended_silent hl]; exact h.free m hS

lemma resists (S : Mod → Prop) : Resists (Heeded S) where
  pending s p h := h.silent (l := []) (by simp) rfl fun _ _ _ _ => rfl
  childExit s pid status h := h.silent (l := []) (by simp) rfl fun _ _ _ _ => rfl
  reap s dead status _ h := by
    refine h.silent (fun e he => ?_) (reap_log dead status s) fun m _ hp _ => ?_
    · simp only [List.mem_reverse, List.mem_map] at he
      obtain ⟨m, -, rfl⟩ := he
      rfl
    · have hr : (s.mods m).state ≠ .running := by
        intro hr
        rw [hr] at hp
        cases hp
      rw [reap_mods, Module.onDeath, if_neg fun hd => hr hd.2]
  term s _ h := h.silent (l := [.terminated]) (by simp [Event.silent]) rfl fun _ _ _ _ => rfl

lemma setMod (h : Heeded S s) (hm : S m) (f : Module → Module) : Heeded S (s.setMod m f) := by
  refine h.silent (l := []) (by simp) rfl fun m' hs _ _ => ?_
  have hne : m' ≠ m := by
    rintro rfl
    simp [h.free m' hm] at hs
  simp [hne]

lemma launched (h : Heeded S s) (hm : S m) (hlog : s'.log = .launched m :: s.log)
    (hmods : s'.mods = s.mods) : Heeded S s' where
  parked m' hs := by
    rw [hlog] at hs
    rw [hmods]
    exact h.parked m' (by simpa [suspended] using hs)
  obeyed := by
    rw [hlog]
    refine ⟨fun m' he => ?_, h.obeyed⟩
    obtain rfl := Event.launched.inj he
    exact h.free m hm
  free m' hS := by
    rw [hlog]
    simpa [suspended] using h.free m' hS

lemma requested (h : Heeded S s) (m : Mod) :
    Heeded (fun m' => m' = m ∨ S m') (s.record (.requested m)) where
  parked m' hs := by
    simp only [State.record_log, suspended, Bool.or_eq_true, Bool.and_eq_true,
      decide_eq_true_eq, reduceCtorEq, false_or] at hs
    exact h.parked m' hs.2
  obeyed := ⟨fun m' he => (by cases he), h.obeyed⟩
  free m' hS := by
    simp only [State.record_log, suspended, Bool.or_eq_false_iff, Bool.and_eq_false_iff,
      decide_eq_false_iff_not, reduceCtorEq, not_false_eq_true, true_and, not_not]
    rcases hS with rfl | hS
    · exact Or.inl rfl
    · exact Or.inr (h.free m' hS)

lemma disabled (h : Heeded S s) (hp : (s.mods m).state.parked = true)
    (hn : (s.mods m).needsRestart = false) :
    Heeded (fun _ => False) (s.record (.disabled m)) where
  parked m' hs := by
    by_cases hm : m' = m
    · subst hm
      exact ⟨hp, hn⟩
    · refine h.parked m' ?_
      simp only [State.record_log, suspended, Bool.or_eq_true, Bool.and_eq_true,
        decide_eq_true_eq, Event.disabled.injEq] at hs
      rcases hs with he | hs
      · exact absurd he.symm hm
      · exact hs.2
  obeyed := ⟨fun m' he => (by cases he), h.obeyed⟩
  free _ hS := hS.elim

lemma mono {T : Mod → Prop} (h : Heeded S s) (hT : ∀ m, T m → S m) : Heeded T s :=
  ⟨h.parked, h.obeyed, fun m hm => h.free m (hT m hm)⟩

end Heeded

def settled (l : Option Op) (s : State) (i : Input Answer Signal) : Bool :=
  match l, i with
  | some (.note (.disabled m)), .main _ => !(s.mods m).needsRestart
  | _, _ => true

section Walk

abbrev suspensionRules : Rules Op.Res State Answer Signal :=
  rules (fun l s i => settled l s i = true) fun _ s => NeverRevived s.log

variable {S : Mod → Prop} {op : Op} {m : Mod}

lemma heeded_holds (S : Mod → Prop) (l : Option Op) : suspensionRules.Holds l (Heeded S) :=
  (Heeded.resists S).holds fun _ h => neverRevived_of_obeyed h.obeyed

lemma heeded_keeps (hm : op.writesMods = false) (hl : op.writesLog = false) :
    suspensionRules.Keeps (Heeded S) op := by
  refine (Heeded.resists S).atomic (fun _ h => neverRevived_of_obeyed h.obeyed)
    fun s i r s' h _ he => ?_
  have hf := exec_frame he
  exact h.silent (l := []) (by simp) (hf.log hl) fun m _ _ _ => by rw [hf.mods hm]

lemma heeded_setMod (hS : S m) {f : Module → Module}
    (hd : ∀ s i r s', exec op s i = some (r, s') → s' = s.setMod m f) :
    suspensionRules.Keeps (Heeded S) op := by
  refine (Heeded.resists S).atomic (fun _ h => neverRevived_of_obeyed h.obeyed)
    fun s i r s' h _ he => ?_
  rw [hd s i r s' he]
  exact h.setMod hS f

lemma heeded_on (hS : S m) (hop : op.On m) : suspensionRules.Keeps (Heeded S) op := by
  have hm {m' : Mod} (h : decide (m' = m) = true) : S m' := by
    obtain rfl := of_decide_eq_true h
    exact hS
  cases op with
  | setPipefd m' fd => exact heeded_setMod (hm hop) fun s i r s' he => by cases he; rfl
  | setState m' st => exact heeded_setMod (hm hop) fun s i r s' he => by cases he; rfl
  | setPid m' p => exact heeded_setMod (hm hop) fun s i r s' he => by cases he; rfl
  | fork m' flags =>
    refine (Heeded.resists S).atomic (fun _ h => neverRevived_of_obeyed h.obeyed)
      fun s i r s' h _ he => ?_
    rcases exec_fork he with ⟨-, rfl⟩ | ⟨p, -, -, -, -, rfl⟩
    · exact h
    · exact h.launched (hm hop) rfl rfl
  | _ => first
    | (cases hop; done)
    | exact heeded_keeps rfl rfl

lemma doModuleInit_heeded (hS : S m) :
    suspensionRules.Valid (Heeded S) (doModuleInit m) fun _ => Heeded S :=
  .of_uses (heeded_holds S none) ((doModuleInit_uses m).mono fun _ => heeded_on hS)

lemma doModuleExit_heeded (S : Mod → Prop) (m : Mod) : suspensionRules.Valid (Heeded S)
    (doModuleExit m) fun _ s => Heeded S s ∧ (s.mods m).state.parked = true := by
  refine .act (B := fun r s => Heeded S s ∧ (s.mods m).state.parked = r)
    ((Heeded.resists S).det (fun _ h => neverRevived_of_obeyed h.obeyed) (fun _ _ => rfl)
      fun s h => ⟨h, rfl⟩) fun (r : Bool) => ?_
  cases r with
  | true => exact fun _ h => h
  | false =>
  -- a module that is not parked is not suspended, and the rest of the function may change it
  let T := fun m' => m' = m ∨ S m'
  have hT : T m := Or.inl rfl
  refine Valid.weaken (A := Heeded T) ?_ fun s h => ⟨h.1.parked, h.1.obeyed, ?_⟩
  · refine .act (heeded_on hT rfl) fun flags => ?_
    refine (Valid.of_uses (heeded_holds T none)
      ((endChild_uses m).mono fun _ h => heeded_on hT h.on)).bind fun _ => ?_
    refine .act (heeded_on hT rfl) fun _ => .act (heeded_on hT rfl) fun _ => ?_
    refine .act (heeded_on hT (by simp [Op.On, Op.on])) fun _ => ?_
    refine .act (heeded_on hT (by simp [Op.On, Op.on])) fun _ => ?_
    refine .call ((Heeded.resists T).det (fun _ h => neverRevived_of_obeyed h.obeyed)
      (fun _ _ => rfl) fun s h => ?_)
    exact ⟨(h.setMod hT _).mono fun m' => Or.inr, by simp [ModState.parked]⟩
  · rintro m' (rfl | hS)
    · by_contra hs
      have hp := (h.1.parked m' (by simpa using hs)).1
      rw [h.2] at hp
      cases hp
    · exact h.1.free m' hS

lemma note_heeded {e : Event} (he : e.silent = true) :
    suspensionRules.Keeps (Heeded S) (.note e) :=
  (Heeded.resists S).det (fun _ h => neverRevived_of_obeyed h.obeyed) (fun _ _ => rfl)
    fun s h => h.silent (l := [e]) (by simpa using he) rfl fun _ _ _ _ => rfl

lemma restartMod_heeded (m : Mod) : suspensionRules.Valid (Heeded fun _ => False) (restartMod m)
    fun _ => Heeded fun _ => False := by
  have hm : (fun m' => m' = m) m := rfl
  have hmono {s : State} (h : Heeded (fun m' => m' = m) s) : Heeded (fun _ => False) s :=
    h.mono fun _ => False.elim
  have hclear : suspensionRules.Atomic (.clearNeedsRestart m) (Heeded fun m' => m' = m)
      fun _ => Heeded fun _ => False :=
    (Heeded.resists _).det (fun _ h => neverRevived_of_obeyed h.obeyed) (fun _ _ => rfl)
      fun s h => hmono (h.setMod hm _)
  refine restartMod_valid ?_ (fun st => heeded_keeps rfl rfl) (fun s => hmono) hclear
    (note_heeded rfl) (heeded_holds _ _) ?_ hclear
  · refine (Heeded.resists _).det (fun _ h => neverRevived_of_obeyed h.obeyed) (fun _ _ => rfl)
      fun s h => ⟨h, fun hn => ⟨h.parked, h.obeyed, ?_⟩⟩
    rintro m' rfl
    by_contra hs
    have hp := (h.parked m' (by simpa using hs)).2
    rw [hn] at hp
    cases hp
  · have hinit := doModuleInit_heeded (S := fun m' => m' = m) hm
    refine retry_valid (F := Heeded fun m' => m' = m)
      ((doModuleExit_heeded _ m).strengthen fun _ _ h => h.1) ?_ (fun _ _ _ h => h)
      (fun _ _ => hinit.strengthen fun r s h => by split <;> exact h) (note_heeded rfl)
    refine (Heeded.resists _).det (fun _ h => neverRevived_of_obeyed h.obeyed) (fun _ _ => rfl)
      fun s h => (h.setMod hm _).silent (l := [.failed m]) (by simp [Event.silent]) rfl
        fun _ _ _ _ => rfl

lemma runCommand_heeded (cmd : ManagerCmds) (m : Mod) (errv : Int) :
    suspensionRules.Valid (Heeded fun _ => False) (runCommand cmd m errv)
      fun _ => Heeded fun _ => False := by
  refine runCommand_valid (A := Heeded fun m' => m' = m ∨ False) ?_
    ((doModuleExit_heeded _ m).strengthen fun _ _ h => h.1)
    ((doModuleInit_heeded (Or.inl rfl)).strengthen fun _ s h => h.mono fun _ => False.elim)
    (doModuleExit_heeded _ m) ?_ cmd errv
  · exact (Heeded.resists _).det (fun _ h => neverRevived_of_obeyed h.obeyed) (fun _ _ => rfl)
      fun s h => h.requested m
  · refine ((Heeded.resists _).and (.parked m true)).atomic
      (fun _ h => neverRevived_of_obeyed h.1.obeyed) fun s i r s' h hok he => ?_
    cases he
    exact h.1.disabled h.2 (by simpa [settled] using hok)

lemma main_heeded (bot server : Bool) : suspensionRules.Valid (Heeded fun _ => True)
    (main bot server) fun _ => Heeded fun _ => False := by
  have hplain (op : Op) (h : op.Plain) : suspensionRules.Keeps (Heeded fun _ => False) op :=
    heeded_keeps (by cases op <;> first | rfl | cases h) (by cases op <;> first | rfl | cases h)
  have hexit (m : Mod) := (doModuleExit_heeded (fun _ => False) m).strengthen fun _ _ h => h.1
  refine main_of_plain (heeded_holds _ _) hplain (fun m => doModuleInit_heeded trivial) ?_
    runCommand_heeded (heeded_keeps rfl rfl) (fun _ => heeded_keeps rfl rfl) ?_ hexit bot server
  · exact (Heeded.resists _).det (fun _ h => neverRevived_of_obeyed h.obeyed) (fun _ _ => rfl)
      fun s h => ⟨h.parked, h.obeyed, fun _ => False.elim⟩
  · exact restartMods_valid (heeded_keeps rfl rfl) (fun _ m => restartMod_heeded m)
      (fun _ => hplain _ rfl) fun _ => heeded_keeps rfl rfl

end Walk

theorem neverRevived_of_settled (b : Boot) (bot server : Bool) {c : Config Op.Res State Unit}
    (h : machine.Reaches (fun l s i => settled l s i = true) (start b bot server) c) :
    NeverRevived c.st.log :=
  (main_heeded bot server).guarantee (s := b.state) (fun _ => heeded_holds _ _)
    ⟨fun _ hs => (by cases hs), trivial, fun _ _ => rfl⟩ h

set_option maxRecDepth 4000 in
theorem disabled_revived : ¬ ∀ (b : Boot) (bot server : Bool) (c : Config Op.Res State Unit),
    machine.Reaches (fun _ _ _ => True) (start b bot server) c → NeverRevived c.st.log := by
  have hrun : (follow (fun _ _ _ => True) (start .terminal true false)
      (launching .tsBot ⟨false, false⟩ 4 5 10 ++ connecting 2 6 ++
        commanding 3 6 (ascii "disable ts_bot") ++ dying (.isParked .tsBot) 10 ++
        launching .tsBot ⟨true, true⟩ 4 5 11)).map (fun c => c.st.log) =
      some [.launched .tsBot, .failed .tsBot, .retrying .tsBot, .disabled .tsBot, .died .tsBot,
        .launched .tsBot] := by decide
  obtain ⟨c, hc, he⟩ := Option.map_eq_some_iff.mp hrun
  intro h
  have hreq := h _ _ _ c (Machine.reaches_of_follow hc) .tsBot []
    [.failed .tsBot, .retrying .tsBot] [.died .tsBot, .launched .tsBot] he
  simp at hreq

set_option maxRecDepth 4000 in
theorem neverRevived_of_settled_enable : ∃ c : Config Op.Res State Unit,
    c.st.log = [.launched .tsBot, .requested .tsBot, .disabled .tsBot, .launched .tsBot] ∧
      NeverRevived c.st.log := by
  have hrun : (follow (fun l s i => settled l s i = true) (start .terminal true false)
      (launching .tsBot ⟨false, false⟩ 4 5 10 ++ connecting 2 6 ++
        commanding 3 6 (ascii "disable ts_bot") ++ commanding 2 6 (ascii "enable ts_bot") ++
        launching .tsBot ⟨false, false⟩ 4 5 11)).map (fun c => c.st.log) =
      some [.launched .tsBot, .requested .tsBot, .disabled .tsBot, .launched .tsBot] := by decide
  obtain ⟨c, hc, he⟩ := Option.map_eq_some_iff.mp hrun
  exact ⟨c, he, neverRevived_of_settled .terminal true false (Machine.reaches_of_follow hc)⟩

end TeamspeakWebserver.Manager
