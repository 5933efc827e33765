import TeamspeakWebserver.Manager.Composition
import TeamspeakWebserver.Manager.Frame
import TeamspeakWebserver.Manager.Interference

/-! The running modules and the children of the manager correspond. -/

namespace TeamspeakWebserver.Manager

open Interruptible Prog Rules Sessions

structure Owned (s : State) : Prop where
  running_iff : ∀ m, (s.mods m).state = .running ↔ 0 < (s.mods m).pid
  injective : ∀ m m', (s.mods m).state = .running → (s.mods m').state = .running →
    (s.mods m).pid = (s.mods m').pid → m = m'
  owned_iff : ∀ p, (∃ m, (s.mods m).state = .running ∧ (s.mods m).pid = p) ↔
    ∃ c ∈ s.children, c.pid = p ∧ c.signalled = false
  nodup : (s.children.map (·.pid)).Nodup

namespace Owned

variable {s : State}

lemma congr {s' : State} (h : Owned s)
    (hm : ∀ m, ((s'.mods m).state = .running ↔ (s.mods m).state = .running) ∧
      (s'.mods m).pid = (s.mods m).pid)
    (hc : s'.children = s.children) : Owned s' where
  running_iff m := by rw [(hm m).1, (hm m).2]; exact h.running_iff m
  injective m m' := by rw [(hm m).1, (hm m').1, (hm m).2, (hm m').2]; exact h.injective m m'
  owned_iff p := by simp only [(hm _).1, (hm _).2, hc]; exact h.owned_iff p
  nodup := by rw [hc]; exact h.nodup

lemma setMod {m : Mod} {f : Module → Module} (h : Owned s) (hs : ∀ M, (f M).state = M.state)
    (hp : ∀ M, (f M).pid = M.pid) : Owned (s.setMod m f) :=
  h.congr (fun m' => by rw [State.setMod_mods]; split <;> simp_all) rfl

lemma childExit (h : Owned s) (pid status : Int) : Owned (s.childExit pid status) where
  running_iff := h.running_iff
  injective := h.injective
  owned_iff p := by
    rw [show (∃ m, ((s.childExit pid status).mods m).state = .running ∧
      ((s.childExit pid status).mods m).pid = p) ↔ _ from h.owned_iff p]
    simp only [State.childExit, List.mem_map]
    constructor
    · rintro ⟨c, hc, hp⟩
      exact ⟨_, ⟨c, hc, rfl⟩, by split <;> exact hp⟩
    · rintro ⟨_, ⟨c, hc, rfl⟩, hp⟩
      exact ⟨c, hc, by split at hp <;> exact hp⟩
  nodup := by
    have he : (s.childExit pid status).children.map (·.pid) = s.children.map (·.pid) := by
      simp only [State.childExit, List.map_map]
      exact List.map_congr_left fun c _ => by simp only [Function.comp]; split <;> rfl
    rw [he]
    exact h.nodup

lemma reap (h : Owned s) (dead status : Int) : Owned (reap dead status s) where
  running_iff m := by
    have hm := h.running_iff m
    simp only [reap_mods, Module.onDeath]
    split
    · simp
    · exact hm
  injective m m' := by
    have hm := h.injective m m'
    simp only [reap_mods, Module.onDeath]
    split <;> split <;> simp_all
  owned_iff p := by
    have hr (m : Mod) : ((s.mods m).onDeath dead status).state = .running ∧
        ((s.mods m).onDeath dead status).pid = p ↔
        ((s.mods m).state = .running ∧ (s.mods m).pid = p) ∧ p ≠ dead := by
      unfold Module.onDeath
      split
      case isTrue hd => simp [hd.2, ← hd.1, eq_comm]
      case isFalse hd =>
        refine ⟨fun hm => ⟨hm, ?_⟩, fun hm => hm.1⟩
        rintro rfl
        exact hd ⟨hm.2.symm, hm.1⟩
    simp only [reap_mods, hr, exists_and_right, h.owned_iff, reap_children, List.mem_filter]
    constructor
    · rintro ⟨⟨c, hc, hp, hf⟩, hd⟩
      exact ⟨c, ⟨hc, by simpa [hp] using hd⟩, hp, hf⟩
    · rintro ⟨c, ⟨hc, hd⟩, hp, hf⟩
      exact ⟨⟨c, hc, hp, hf⟩, by simpa [hp] using hd⟩
  nodup := by
    rw [reap_children]
    exact h.nodup.sublist (List.filter_sublist.map _)

lemma resists : Resists Owned where
  pending _ _ h := h.congr (fun _ => ⟨Iff.rfl, rfl⟩) rfl
  childExit _ pid status h := h.childExit pid status
  reap _ dead status _ h := h.reap dead status
  term _ _ h := h.congr (fun _ => ⟨Iff.rfl, rfl⟩) rfl

lemma launch (h : Owned s) {m : Mod} {p : Int} (hm : (s.mods m).state ≠ .running) (hp : 0 < p)
    (hc : s.isChild p = false) :
    Owned ({ s with children := s.children ++ [Child.mk p none false] }.setMod m
      ({ · with state := .running, pid := p })) := by
  have hc' : ∀ c ∈ s.children, c.pid ≠ p := by simpa [State.isChild] using hc
  have hne (m' : Mod) (hr : (s.mods m').state = .running) : (s.mods m').pid ≠ p := by
    obtain ⟨c, hcm, hcp, _⟩ := (h.owned_iff _).mp ⟨m', hr, rfl⟩
    exact hcp ▸ hc' c hcm
  refine ⟨fun m' => ?_, fun m₁ m₂ => ?_, fun q => ?_, ?_⟩
  · rw [State.setMod_mods]
    split
    · simpa using hp
    · exact h.running_iff m'
  · rw [State.setMod_mods, State.setMod_mods]
    split <;> split
    · simp_all
    · intro _ hr he
      exact absurd he.symm (hne m₂ hr)
    · intro hr _ he
      exact absurd he (hne m₁ hr)
    · exact h.injective m₁ m₂
  · have ho := h.owned_iff q
    simp only [State.setMod_children, List.mem_append, List.mem_singleton]
    constructor
    · rintro ⟨m', hr, hq⟩
      rw [State.setMod_mods] at hr hq
      split at hr
      · exact ⟨_, Or.inr rfl, by simp_all⟩
      · obtain ⟨c, hcm, hcq⟩ := ho.mp ⟨m', hr, by simp_all⟩
        exact ⟨c, Or.inl hcm, hcq⟩
    · rintro ⟨c, hcm | rfl, hq, hf⟩
      · obtain ⟨m', hr, hq'⟩ := ho.mpr ⟨c, hcm, hq, hf⟩
        have hn : m' ≠ m := by rintro rfl; exact hm hr
        exact ⟨m', by simpa [hn] using hr, by simpa [hn] using hq'⟩
      · exact ⟨m, by simp, by simpa using hq⟩
  · simpa [List.nodup_append, h.nodup] using hc'

lemma isChild (h : Owned s) {m : Mod} (hm : (s.mods m).state = .running) :
    ∃ c ∈ s.children, c.pid = (s.mods m).pid ∧ c.signalled = false :=
  (h.owned_iff _).mp ⟨m, hm, rfl⟩

lemma kill (h : Owned s) {m : Mod} (hm : (s.mods m).state = .running) :
    (s.kill (s.mods m).pid).1 = 0 ∧
      Owned ((s.kill (s.mods m).pid).2.setMod m ({ · with state := .dead, pid := -1 })) := by
  obtain ⟨c₀, hc₀, hp₀, _⟩ := h.isChild hm
  have hk : s.isChild (s.mods m).pid = true := by
    simp only [State.isChild, List.any_eq_true, decide_eq_true_eq]
    exact ⟨c₀, hc₀, hp₀⟩
  simp only [State.kill, hk, if_true, true_and]
  refine ⟨fun m' => ?_, fun m₁ m₂ => ?_, fun q => ?_, ?_⟩
  · rw [State.setMod_mods]
    split
    · simp
    · exact h.running_iff m'
  · rw [State.setMod_mods, State.setMod_mods]
    split <;> split <;> simp_all
    exact h.injective m₁ m₂
  · have ho := h.owned_iff q
    simp only [State.setMod_children, List.mem_map]
    constructor
    · rintro ⟨m', hr, hq⟩
      rw [State.setMod_mods] at hr hq
      split at hr
      · cases hr
      case isFalse hn =>
        rw [if_neg hn] at hq
        obtain ⟨c, hcm, hcq, hf⟩ := ho.mp ⟨m', hr, hq⟩
        have hne : c.pid ≠ (s.mods m).pid := fun he =>
          hn (h.injective m' m hr hm (by rw [hq, ← hcq, he]))
        exact ⟨c, ⟨c, hcm, if_neg hne⟩, hcq, hf⟩
    · rintro ⟨_, ⟨c, hcm, rfl⟩, hq, hf⟩
      split at hf
      · cases hf
      case isFalse hne =>
        rw [if_neg hne] at hq
        obtain ⟨m', hr, hq'⟩ := ho.mpr ⟨c, hcm, hq, hf⟩
        have hn : m' ≠ m := by
          rintro rfl
          exact hne (hq.trans hq'.symm)
        exact ⟨m', by simpa [hn] using hr, by simpa [hn] using hq'⟩
  · have he : (s.children.map fun c => if c.pid = (s.mods m).pid then
        { c with signalled := true } else c).map (·.pid) = s.children.map (·.pid) := by
      rw [List.map_map]
      exact List.map_congr_left fun c _ => by simp only [Function.comp]; split <;> rfl
    simp only [State.setMod_children, he]
    exact h.nodup

end Owned

/-- Outside the blocked sections, and outside the module functions even there, the children are
owned; and `do_module_exit` signals one of them. -/
structure OwnedAt (l : Option Op) (s : State) : Prop where
  unblocked : s.mask.chld = false → Owned s
  outside : (∀ op, l = some op → op.Plain) → Owned s
  kill : ∀ m hard, l = some (.kill m hard) →
    ∃ c ∈ s.children, c.pid = (s.mods m).pid ∧ c.signalled = false

def Section (f : State → State) (s : State) : Prop := s.mask = ⟨true, true⟩ ∧ Owned (f s)

section Walk

variable {ok : Condition Op State Answer Signal} {P : State → Prop} {op : Op} {m : Mod}

lemma ownedAt (hn : ∀ m hard, op ≠ .kill m hard) (hP : ∀ s, P s → Owned s) (s : State) (h : P s) :
    OwnedAt (some op) s :=
  ⟨fun _ => hP s h, fun _ => hP s h, fun m hard he => (hn m hard (Option.some.inj he)).elim⟩

lemma ownedAt_blocked (hop : op.ofModule = true) (hn : ∀ m hard, op ≠ .kill m hard)
    (hP : ∀ s, P s → s.mask = ⟨true, true⟩) (s : State) (h : P s) : OwnedAt (some op) s where
  unblocked hm := by simp [hP s h] at hm
  outside ho := by simp [Op.Plain, hop] at ho
  kill m hard he := (hn m hard (Option.some.inj he)).elim

lemma Owned.frame {s s' : State} (h : Owned s) (hf : Frame op s s') (hm : op.writesMods = false)
    (hc : op.writesChildren = false) : Owned s' :=
  h.congr (fun m => by simp [hf.mods hm]) (hf.children hc)

lemma owned_keeps (hm : op.writesMods = false) (hc : op.writesChildren = false) :
    (rules ok OwnedAt).Keeps Owned op := by
  refine Owned.resists.atomic (ownedAt ?_ fun _ h => h) fun s i r s' h _ he => ?_
  · rintro m hard rfl
    cases hc
  · exact h.frame (exec_frame he) hm hc

def Idle (m : Mod) (s : State) : Prop := Owned s ∧ (s.mods m).state ≠ .running

lemma Idle.resists (m : Mod) : Resists (Idle m) := Owned.resists.and (.notRunning m)

lemma Idle.frame {s s' : State} (h : Idle m s) (hf : Frame op s s') (hm : op.writesMods = false)
    (hc : op.writesChildren = false) : Idle m s' :=
  ⟨h.1.frame hf hm hc, by rw [hf.mods hm]; exact h.2⟩

lemma idle_keeps (hm : op.writesMods = false) (hc : op.writesChildren = false) :
    (rules ok OwnedAt).Keeps (Idle m) op := by
  refine (Idle.resists m).atomic (ownedAt ?_ fun _ h => h.1) fun s i r s' h _ he => ?_
  · rintro m hard rfl
    cases hc
  · exact h.frame (exec_frame he) hm hc

lemma idle_setPipefd (fd : Int) : (rules ok OwnedAt).Keeps (Idle m) (.setPipefd m fd) :=
  (Idle.resists m).det (ownedAt (by simp) fun _ h => h.1) (fun _ _ => rfl) fun s h =>
    ⟨h.1.setMod (fun _ => rfl) fun _ => rfl, by simpa using h.2⟩

lemma Section.resists (f : Module → Module) : Resists (Section (·.setMod m f)) :=
  .blocked (fun _ _ h => h.congr (fun _ => ⟨Iff.rfl, rfl⟩) rfl)
    fun _ pid status h => h.childExit pid status

lemma Section.atomic {f : Module → Module} {Q : op.Res → State → Prop}
    (hop : op.ofModule = true) (hn : ∀ m hard, op ≠ .kill m hard)
    (hx : ∀ s i r s', Section (·.setMod m f) s → exec op s i = some (r, s') → Q r s') :
    (rules ok OwnedAt).Atomic op (Section (·.setMod m f)) Q :=
  (Section.resists f).atomic (ownedAt_blocked hop hn fun _ h => h.1) fun s i r s' h _ => hx s i r s' h

def Forked (m : Mod) : Option Int → State → Prop
  | none => Idle m
  | some p => Section (·.setMod m ({ · with state := .running, pid := p }))

lemma fork_owned (flags : SigSet) : (rules ok OwnedAt).Atomic (.fork m flags)
    (fun s => s.mask = ⟨true, true⟩ ∧ Idle m s) (Forked m) := by
  refine (Resists.and (.mask _) (Idle.resists m)).atomic
    (ownedAt_blocked rfl (by simp) fun _ h => h.1) fun s i r s' h _ he => ?_
  rcases exec_fork he with ⟨rfl, rfl⟩ | ⟨p, -, rfl, hp, hc, rfl⟩
  · exact h.2
  · exact ⟨h.1, (h.2.1.launch h.2.2 hp hc).congr (fun _ => ⟨Iff.rfl, rfl⟩) rfl⟩

lemma launched_owned (p : Int) (flags : SigSet) (w : Int) :
    (rules ok OwnedAt).Valid (Forked m (some p)) (do
      stmt (.setState m .running)
      stmt (.setPid m p)
      stmt (.intrRestore flags)
      stmt (.closeFd w)
      stmt (.setModsDirty true)
      return (0 : Int)) fun _ => Owned := by
  refine .act (B := fun _ => Section (·.setMod m ({ · with pid := p })))
    (Section.atomic rfl (by simp) fun s i r s' h he => ?_) fun _ => ?_
  · cases he
    exact ⟨h.1, by simpa only [setMod_setMod] using h.2⟩
  refine .act (B := fun _ => Section (·.setMod m fun M => M))
    (Section.atomic rfl (by simp) fun s i r s' h he => ?_) fun _ => ?_
  · cases he
    exact ⟨h.1, by simpa only [setMod_setMod] using h.2⟩
  refine .act (B := fun _ => Owned) (Section.atomic rfl (by simp) fun s i r s' h he => ?_) fun _ => ?_
  · cases he
    have ho : Owned s := by simpa only [setMod_id] using h.2
    exact ho.congr (fun _ => ⟨Iff.rfl, rfl⟩) rfl
  exact .act (owned_keeps rfl rfl) fun _ => .act (owned_keeps rfl rfl) fun _ _ h => h

lemma doModuleInit_owned (m : Mod) :
    (rules ok OwnedAt).Valid Owned (doModuleInit m) fun _ => Owned := by
  refine .act (B := fun r s => Owned s ∧ (r = false → (s.mods m).state ≠ .running))
    (Owned.resists.det (ownedAt (by simp) fun _ h => h) (fun _ _ => rfl)
      fun s h => ⟨h, by simp⟩) fun (r : Bool) => ?_
  cases r with
  | true => exact fun _ h => h.1
  | false =>
  refine Valid.weaken (A := Idle m) ?_ fun s h => ⟨h.1, h.2 rfl⟩
  refine .act (idle_keeps rfl rfl) fun (r : Option (Int × Int)) => ?_
  cases r with
  | none => exact fun _ h => h.1
  | some p =>
  obtain ⟨r, w⟩ := p
  refine .act (idle_setPipefd r) fun _ => ?_
  refine .act (B := fun _ s => s.mask = ⟨true, true⟩ ∧ Idle m s)
    ((Idle.resists m).det (ownedAt (by simp) fun _ h => h.1) (fun _ _ => rfl) fun s h =>
      ⟨rfl, h.1.congr (fun _ => ⟨Iff.rfl, rfl⟩) rfl, h.2⟩) fun flags => ?_
  refine .act (fork_owned flags) fun (r : Option Int) => ?_
  cases r with
  | none =>
    refine .act (idle_keeps rfl rfl) fun _ => .act (idle_setPipefd (-1)) fun _ => ?_
    exact .act (idle_keeps rfl rfl) fun _ => .act (idle_keeps rfl rfl) fun _ _ h => h.1
  | some p => exact launched_owned p flags w

lemma kill_owned (hard : Bool) : (rules ok OwnedAt).Atomic (.kill m hard)
    (fun s => s.mask = ⟨true, true⟩ ∧ Owned s ∧ (s.mods m).state = .running)
    fun r s => r = 0 ∧ Section (·.setMod m ({ · with state := .dead, pid := -1 })) s := by
  refine (Resists.blocked ?_ ?_).atomic ?_ fun s i r s' h _ he => ?_
  · exact fun s p h => ⟨h.1.congr (fun _ => ⟨Iff.rfl, rfl⟩) rfl, h.2⟩
  · exact fun s pid status h => ⟨h.1.childExit pid status, h.2⟩
  · intro s h
    refine ⟨fun hm => by simp [h.1] at hm, fun ho => absurd (ho _ rfl) (by simp [Op.ofModule]),
      fun m' hard' he => ?_⟩
    cases he
    exact h.2.1.isChild h.2.2
  · obtain ⟨hr, ho⟩ := h.2.1.kill h.2.2
    have hx : s.kill (s.mods m).pid = (r, s') := Option.some.inj he
    rw [hx] at hr ho
    refine ⟨hr, ?_, ho⟩
    rw [(exec_frame he).mask rfl]
    exact h.1

lemma endChild_owned (m : Mod) : (rules ok OwnedAt).Valid
    (fun s => s.mask = ⟨true, true⟩ ∧ Owned s) (endChild m)
    fun _ s => s.mask = ⟨true, true⟩ ∧ Idle m s := by
  have hb : Resists fun s => s.mask = ⟨true, true⟩ ∧ Owned s := Resists.and (.mask _) Owned.resists
  refine .act (B := fun r s => s.mask = ⟨true, true⟩ ∧ Owned s ∧
      (r = true ↔ (s.mods m).state = .running))
    (hb.det (ownedAt_blocked rfl (by simp) fun _ h => h.1) (fun _ _ => rfl)
      fun s h => ⟨h.1, h.2, by simp⟩) fun (r : Bool) => ?_
  cases r with
  | false => exact fun _ h => ⟨h.1, h.2.1, by simpa using h.2.2⟩
  | true =>
  refine Valid.weaken (A := fun s => s.mask = ⟨true, true⟩ ∧ Owned s ∧ (s.mods m).state = .running)
    ?_ fun s h => ⟨h.1, h.2.1, h.2.2.mp rfl⟩
  refine .act (kill_owned false) fun (r : Int) => ?_
  change (rules ok OwnedAt).Valid _ (if r ≠ 0 then _ else _ : Code Unit) _
  split
  -- `kill` has found the child, so the second signal is never sent
  case isTrue hr => exact .absurd fun s h => hr h.1
  case isFalse =>
    refine Valid.weaken (A := Section (·.setMod m ({ · with state := .dead, pid := -1 })))
      ?_ fun s h => h.2
    refine .act (B := fun _ s => Section (·.setMod m ({ · with pid := -1 })) s ∧
        (s.mods m).state ≠ .running)
      (Section.atomic rfl (by simp) fun s i r s' h he => ?_) fun _ =>
        .call (((Section.resists _).and (.notRunning m)).atomic
          (ownedAt_blocked rfl (by simp) fun _ h => h.1.1) fun s i r s' h _ he => ?_)
    · cases he
      exact ⟨⟨h.1, by simpa only [setMod_setMod] using h.2⟩, by simp⟩
    · cases he
      exact ⟨h.1.1, h.1.2, by simpa using h.2⟩

lemma doModuleExit_owned (m : Mod) :
    (rules ok OwnedAt).Valid Owned (doModuleExit m) fun _ => Owned := by
  refine .act (owned_keeps rfl rfl) fun (b : Bool) => ?_
  cases b with
  | true => exact fun _ h => h
  | false =>
  refine .act (B := fun _ s => s.mask = ⟨true, true⟩ ∧ Owned s)
    (Owned.resists.det (ownedAt (by simp) fun _ h => h) (fun _ _ => rfl) fun s h =>
      ⟨rfl, h.congr (fun _ => ⟨Iff.rfl, rfl⟩) rfl⟩) fun flags => ?_
  refine (endChild_owned m).bind fun _ => ?_
  refine (Valid.act (idle_keeps rfl rfl) fun _ => ?_).weaken fun s h => h.2
  refine .act (idle_keeps rfl rfl) fun _ => .act (idle_keeps rfl rfl) fun _ => ?_
  refine .act (idle_setPipefd (-1)) fun _ => ?_
  -- the state is written with the signals open, but a module that is not running stays so
  refine .call ((Idle.resists m).det (ownedAt (by simp) fun _ h => h.1) (fun _ _ => rfl) ?_)
  refine fun s h => h.1.congr (fun m' => ?_) rfl
  rw [State.setMod_mods]
  split
  case isTrue hm => simp [hm, h.2]
  case isFalse => exact ⟨Iff.rfl, rfl⟩

lemma owned_none : (rules ok OwnedAt).Holds none Owned :=
  Owned.resists.holds fun _ h => ⟨fun _ => h, fun _ => h, fun _ _ he => nomatch he⟩

lemma main_owned (bot server : Bool) :
    (rules ok OwnedAt).Valid Owned (main bot server) fun _ => Owned := by
  have hplain (op : Op) (h : op.Plain) : (rules ok OwnedAt).Keeps Owned op :=
    owned_keeps (by cases op <;> first | rfl | cases h) (by cases op <;> first | rfl | cases h)
  have hkeep (op : Op) (h : op.ofRestart = true) : (rules ok OwnedAt).Keeps Owned op := by
    cases op with
    | clearNeedsRestart m =>
      exact Owned.resists.det (ownedAt (by simp) fun _ h => h) (fun _ _ => rfl) fun s h =>
        h.setMod (fun _ => rfl) fun _ => rfl
    | bumpFails m =>
      refine Owned.resists.det (ownedAt (by simp) fun _ h => h) (fun _ _ => rfl) fun s h => ?_
      have ho : Owned (s.setMod m fun M => { M with numFails := M.numFails + 1 }) :=
        h.setMod (fun _ => rfl) fun _ => rfl
      exact ho.congr (fun _ => ⟨Iff.rfl, rfl⟩) rfl
    | _ => first | exact owned_keeps rfl rfl | cases h
  exact main_of_plain owned_none hplain doModuleInit_owned (hplain _ rfl)
    (runCommand_of_keeps hkeep doModuleInit_owned doModuleExit_owned)
    (hkeep _ rfl) (fun _ => hkeep _ rfl)
    (restartMods_of_keeps owned_none hkeep doModuleInit_owned doModuleExit_owned) doModuleExit_owned
    bot server

end Walk

lemma boot_owned (b : Boot) : Owned b.state where
  running_iff m := by simp [Boot.state, defineModule]
  injective m m' h := by simp [Boot.state, defineModule] at h
  owned_iff p := by simp [Boot.state, defineModule]
  nodup := by simp [Boot.state]

lemma reapAll_changes {cs : List Child} {s : State} {m : Mod}
    (h : (reapAll cs s).mods m ≠ s.mods m) :
    (s.mods m).state = .running ∧ ∃ c ∈ cs, c.status.isSome ∧ c.pid = (s.mods m).pid := by
  induction cs generalizing s with
  | nil => exact absurd rfl h
  | cons c cs ih =>
    rw [reapAll] at h
    cases hc : c.status with
    | none =>
      rw [hc] at h
      obtain ⟨hr, d, hd, hp⟩ := ih h
      exact ⟨hr, d, by simp [hd], hp⟩
    | some status =>
      rw [hc] at h
      by_cases hd : c.pid = (s.mods m).pid ∧ (s.mods m).state = .running
      · exact ⟨hd.2, c, by simp, by simp [hc], hd.1⟩
      · have he : (reap c.pid status s).mods m = s.mods m := by
          rw [reap_mods, Module.onDeath, if_neg hd]
        obtain ⟨hr, d, hd, hp⟩ := ih (s := reap c.pid status s) (by rwa [he])
        rw [he] at hr hp
        exact ⟨hr, d, by simp [hd], hp⟩

lemma Owned.deliverChld {s s' : State} (h : Owned s) (hs : signal s .deliverChld = some s') {m : Mod}
    (hm : s'.mods m ≠ s.mods m) :
    ∃ c ∈ s.children, c.pid = (s.mods m).pid ∧ c.status.isSome ∧ c.signalled = false := by
  simp only [signal] at hs
  split at hs
  case isFalse => cases hs
  case isTrue =>
  cases hs
  obtain ⟨hr, c, hc, hst, hp⟩ := reapAll_changes hm
  obtain ⟨d, hd, hq, hf⟩ := h.isChild hr
  obtain rfl : c = d := List.inj_on_of_nodup_map h.nodup hc hd (hp.trans hq.symm)
  exact ⟨c, hc, hp, hst, hf⟩

end TeamspeakWebserver.Manager
