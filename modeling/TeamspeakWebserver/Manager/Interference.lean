import TeamspeakWebserver.Interruptible.Logic
import TeamspeakWebserver.Manager.Program

/-! What the signals can do to the manager between two of its statements. -/

namespace TeamspeakWebserver.Manager

open Interruptible Prog Rules Sessions

def Module.onDeath (M : Module) (dead status : Int) : Module :=
  if dead = M.pid ∧ M.state = .running then
    { M with state := .dead, needsRestart := true, pid := -1, wstatus := status }
  else M

namespace State

def setPending (s : State) (p : SigSet) : State := { s with pending := p }

def childExit (s : State) (pid status : Int) : State :=
  { s with children :=
      s.children.map fun c => if c.pid = pid then { c with status := some status } else c }

end State

section Reap

variable (dead status : Int) (s : State) (m m' : Mod)

lemma markDead_mods : (markDead dead status s m).mods m' =
    if m' = m then (s.mods m).onDeath dead status else s.mods m' := by
  unfold markDead Module.onDeath
  split
  · simp only [State.record_mods]
    exact s.setMod_mods m m' _
  · split
    · subst m'; rfl
    · rfl

@[simp] lemma reap_mods : (reap dead status s).mods m = (s.mods m).onDeath dead status := by
  cases m <;> simp [reap, mods, markDead_mods]

lemma markDead_frame : (markDead dead status s m).children = s.children ∧
    (markDead dead status s m).mask = s.mask ∧ (markDead dead status s m).fds = s.fds ∧
    (markDead dead status s m).status = s.status ∧
    (markDead dead status s m).sessions = s.sessions ∧
    (markDead dead status s m).numSessions = s.numSessions ∧
    (markDead dead status s m).sessionsDirty = s.sessionsDirty ∧
    (markDead dead status s m).listenSock = s.listenSock ∧
    (s.modsDirty = true → (markDead dead status s m).modsDirty = true) := by
  unfold markDead
  split
  · exact ⟨rfl, rfl, rfl, rfl, rfl, rfl, rfl, rfl, fun _ => rfl⟩
  · exact ⟨rfl, rfl, rfl, rfl, rfl, rfl, rfl, rfl, id⟩

@[simp] lemma reap_children :
    (reap dead status s).children = s.children.filter (·.pid ≠ dead) := by
  simp [reap, mods, markDead_frame]

@[simp] lemma reap_mask : (reap dead status s).mask = s.mask := by
  simp [reap, mods, markDead_frame]

@[simp] lemma reap_fds : (reap dead status s).fds = s.fds := by
  simp [reap, mods, markDead_frame]

@[simp] lemma reap_status : (reap dead status s).status = s.status := by
  simp [reap, mods, markDead_frame]

@[simp] lemma reap_sessions : (reap dead status s).sessions = s.sessions := by
  simp [reap, mods, markDead_frame]

@[simp] lemma reap_numSessions : (reap dead status s).numSessions = s.numSessions := by
  simp [reap, mods, markDead_frame]

@[simp] lemma reap_sessionsDirty : (reap dead status s).sessionsDirty = s.sessionsDirty := by
  simp [reap, mods, markDead_frame]

@[simp] lemma reap_listenSock : (reap dead status s).listenSock = s.listenSock := by
  simp [reap, mods, markDead_frame]

lemma reap_modsDirty (h : s.modsDirty = true) : (reap dead status s).modsDirty = true := by
  simp only [reap, mods, List.foldl]
  exact (markDead_frame ..).2.2.2.2.2.2.2.2 ((markDead_frame ..).2.2.2.2.2.2.2.2 h)

def Module.dies (M : Module) (dead : Int) : Bool := dead = M.pid ∧ M.state = .running

lemma markDead_log : (markDead dead status s m).log =
    (if (s.mods m).dies dead then [.died m] else []) ++ s.log := by
  unfold markDead Module.dies
  split <;> simp_all [State.record]

lemma reap_log : (reap dead status s).log =
    ((mods.filter fun m => (s.mods m).dies dead).map .died).reverse ++ s.log := by
  simp only [reap, mods, List.foldl, markDead_log, markDead_mods, reduceCtorEq, if_false]
  cases h : (s.mods .tsBot).dies dead <;> cases h' : (s.mods .tsWebserver).dies dead <;>
    simp [h, h']

@[simp] lemma Module.onDeath_numFails (M : Module) : (M.onDeath dead status).numFails = M.numFails := by
  rw [onDeath]
  split <;> rfl

@[simp] lemma Module.onDeath_pipefd (M : Module) : (M.onDeath dead status).pipefd = M.pipefd := by
  rw [onDeath]
  split <;> rfl

/-- A module that dies was running, so it was not parked before either. -/
@[simp] lemma Module.onDeath_parked (M : Module) :
    (M.onDeath dead status).state.parked = M.state.parked := by
  rw [onDeath]
  split
  case isTrue hd => rw [hd.2]; rfl
  case isFalse => rfl

end Reap

structure Survives (P : State → Prop) : Prop where
  pending : ∀ s p, P s → P (s.setPending p)
  childExit : ∀ s pid status, P s → P (s.childExit pid status)
  reap : ∀ s dead status, s.mask.chld = false → P s → P (reap dead status s)

structure Resists (P : State → Prop) : Prop extends Survives P where
  term : ∀ s, s.mask.term = false → P s → P (termHandler s)

lemma reapAll_keeps {P : State → Prop}
    (h : ∀ s dead status, s.mask.chld = false → P s → P (reap dead status s)) (cs : List Child)
    (s : State) (hm : s.mask.chld = false) (hs : P s) : P (reapAll cs s) := by
  induction cs generalizing s with
  | nil => exact hs
  | cons c cs ih =>
    rw [reapAll]
    cases c.status with
    | none => exact ih s hm hs
    | some status => exact ih _ (by simpa using hm) (h s c.pid status hm hs)

lemma Survives.signal {P : State → Prop} (h : Survives P) {s s' : State} {e : Signal} (hs : P s)
    (hn : e ≠ .deliverTerm) (he : Manager.signal s e = some s') : P s' := by
  cases e with
  | childExit pid status =>
    simp only [Manager.signal] at he
    split at he
    · obtain rfl := Option.some.inj he
      exact h.pending _ _ (h.childExit s pid status hs)
    · cases he
  | raiseChld =>
    obtain rfl := Option.some.inj he
    exact h.pending s _ hs
  | raiseTerm =>
    obtain rfl := Option.some.inj he
    exact h.pending s _ hs
  | deliverChld =>
    simp only [Manager.signal] at he
    split at he
    case isTrue hm =>
      obtain rfl := Option.some.inj he
      simp only [Bool.and_eq_true, Bool.not_eq_true'] at hm
      exact reapAll_keeps h.reap _ _ hm.2 (h.pending s _ hs)
    case isFalse => cases he
  | deliverTerm => exact absurd rfl hn

lemma signal_deliverTerm {s s' : State} (he : signal s .deliverTerm = some s') :
    s.mask.term = false ∧ ∃ p, s' = termHandler (s.setPending p) := by
  simp only [signal] at he
  split at he
  case isTrue hm =>
    simp only [Bool.and_eq_true, Bool.not_eq_true'] at hm
    exact ⟨hm.2, _, (Option.some.inj he).symm⟩
  case isFalse => cases he

namespace Resists

variable {P Q : State → Prop}

lemma signal (h : Resists P) {s s' : State} {e : Signal} (hs : P s)
    (he : Manager.signal s e = some s') : P s' := by
  by_cases hn : e = .deliverTerm
  · subst hn
    obtain ⟨hm, p, rfl⟩ := signal_deliverTerm he
    exact h.term _ hm (h.pending s p hs)
  · exact h.toSurvives.signal hs hn he

lemma and (hP : Resists P) (hQ : Resists Q) : Resists fun s => P s ∧ Q s where
  pending s p h := ⟨hP.pending s p h.1, hQ.pending s p h.2⟩
  childExit s pid st h := ⟨hP.childExit s pid st h.1, hQ.childExit s pid st h.2⟩
  reap s d st hm h := ⟨hP.reap s d st hm h.1, hQ.reap s d st hm h.2⟩
  term s hm h := ⟨hP.term s hm h.1, hQ.term s hm h.2⟩

lemma forall_mods {P : Mod → State → Prop} (h : ∀ m, Resists (P m)) : Resists fun s => ∀ m, P m s where
  pending s p hs m := (h m).pending s p (hs m)
  childExit s pid st hs m := (h m).childExit s pid st (hs m)
  reap s d st hm hs m := (h m).reap s d st hm (hs m)
  term s hm hs m := (h m).term s hm (hs m)

lemma blocked (hp : ∀ s p, P s → P (s.setPending p))
    (hc : ∀ s pid status, P s → P (s.childExit pid status)) :
    Resists fun s => s.mask = ⟨true, true⟩ ∧ P s where
  pending s p h := ⟨h.1, hp s p h.2⟩
  childExit s pid st h := ⟨h.1, hc s pid st h.2⟩
  reap s d st hm h := by simp [h.1] at hm
  term s hm h := by simp [h.1] at hm

lemma ofModule (m : Mod) {P : Module → Prop}
    (h : ∀ M dead status, P M → P (M.onDeath dead status)) : Resists fun s => P (s.mods m) where
  pending _ _ h := h
  childExit _ _ _ h := h
  reap s d st _ hs := by
    simp only [reap_mods]
    exact h _ d st hs
  term _ _ h := h

lemma notRunning (m : Mod) : Resists fun s => (s.mods m).state ≠ .running :=
  ofModule m (P := fun M => M.state ≠ .running) fun M d st h => by simp [Module.onDeath, h]

lemma parked (m : Mod) (b : Bool) : Resists fun s => (s.mods m).state.parked = b :=
  ofModule m (P := fun M => M.state.parked = b) fun M dead status h => by rwa [Module.onDeath_parked]

lemma pipefd (m : Mod) (fd : Int) : Resists fun s => (s.mods m).pipefd = fd :=
  ofModule m (P := fun M => M.pipefd = fd) fun M dead status h => by rwa [Module.onDeath_pipefd]

lemma mask (flags : SigSet) : Resists fun s => s.mask = flags where
  pending _ _ h := h
  childExit _ _ _ h := h
  reap _ _ _ _ h := by simpa using h
  term _ _ h := h

lemma const (p : Prop) : Resists fun _ => p where
  pending _ _ h := h
  childExit _ _ _ h := h
  reap _ _ _ _ h := h
  term _ _ h := h

end Resists

abbrev rules (ok : Condition Op State Answer Signal) (G : Option Op → State → Prop) :
    Rules Op.Res State Answer Signal := ⟨machine, ok, G⟩

section

variable {ok : Condition Op State Answer Signal} {G : Option Op → State → Prop}
  {P : State → Prop} {l : Option Op}

lemma Resists.holds (h : Resists P) (hG : ∀ s, P s → G l s) : (rules ok G).Holds l P where
  stable _ _ _ hs _ he := h.signal hs he
  guarantee := hG

variable {op : Op} {Q : op.Res → State → Prop}

lemma Resists.atomic (h : Resists P) (hG : ∀ s, P s → G (some op) s)
    (hx : ∀ s i r s', P s → ok (some op) s (.main i) → exec op s i = some (r, s') → Q r s') :
    (rules ok G).Atomic op P Q :=
  ⟨h.holds hG, fun s i r s' hs _ hok he => hx s i r s' hs hok he⟩

lemma Resists.det (h : Resists P) (hG : ∀ s, P s → G (some op) s) {g : State → op.Res}
    {f : State → State} (hd : ∀ s i, exec op s i = some (g s, f s))
    (hx : ∀ s, P s → Q (g s) (f s)) : (rules ok G).Atomic op P Q := by
  refine h.atomic hG fun s i r s' hs _ he => ?_
  rw [hd, Option.some.injEq, Prod.mk.injEq] at he
  obtain ⟨rfl, rfl⟩ := he
  exact hx s hs

end

end TeamspeakWebserver.Manager
