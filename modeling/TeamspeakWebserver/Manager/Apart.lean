import TeamspeakWebserver.Manager.Pipes

/-! The descriptors the manager watches are different ones, however many pipes it has leaked. -/

namespace TeamspeakWebserver.Manager

open Interruptible Prog Rules Sessions

def State.pipeFdsOf (s : State) (ms : List Mod) : List Int :=
  ms.filterMap fun m => if 0 < (s.mods m).pipefd then some (s.mods m).pipefd else none

def State.pipeFds (s : State) : List Int := s.pipeFdsOf Manager.mods

/-- The listening socket, the sessions and the modules that have a pipe, as `setup_poll_fds` goes
through them. -/
def State.watched (s : State) : List Int := s.listenSock :: (s.commFds ++ s.pipeFds)

/-- The standard input stays open, so that no other descriptor is 0. -/
def ZeroOpen (s : State) : Prop := (0, .other) ∈ s.fds ∧ 0 ∉ s.commFds

/-- The descriptors in `spare` are about to be closed, and those in `leaked` never are. -/
def Apart (spare : List Int) (s : State) : Prop :=
  ∃ leaked, Pipes (spare ++ leaked) s ∧ Sockets s ∧ ZeroOpen s

section Descriptors

variable {s : State} {extra spare : List Int} {m : Mod} {fd : Int}

lemma mem_pipeFds : fd ∈ s.pipeFds ↔ 0 < fd ∧ ∃ m, (s.mods m).pipefd = fd := by
  simp only [State.pipeFds, State.pipeFdsOf, List.mem_filterMap, Option.ite_none_right_eq_some, Option.some.injEq]
  constructor
  · rintro ⟨m, -, hp, rfl⟩
    exact ⟨hp, m, rfl⟩
  · rintro ⟨hp, m, rfl⟩
    exact ⟨m, by cases m <;> simp [mods], hp, rfl⟩

lemma Pipes.mem_of_pipeFds (h : Pipes extra s) (hf : fd ∈ s.pipeFds) : fd ∈ s.pipes := by
  obtain ⟨hp, m, hm⟩ := mem_pipeFds.mp hf
  exact (h.mem_iff fd).mpr (Or.inr ⟨m, hm, by omega⟩)

lemma Pipes.pipeFds_nodup (h : Pipes extra s) : s.pipeFds.Nodup := by
  apply List.Nodup.filterMap _ (by decide)
  intro m m' fd hm hm'
  simp only [Option.mem_def, Option.ite_none_right_eq_some, Option.some.injEq] at hm hm'
  exact h.injective m m' (hm.2.trans hm'.2.symm) (by omega)

namespace Apart

lemma watched_nodup (h : Apart spare s) : s.watched.Nodup := by
  obtain ⟨leaked, hp, hs, -⟩ := h
  have hcomm : ∀ fd ∈ s.commFds, fd ∉ s.pipeFds := fun fd hc hf =>
    hs.apart fd (hs.comm_open fd hc) (hp.mem_of_pipeFds hf)
  refine List.nodup_cons.mpr ⟨fun hl => ?_, ?_⟩
  · rcases List.mem_append.mp hl with hl | hl
    · exact hs.listen_apart hl
    · exact hs.apart _ hs.listen_open (hp.mem_of_pipeFds hl)
  · refine List.nodup_append.mpr ⟨hs.nodup, hp.pipeFds_nodup, ?_⟩
    rintro fd hc fd' hf rfl
    exact hcomm fd hc hf

lemma pipefd_ne_zero (h : Apart spare s) (m : Mod) : (s.mods m).pipefd ≠ 0 := by
  obtain ⟨leaked, hp, hs, hz⟩ := h
  intro hm
  exact hs.apart 0 hz.1 ((hp.mem_iff 0).mpr (Or.inr ⟨m, hm, by decide⟩))

lemma congr {s' : State} (h : Apart spare s) (hm : ∀ m, (s'.mods m).pipefd = (s.mods m).pipefd)
    (hf : s'.fds = s.fds) (hc : s'.commFds = s.commFds) (hl : s'.listenSock = s.listenSock) :
    Apart spare s' := by
  obtain ⟨leaked, hp, hs, hz⟩ := h
  refine ⟨leaked, hp.congr hm ?_, hs.congr hf hc hl, by rw [ZeroOpen, hf, hc]; exact hz⟩
  rw [State.pipes, hf]
  rfl

lemma setMod (h : Apart spare s) {f : Module → Module} (hf : ∀ M, (f M).pipefd = M.pipefd) :
    Apart spare (s.setMod m f) :=
  h.congr (State.setMod_field Module.pipefd (hf _)) rfl rfl rfl

lemma resists (spare : List Int) : Resists (Apart spare) where
  pending _ _ h := h.congr (fun _ => rfl) rfl rfl rfl
  childExit _ _ _ h := h.congr (fun _ => rfl) rfl rfl rfl
  reap s dead status _ h := by
    have hv := view_reap s dead status
    exact h.congr hv.pipefd hv.fds hv.commFds hv.listenSock
  term _ _ h := h.congr (fun _ => rfl) rfl rfl rfl

lemma opened (h : Apart spare s) {r w : Int} (hr : s.isFresh r) (hw : s.isFresh w) (hrw : r ≠ w) :
    Apart (r :: w :: spare) { s with fds := (r, .pipe) :: (w, .pipe) :: s.fds } := by
  obtain ⟨leaked, hp, hs, hz⟩ := h
  exact ⟨leaked, hp.opened hr hw hrw, hs.opened hr hw, by simp [hz.1], hz.2⟩

lemma closed (h : Apart (fd :: spare) s) : Apart spare (s.close fd) := by
  obtain ⟨leaked, hp, hs, hz⟩ := h
  have hfd : fd ∈ s.pipes := (hp.mem_iff fd).mpr (by simp)
  refine ⟨leaked, hp.closed, hs.closed hfd, mem_close.mpr ⟨hz.1, ?_⟩, hz.2⟩
  rintro rfl
  exact hs.apart 0 hz.1 hfd

end Apart

lemma Pipes.perm {extra' : List Int} (h : Pipes extra s) (hp : extra.Perm extra') :
    Pipes extra' s where
  nodup := h.nodup
  mem_iff fd := by rw [← hp.mem_iff]; exact h.mem_iff fd
  injective := h.injective
  apart m := by rw [← hp.mem_iff]; exact h.apart m
  extra_nodup := hp.nodup_iff.mp h.extra_nodup
  extra_ne := by rw [← hp.mem_iff]; exact h.extra_ne

namespace Apart

/-- The pipe the module held before is leaked. -/
lemma overwrite (h : Apart (fd :: spare) s) (m : Mod) :
    Apart spare (s.setMod m ({ · with pipefd := fd })) := by
  obtain ⟨leaked, hp, hs, hz⟩ := h
  by_cases hm : (s.mods m).pipefd = -1
  · exact ⟨leaked, hp.take hm, hs.congr rfl rfl rfl, hz⟩
  · have hr : Pipes (fd :: (spare ++ (s.mods m).pipefd :: leaked))
        (s.setMod m ({ · with pipefd := -1 })) := by
      apply (hp.release rfl hm).perm
      simp only [List.cons_append]
      exact (List.Perm.swap ..).trans (List.perm_middle.symm.cons _)
    have ht := hr.take (m := m) (by simp)
    rw [setMod_setMod] at ht
    exact ⟨_, ht, hs.congr rfl rfl rfl, hz⟩

lemma release (h : Apart spare s) (hm : (s.mods m).pipefd = fd) (hfd : fd ≠ -1) :
    Apart (fd :: spare) (s.setMod m ({ · with pipefd := -1 })) := by
  obtain ⟨leaked, hp, hs, hz⟩ := h
  exact ⟨leaked, hp.release hm hfd, hs.congr rfl rfl rfl, hz⟩

lemma closePipefd (h : Apart spare s) (m : Mod) :
    Apart spare ((s.close (s.mods m).pipefd).setMod m ({ · with pipefd := -1 })) := by
  by_cases hm : (s.mods m).pipefd = -1
  · obtain ⟨leaked, hp, hs, hz⟩ := h
    have hc : (s.close (s.mods m).pipefd).fds = s.fds := by
      rw [hm]
      apply List.filter_eq_self.mpr
      intro p hp
      have h0 := hs.nonneg p hp
      simp only [ne_eq, decide_eq_true_eq]
      omega
    have ha : Apart spare s := ⟨leaked, hp, hs, hz⟩
    exact ha.congr (State.setMod_field Module.pipefd hm.symm) hc rfl rfl
  · exact (h.release rfl hm).closed

end Apart

end Descriptors

def Op.watching : Op → Bool
  | .exit => false
  | op => op.ofSetup || op.ofLoop

def ApartAt (l : Option Op) (s : State) : Prop :=
  ∀ op, l = some op → op.watching = true → Apart [] s

section Walk

abbrev apartRules : Rules Op.Res State Answer Signal := rules (fun _ _ _ => True) ApartAt

variable {P : State → Prop} {op : Op} {m : Mod} {spare : List Int} {fd : Int}

lemma apartAt (ho : op.watching = false) (s : State) : ApartAt (some op) s := by
  intro op' he hs
  cases he
  rw [ho] at hs
  cases hs

lemma apart_none (spare : List Int) : apartRules.Holds none (Apart spare) :=
  (Apart.resists spare).holds fun _ _ _ => nofun

lemma Apart.frame {s s' : State} (h : Apart spare s) (hf : Frame op s s')
    (hm : op.writesMods = false) (hd : op.writesFds = false) (hs : op.writesSessions = false) :
    Apart spare s' :=
  h.congr (fun m => by rw [hf.mods hm]) (hf.fds hd)
    (by rw [State.commFds, (hf.sessions hs).1]; rfl) hf.listenSock

lemma apart_keeps (hg : spare = [] ∨ op.watching = false)
    (hm : op.writesMods = false) (hd : op.writesFds = false) (hs : op.writesSessions = false) :
    apartRules.Keeps (Apart spare) op := by
  apply (Apart.resists spare).atomic
  · intro s h
    rcases hg with rfl | ho
    · exact fun _ _ _ => h
    · exact apartAt ho s
  · exact fun s i r s' h _ he => h.frame (exec_frame he) hm hd hs

lemma unspared_keeps (hm : op.writesMods = false) (hd : op.writesFds = false)
    (hs : op.writesSessions = false) : apartRules.Keeps (Apart []) op :=
  apart_keeps (Or.inl rfl) hm hd hs

lemma apart_setMod (ho : op.watching = false) {f : Module → Module}
    (hf : ∀ M, (f M).pipefd = M.pipefd)
    (hx : ∀ s i r s', exec op s i = some (r, s') → s' = s.setMod m f) :
    apartRules.Keeps (Apart spare) op := by
  apply (Apart.resists spare).atomic fun s _ => apartAt ho s
  intro s i r s' h _ he
  rw [hx s i r s' he]
  exact h.setMod hf

lemma closeFd_apart (fd : Int) (spare : List Int) :
    apartRules.Atomic (.closeFd fd) (Apart (fd :: spare)) fun _ => Apart spare :=
  (Apart.resists _).det (fun s _ => apartAt rfl s) (fun _ _ => rfl) fun _ h => h.closed

def Held (m : Mod) (r w : Int) (s : State) : Prop := Apart [w] s ∧ (s.mods m).pipefd = r ∧ r ≠ -1

lemma Held.resists (m : Mod) (r w : Int) : Resists (Held m r w) :=
  (Apart.resists _).and ((Resists.pipefd m r).and (.const _))

lemma held_keeps {r w : Int} (ho : op.watching = false) (hm : op.writesMods = false)
    (hd : op.writesFds = false) (hs : op.writesSessions = false) :
    apartRules.Keeps (Held m r w) op := by
  apply (Held.resists m r w).atomic fun s _ => apartAt ho s
  intro s i q s' h _ he
  have hf := exec_frame he
  exact ⟨h.1.frame hf hm hd hs, by rw [hf.mods hm]; exact h.2⟩

lemma pipe_apart (m : Mod) : apartRules.Atomic (.pipe m) (Apart []) fun r s =>
    r.elim (Apart [] s) fun p => Apart [p.1, p.2] s ∧ p.1 ≠ -1 := by
  apply (Apart.resists []).atomic fun s _ => apartAt rfl s
  intro s i r s' h _ he
  rcases exec_pipe he with ⟨rfl, rfl⟩ | ⟨p, q, -, rfl, hp, hq, hpq, rfl⟩
  · exact h
  · have h0 := hp.1
    exact ⟨h.opened hp hq hpq, by simp only; omega⟩

lemma doModuleInit_apart (m : Mod) :
    apartRules.Valid (Apart []) (doModuleInit m) fun _ => Apart [] := by
  refine .act (unspared_keeps rfl rfl rfl) fun (b : Bool) => ?_
  cases b with
  | true => exact fun _ h => h
  | false =>
  refine .act (pipe_apart m) fun (r : Option (Int × Int)) => ?_
  cases r with
  | none => exact fun _ h => h
  | some p =>
  obtain ⟨r, w⟩ := p
  refine .act (B := fun _ => Held m r w) ?_ fun _ => ?_
  · apply ((Apart.resists _).and (.const _)).det (fun s _ => apartAt rfl s) fun _ _ => rfl
    exact fun s h => ⟨h.1.overwrite m, by simp, h.2⟩
  refine .act (held_keeps rfl rfl rfl rfl) fun flags => ?_
  refine .act (held_keeps rfl rfl rfl rfl) fun (q : Option Int) => ?_
  cases q with
  | none =>
    refine .act (held_keeps rfl rfl rfl rfl) fun _ => .act (B := fun _ => Apart [r, w]) ?_ fun _ => ?_
    · apply (Held.resists m r w).det (fun s _ => apartAt rfl s) fun _ _ => rfl
      exact fun s h => h.1.release h.2.1 h.2.2
    · exact .act (closeFd_apart r [w]) fun _ => .act (closeFd_apart w []) fun _ _ h => h
  | some p =>
    refine .act (B := fun _ => Apart [w]) ?_ fun _ => ?_
    · apply (Held.resists m r w).det (fun s _ => apartAt rfl s) fun _ _ => rfl
      exact fun s h => h.1.setMod fun _ => rfl
    refine .act (apart_setMod (m := m) rfl (f := ({ · with pid := p })) (fun _ => rfl) ?_) fun _ => ?_
    · intro s i r s' he
      cases he
      rfl
    refine .act (apart_keeps (Or.inr rfl) rfl rfl rfl) fun _ => .act (closeFd_apart w []) fun _ => ?_
    exact .act (unspared_keeps rfl rfl rfl) fun _ _ h => h

lemma endChild_apart (m : Mod) : apartRules.Valid (Apart []) (endChild m) fun _ => Apart [] := by
  refine .of_uses (apart_none []) ((endChild_uses m).mono fun op h => ?_)
  have hset (m' : Mod) (f : Module → Module) (hf : ∀ M, (f M).pipefd = M.pipefd)
      (hx : ∀ s i r s', exec op s i = some (r, s') → s' = s.setMod m' f)
      (ho : op.watching = false) : apartRules.Keeps (Apart []) op :=
    apart_setMod ho hf hx
  cases op with
  | setState m' st =>
    refine hset m' ({ · with state := st }) (fun _ => rfl) (fun s i r s' he => ?_) rfl
    cases he
    rfl
  | setPid m' p =>
    refine hset m' ({ · with pid := p }) (fun _ => rfl) (fun s i r s' he => ?_) rfl
    cases he
    rfl
  | _ => first
    | cases h
    | exact unspared_keeps rfl rfl rfl

lemma doModuleExit_apart (m : Mod) :
    apartRules.Valid (Apart []) (doModuleExit m) fun _ => Apart [] := by
  refine .act (unspared_keeps rfl rfl rfl) fun (b : Bool) => ?_
  cases b with
  | true => exact fun _ h => h
  | false =>
  refine .act (unspared_keeps rfl rfl rfl) fun flags => (endChild_apart m).bind fun _ => ?_
  refine .act (unspared_keeps rfl rfl rfl) fun _ => .act (unspared_keeps rfl rfl rfl) fun _ => ?_
  refine .act (B := fun _ s => Apart [] (s.setMod m ({ · with pipefd := -1 }))) ?_ fun _ => ?_
  · apply (Apart.resists []).det (fun s _ => apartAt rfl s) fun _ _ => rfl
    exact fun s h => h.closePipefd m
  refine .act (B := fun _ => Apart []) ?_ fun _ => .call ?_
  · refine Resists.det ⟨⟨?_, ?_, ?_⟩, ?_⟩ (fun s _ => apartAt rfl s) (fun _ _ => rfl) fun s h => h
    · exact fun s p h => h.congr (fun _ => rfl) rfl rfl rfl
    · exact fun s pid status h => h.congr (fun _ => rfl) rfl rfl rfl
    · intro s dead status _ h
      have hv := (view_reap s dead status).setMod m (f := ({ · with pipefd := -1 })) (fun _ _ _ => rfl)
        fun _ _ h => h
      exact h.congr hv.pipefd hv.fds hv.commFds hv.listenSock
    · exact fun s _ h => h.congr (fun _ => rfl) rfl rfl rfl
  · refine apart_setMod (m := m) rfl (f := ({ · with state := .exited })) (fun _ => rfl) ?_
    intro s i r s' he
    cases he
    rfl

/-! ### Sessions -/

def Linking (fd : Int) (s : State) : Prop :=
  Apart [] s ∧ (fd, .other) ∈ s.fds ∧ fd ∉ s.commFds ∧ fd ≠ s.listenSock ∧ fd ≠ 0

def Talking (fd : Int) (s : State) : Prop := Apart [] s ∧ fd ∈ s.commFds

lemma Linking.resists (fd : Int) : Resists (Linking fd) := by
  apply (Apart.resists []).and
  exact Seen.resists fun s s' hv h => by rwa [hv.commFds, hv.fds, hv.listenSock]

lemma Talking.resists (fd : Int) : Resists (Talking fd) := by
  apply (Apart.resists []).and
  exact Seen.resists fun s s' hv h => by rwa [hv.commFds]

lemma Apart.accepted {s : State} (h : Apart [] s) (hf : s.isFresh fd) :
    Linking fd { s with fds := (fd, .other) :: s.fds } := by
  obtain ⟨leaked, hp, hs, hz⟩ := h
  obtain ⟨hs, hc, hl⟩ := hs.accept hf
  refine ⟨⟨leaked, hp.congr (fun _ => rfl) (by simp [State.pipes]), hs, by simp [hz.1], hz.2⟩,
    by simp, hc, hl, ?_⟩
  rintro rfl
  have ho := isOpen_of_mem hz.1
  rw [hf.2] at ho
  cases ho

lemma startNewSession_apart : apartRules.Valid (Apart []) startNewSession fun _ => Apart [] := by
  refine .act (unspared_keeps rfl rfl rfl) fun (b : Bool) => ?_
  cases b with
  | false => exact fun _ h => h
  | true =>
  refine .act (B := fun r s => Option.elim r (Apart [] s) fun fd => Linking fd s) ?_
    fun (r : Option Int) => ?_
  · apply (Apart.resists []).atomic fun s _ => apartAt rfl s
    intro s i r s' h _ he
    rcases exec_accept he with ⟨rfl, rfl⟩ | ⟨fd, rfl, hf, rfl⟩
    · exact h
    · exact h.accepted hf
  cases r with
  | none => exact fun _ h => h
  | some fd =>
  refine .act (B := fun _ => Apart []) ?_ fun _ => .act (B := fun _ => Apart []) ?_ fun _ => ?_
  · apply (Linking.resists fd).det (fun s _ => apartAt rfl s) fun _ _ => rfl
    rintro s ⟨⟨leaked, hp, hs, hz⟩, ho, hc, hl, hn⟩
    refine ⟨leaked, hp.congr (fun _ => rfl) rfl, hs.link ho hc hl, hz.1, fun hm => ?_⟩
    rcases List.mem_cons.mp hm with he | hm
    · exact hn he.symm
    · exact hz.2 hm
  · exact (Apart.resists []).det (fun s _ => apartAt rfl s) (fun _ _ => rfl) fun s h =>
      h.congr (fun _ => rfl) rfl rfl rfl
  · exact .call (unspared_keeps rfl rfl rfl)

lemma closeSession_apart (fd : Int) :
    apartRules.Valid (Talking fd) (closeSession fd) fun _ => Apart [] := by
  refine .act (B := fun _ s => Apart [] (s.unlinked fd)) ?_ fun _ => ?_
  · apply (Talking.resists fd).det (fun s _ => apartAt rfl s) fun _ _ => rfl
    rintro s ⟨⟨leaked, hp, hs, hz⟩, hc⟩
    obtain ⟨hs', hq⟩ := hs.unlink hc
    refine ⟨leaked, hp.congr (fun _ => rfl) hq, hs', mem_close.mpr ⟨hz.1, ?_⟩, fun hm => ?_⟩
    · rintro rfl
      exact hz.2 hc
    · rw [commFds_unlinked] at hm
      exact hz.2 (List.mem_of_mem_erase hm)
  refine .act (B := fun _ => Apart []) ?_ fun _ => .act (B := fun _ => Apart []) ?_ fun _ => ?_
  · refine Resists.det (Seen.resists fun s s' hv h => ?_) (fun s _ => apartAt rfl s) (fun _ _ => rfl)
      fun s h => h
    refine h.congr hv.pipefd hv.fds ?_ hv.listenSock
    rw [commFds_unlinked, commFds_unlinked, hv.commFds]
  · exact (Apart.resists []).det (fun s _ => apartAt rfl s) (fun _ _ => rfl) fun s h =>
      h.congr (fun _ => rfl) rfl rfl rfl
  · exact .call (unspared_keeps rfl rfl rfl)

lemma apart_restart (op : Op) (h : op.ofRestart = true) : apartRules.Keeps (Apart []) op := by
  cases op with
  | clearNeedsRestart m =>
    refine apart_setMod (m := m) rfl (f := ({ · with needsRestart := false })) (fun _ => rfl) ?_
    intro s i r s' he
    cases he
    rfl
  | bumpFails m =>
    apply (Apart.resists []).det (fun s _ => apartAt rfl s) fun _ _ => rfl
    intro s h
    have hb : Apart [] (s.setMod m fun M => { M with numFails := M.numFails + 1 }) :=
      h.setMod fun _ => rfl
    exact hb.congr (fun _ => rfl) rfl rfl rfl
  | _ => first
    | (cases h; done)
    | exact unspared_keeps rfl rfl rfl

lemma served_apart : Served apartRules (Apart []) Talking where
  service op h := by
    cases op <;> first
      | (cases h; done)
      | exact unspared_keeps rfl rfl rfl
  accept := startNewSession_apart
  find fd := by
    apply (Apart.resists []).det (fun s _ => apartAt rfl s) fun _ _ => rfl
    refine fun s h => ⟨h, fun hb => ⟨h, ?_⟩⟩
    rw [State.findSession, List.find?_isSome] at hb
    obtain ⟨t, ht, hf⟩ := hb
    exact List.mem_map.mpr ⟨t, ht, by simpa using hf⟩
  read fd := by
    apply (Talking.resists fd).atomic fun s _ => apartAt rfl s
    intro s i r s' h _ he
    obtain ⟨f, hf, rfl⟩ := exec_read he
    have hc : (s.setSession fd f).commFds = s.commFds := by
      simp only [State.commFds, State.setSession, List.map_map]
      exact List.map_congr_left fun t _ => by simp only [Function.comp]; split <;> simp [hf]
    exact ⟨h.1.congr (fun _ => rfl) rfl hc rfl, by rw [hc]; exact h.2⟩
  close := closeSession_apart
  forget _ _ h := h.1
  command := runCommand_of_keeps apart_restart doModuleInit_apart doModuleExit_apart

lemma main_apart (bot server : Bool) :
    apartRules.Valid (Apart []) (main bot server) fun _ _ => True := by
  have hloop : Looped apartRules (Apart []) Talking :=
    { toServed := served_apart
      holds := apart_none []
      loop := fun op h => by
        cases op <;> first
          | (cases h; done)
          | exact unspared_keeps rfl rfl rfl
      setup := .of_uses (apart_none []) (setupPollFds_uses.mono fun op h => by
        cases op <;> first
          | (cases h; done)
          | exact unspared_keeps rfl rfl rfl)
      cleanup := managerCleanupDirt_valid (apart_restart _ rfl)
        (fun _ => restartMods_of_keeps (apart_none []) apart_restart doModuleInit_apart
          doModuleExit_apart)
        (fun _ => unspared_keeps rfl rfl rfl) fun _ => apart_restart _ rfl }
  have hstop : apartRules.Valid (Apart []) shutdownManager fun _ _ => True := by
    refine .act (unspared_keeps rfl rfl rfl) fun _ => .act (unspared_keeps rfl rfl rfl) fun _ => ?_
    refine (Valid.each fun m _ => doModuleExit_apart m).bind fun _ => ?_
    refine .act (B := fun _ _ => True) ?_ fun _ => .act (B := fun _ _ => True) ?_ fun r => nomatch r
    · exact (Apart.resists []).atomic (fun s _ => apartAt rfl s) fun _ _ _ _ _ _ _ => trivial
    · exact (Resists.const True).atomic (Q := fun _ _ => True) (fun s _ => apartAt rfl s)
        fun _ _ _ _ _ _ _ => trivial
  exact main_valid doModuleInit_apart (unspared_keeps rfl rfl rfl) (hloop.startManagerLoop hstop) bot server

end Walk

lemma boot_apart (b : Boot) : Apart [] b.state := by
  have ht := boot_tidy b
  exact ⟨[], ht.pipes, ht.sockets, by simp [Boot.state, b.stdin_open], by simp [State.commFds, Boot.state]⟩

lemma apart (b : Boot) (bot server : Bool) {c : Config Op.Res State Unit}
    (h : machine.Reaches (fun _ _ _ => True) (start b bot server) c) :
    ApartAt c.prog.next c.st :=
  (main_apart bot server).guarantee (fun _ => (Resists.const True).holds fun _ _ _ => nofun)
    (boot_apart b) h

end TeamspeakWebserver.Manager
