import TeamspeakWebserver.Manager.PollSet

/-! Which component each ready descriptor is dispatched to, while the pass itself opens and closes
descriptors. -/

namespace TeamspeakWebserver.Manager

open Interruptible Prog Rules Sessions

structure Polled (fds : List Int) (s : State) : Prop where
  watched : fds = s.watched
  nodup : fds.Nodup
  isOpen : ∀ fd ∈ fds, s.isOpen fd = true

lemma polled_reached (b : Boot) (bot server : Bool) {c : Config Op.Res State Unit}
    (h : machine.Reaches (fun _ _ _ => True) (start b bot server) c) {fds : List Int} {nfds : ℕ}
    (hn : c.prog.next = some (.pollEnter fds nfds)) : Polled fds c.st := by
  obtain ⟨-, hw : fds = c.st.watched⟩ := watched_reached b bot server h fds nfds hn
  have ha := apart b bot server h _ hn rfl
  refine ⟨hw, hw ▸ ha.watched_nodup, fun fd hf => ?_⟩
  obtain ⟨leaked, hp, hs, -⟩ := ha
  rw [hw] at hf
  rcases List.mem_cons.mp hf with rfl | hf
  · exact isOpen_of_mem hs.listen_open
  rcases List.mem_append.mp hf with hf | hf
  · exact isOpen_of_mem (hs.comm_open fd hf)
  · exact isOpen_of_mem (mem_pipes.mp (hp.mem_of_pipeFds hf))

def dispatched (es : List (Int × Bool)) (nready : Int) : List Int :=
  ((es.filter Prod.snd).map Prod.fst).take nready.toNat

section Dispatched

variable {es : List (Int × Bool)} {nready fd : Int}

lemma serviceFds_eq (es : List (Int × Bool)) (nready : Int) :
    serviceFds es nready = Prog.each serviceFd (dispatched es nready) := by
  induction es generalizing nready with
  | nil => simp [serviceFds, dispatched, Prog.each]; rfl
  | cons e es ih =>
    obtain ⟨fd, pollin⟩ := e
    rw [serviceFds]
    by_cases hn : 0 < nready
    · rw [if_pos hn]
      obtain ⟨k, hk⟩ : ∃ k, nready.toNat = k + 1 := ⟨nready.toNat - 1, by omega⟩
      have hk' : (nready - 1).toNat = k := by omega
      cases pollin with
      | false => exact ih nready
      | true =>
        have hd : dispatched ((fd, true) :: es) nready = fd :: dispatched es (nready - 1) := by
          simp [dispatched, hk, hk']
        rw [hd, Prog.each, ← ih]
        rfl
    · rw [if_neg hn]
      have hz : nready.toNat = 0 := by omega
      simp only [dispatched, hz, List.take_zero, Prog.each]
      rfl

lemma dispatched_sublist (es : List (Int × Bool)) (nready : Int) :
    (dispatched es nready).Sublist (es.map Prod.fst) :=
  (List.take_sublist ..).trans (List.filter_sublist.map _)

lemma not_mem_of_sublist {sock fd : Int} {l ds : List Int} (hn : (sock :: l).Nodup)
    (h : (fd :: ds).Sublist (sock :: l)) : sock ∉ ds := by
  have hl := (List.nodup_cons.mp hn).1
  intro hd
  cases h with
  | cons _ h => exact hl (h.subset (List.mem_cons_of_mem fd hd))
  | cons_cons _ h => exact hl (h.subset hd)

lemma mem_of_dispatched (h : fd ∈ dispatched es nready) : (fd, true) ∈ es := by
  obtain ⟨⟨fd', b⟩, hm, rfl⟩ := List.mem_map.mp (List.mem_of_mem_take h)
  obtain ⟨hm, hb⟩ := List.mem_filter.mp hm
  obtain rfl : b = true := hb
  exact hm

end Dispatched

/-! ### What serving a session can do -/

def Op.talks : Op → Bool
  | .write _ _ | .closeComm _ | .unlinkSession _ | .decSessions | .setStatus .stopped => true
  | .setSessionsDirty b => b
  | .note _ => true
  | op => mods.any fun m => op.on m

abbrev Op.Talks (op : Op) : Prop := op.talks = true

lemma Op.On.talks {m : Mod} {op : Op} (h : op.On m) : op.Talks := by
  have hm : mods.any (fun m => op.on m) = true := by
    refine List.any_eq_true.mpr ⟨m, ?_, h⟩
    cases m <;> simp [mods]
  cases op <;> first
    | exact hm
    | cases h

lemma runCommand_uses (cmd : ManagerCmds) (m : Mod) (errv : Int) :
    (runCommand cmd m errv).Uses Op.Talks := by
  have hinit : (doModuleInit m).Uses Op.Talks := (doModuleInit_uses m).mono fun op h => h.talks
  have hexit : (doModuleExit m).Uses Op.Talks := (doModuleExit_uses m).mono fun op h => h.talks
  cases cmd with
  | none => trivial
  | shutdown => trivial
  | restartMod => exact ⟨rfl, fun _ => hexit.bind fun _ => hinit⟩
  | disableMod => exact hexit.bind fun _ => ⟨rfl, fun _ => trivial⟩
  | enableMod => exact ⟨rfl, fun _ => hinit⟩

lemma runArguments_uses (cmd : ManagerCmds) (args : List Bytes) (errv : Int) :
    (runArguments cmd args errv).Uses Op.Talks := by
  induction args generalizing errv with
  | nil => trivial
  | cons arg args ih =>
    rw [runArguments]
    cases getMod arg with
    | none => exact ih errv
    | some m => exact (runCommand_uses cmd m errv).bind fun errv => ih errv

lemma managerProcessInput_uses (input : Bytes) : (managerProcessInput input).Uses Op.Talks := by
  have ha (cmd : ManagerCmds) : Uses Op.Talks (do
      if space ∉ input then return ascii "No argument given."
      let errv ← runArguments cmd (arguments input) 1
      return if errv = 0 then ascii "OK" else ascii "FAIL") := by
    split
    · trivial
    · exact (runArguments_uses cmd _ 1).bind fun _ => trivial
  rw [managerProcessInput]
  cases parseCommand input with
  | none => trivial
  | shutdown => exact ⟨rfl, fun _ => trivial⟩
  | restartMod => exact ha _
  | disableMod => exact ha _
  | enableMod => exact ha _

lemma afterRead_uses (fd : Int) (o : Outcome) : (afterRead fd o).Uses Op.Talks := by
  cases o with
  | close => exact ⟨rfl, fun _ => ⟨rfl, fun _ => ⟨rfl, fun _ => ⟨rfl, fun _ => trivial⟩⟩⟩⟩
  | wait => trivial
  | body => trivial
  | command input => exact (managerProcessInput_uses input).bind fun resp => ⟨rfl, fun _ => trivial⟩

lemma processSession_uses (fd : Int) :
    (processSession fd).Uses fun op => op = .read fd ∨ op.Talks := by
  have hafter (o : Outcome) : (afterRead fd o).Uses fun op => op = .read fd ∨ op.Talks :=
    (afterRead_uses fd o).mono fun op h => Or.inr h
  refine ⟨Or.inl rfl, fun (o : Outcome) => ?_⟩
  cases o with
  | body => exact ⟨Or.inl rfl, hafter⟩
  | close => exact hafter .close
  | wait => exact hafter .wait
  | command input => exact hafter (.command input)

lemma tryServiceModule_uses (fd : Int) (ms : List Mod) :
    (tryServiceModule fd ms).Uses fun op => op.ofService = true := by
  induction ms with
  | nil => trivial
  | cons m ms ih =>
    refine ⟨rfl, fun (r : Int) => ?_⟩
    change (if fd = r then _ else _ : Code Bool).Uses _
    split
    · exact ⟨rfl, fun _ => trivial⟩
    · exact ih

lemma exec_commFds {op : Op} (h : ∀ fd, op ≠ .linkSession fd) {s s' : State} {i : Answer}
    {r : op.Res} (he : exec op s i = some (r, s')) {fd : Int} (hf : fd ∈ s'.commFds) :
    fd ∈ s.commFds := by
  have hw := (exec_frame he).sessions
  cases op with
  | linkSession fd' => exact absurd rfl (h fd')
  | incSessions =>
    cases he
    exact hf
  | decSessions =>
    cases he
    exact hf
  | unlinkSession fd' =>
    cases he
    change fd ∈ (s.unlinked fd').commFds at hf
    rw [commFds_unlinked] at hf
    exact List.mem_of_mem_erase hf
  | read fd' =>
    obtain ⟨f, hc, rfl⟩ := exec_read he
    simp only [State.commFds, State.setSession, List.map_map, List.mem_map, Function.comp] at hf ⊢
    obtain ⟨t, ht, rfl⟩ := hf
    refine ⟨t, ht, ?_⟩
    split <;> simp [hc]
  | _ =>
    rw [State.commFds, (hw rfl).1] at hf
    exact hf

/-! ### The pass -/

/-- What is guaranteed of a pass over `es` that began in `s₀`, where `start_new_session` and
`process_session` are called. -/
structure DispatchedAt (es : List (Int × Bool)) (s₀ : State) (l : Option Op) (s : State) : Prop where
  malloc : l = some .malloc → (s₀.listenSock, true) ∈ es
  accept : l = some .accept → ∀ fd ∈ es.map Prod.fst, s.isOpen fd = true
  link : ∀ fd, l = some (.linkSession fd) → fd ∉ es.map Prod.fst
  read : ∀ fd, l = some (.read fd) → (fd, true) ∈ es ∧ fd ∈ s₀.commFds

section Walk

variable (es : List (Int × Bool)) (s₀ : State)

abbrev dispatchRules : Rules Op.Res State Answer Signal :=
  rules (fun _ _ _ => True) (DispatchedAt es s₀)

def Seated (s : State) : Prop :=
  s.listenSock = s₀.listenSock ∧ ∀ fd ∈ s.commFds, fd ∈ es.map Prod.fst → fd ∈ s₀.commFds

def Untouched (s : State) : Prop :=
  Seated es s₀ s ∧ ∀ fd ∈ es.map Prod.fst, s.isOpen fd = true

variable {es s₀} {op : Op} {fd : Int}

def Op.serves : Op → Bool
  | .malloc | .accept | .linkSession _ | .read _ => true
  | _ => false

lemma dispatchedAt (h : op.serves = false) (s : State) : DispatchedAt es s₀ (some op) s := by
  constructor
  · rintro ⟨⟩
    cases h
  · rintro ⟨⟩
    cases h
  · rintro fd ⟨⟩
    cases h
  · rintro fd ⟨⟩
    cases h

lemma Seated.seen : Seen (Seated es s₀) := by
  intro s s' hv h
  rw [Seated, hv.commFds, hv.listenSock]
  exact h

lemma Untouched.seen : Seen (Untouched es s₀) := by
  intro s s' hv h
  refine ⟨Seated.seen s s' hv h.1, ?_⟩
  simp only [State.isOpen, hv.fds]
  exact h.2

lemma Seated.exec {s s' : State} (h : Seated es s₀ s) (hn : ∀ fd, op ≠ .linkSession fd) {i : Answer}
    {r : op.Res} (he : exec op s i = some (r, s')) : Seated es s₀ s' :=
  ⟨(exec_frame he).listenSock.trans h.1, fun fd hf => h.2 fd (exec_commFds hn he hf)⟩

lemma seated_keeps (h : op.serves = false) : (dispatchRules es s₀).Keeps (Seated es s₀) op :=
  Seated.seen.resists.atomic (fun s _ => dispatchedAt h s) fun s i r s' hs _ he =>
    hs.exec (by rintro fd rfl; cases h) he

lemma processSession_dispatched (hr : (fd, true) ∈ es) (hf : fd ∈ s₀.commFds) :
    (dispatchRules es s₀).Valid (Seated es s₀) (processSession fd) fun _ => Seated es s₀ := by
  have hnone : (dispatchRules es s₀).Holds none (Seated es s₀) :=
    Seated.seen.resists.holds fun s _ => ⟨nofun, nofun, fun _ => nofun, fun _ => nofun⟩
  refine .of_uses hnone ((processSession_uses fd).mono fun op h => ?_)
  rcases h with rfl | h
  · apply Seated.seen.resists.atomic
    · exact fun s _ => ⟨nofun, nofun, nofun, by rintro _ ⟨⟩; exact ⟨hr, hf⟩⟩
    · exact fun s i r s' hs _ he => hs.exec (by simp) he
  · refine seated_keeps ?_
    cases op <;> first
      | rfl
      | cases h

lemma tryServiceModule_dispatched (fd : Int) (ms : List Mod) :
    (dispatchRules es s₀).Valid (Seated es s₀) (tryServiceModule fd ms) fun _ => Seated es s₀ := by
  refine .of_uses ?_ ((tryServiceModule_uses fd ms).mono fun op h => ?_)
  · exact Seated.seen.resists.holds fun s _ => ⟨nofun, nofun, fun _ => nofun, fun _ => nofun⟩
  · cases op <;> first
      | (cases h; done)
      | exact seated_keeps rfl

lemma serviceFd_other (hr : (fd, true) ∈ es) (hn : fd ≠ s₀.listenSock) :
    (dispatchRules es s₀).Valid (Seated es s₀) (serviceFd fd) fun _ => Seated es s₀ := by
  refine .act (B := fun sock s => Seated es s₀ s ∧ sock = s₀.listenSock) ?_ fun (sock : Int) => ?_
  · apply Seated.seen.resists.det (fun s _ => dispatchedAt rfl s) fun _ _ => rfl
    exact fun s h => ⟨h, h.1⟩
  refine .of_fact ?_
  rintro rfl
  change (dispatchRules es s₀).Valid _ (if fd = s₀.listenSock then _ else _ : Code Unit) _
  rw [if_neg hn]
  refine (tryServiceModule_dispatched fd mods).bind fun b => ?_
  cases b with
  | true => exact fun _ h => h
  | false =>
    refine .act (B := fun b s => Seated es s₀ s ∧ (b = true → fd ∈ s₀.commFds)) ?_
      fun (b : Bool) => ?_
    · apply Seated.seen.resists.det (fun s _ => dispatchedAt rfl s) fun _ _ => rfl
      refine fun s h => ⟨h, fun hb => h.2 fd ?_ (List.mem_map.mpr ⟨_, hr, rfl⟩)⟩
      rw [State.findSession, List.find?_isSome] at hb
      obtain ⟨t, ht, he⟩ := hb
      exact List.mem_map.mpr ⟨t, ht, by simpa using he⟩
    cases b with
    | false => exact fun _ h => h.1
    | true =>
      refine (Valid.of_fact (a := fd ∈ s₀.commFds) fun hf => ?_).weaken fun s h => ⟨h.1, h.2 rfl⟩
      exact processSession_dispatched hr hf

lemma startNewSession_dispatched (hr : (s₀.listenSock, true) ∈ es) :
    (dispatchRules es s₀).Valid (Untouched es s₀) startNewSession fun _ => Seated es s₀ := by
  refine .act (B := fun _ => Untouched es s₀) ?_ fun (b : Bool) => ?_
  · apply Untouched.seen.resists.atomic
    · exact fun s _ => ⟨fun _ => hr, nofun, nofun, nofun⟩
    · intro s i b s' h _ he
      cases he
      exact h
  cases b with
  | false => exact fun _ h => h.1
  | true =>
  refine .act (B := fun r s => Seated es s₀ s ∧ ∀ fd, r = some fd → fd ∉ es.map Prod.fst) ?_
    fun (r : Option Int) => ?_
  · apply Untouched.seen.resists.atomic
    · exact fun s h => ⟨nofun, fun _ => h.2, nofun, nofun⟩
    · intro s i r s' h _ he
      refine ⟨h.1.exec (by simp) he, ?_⟩
      rcases exec_accept he with ⟨rfl, -⟩ | ⟨fd, rfl, hf, -⟩
      · exact nofun
      · rintro fd' ⟨⟩ hm
        have ho := h.2 fd hm
        rw [hf.2] at ho
        cases ho
  cases r with
  | none => exact fun _ h => h.1
  | some fd =>
  refine (Valid.of_fact (a := fd ∉ es.map Prod.fst) fun hf => ?_).weaken fun s h => ⟨h.1, h.2 fd rfl⟩
  refine .act (B := fun _ => Seated es s₀) ?_ fun _ => ?_
  · apply Seated.seen.resists.det _ fun _ _ => rfl
    · refine fun s h => ⟨h.1, fun fd' hm hin => ?_⟩
      rcases List.mem_cons.mp hm with rfl | hm
      · exact absurd hin hf
      · exact h.2 fd' hm hin
    · exact fun s _ => ⟨nofun, nofun, by rintro _ ⟨⟩; exact hf, nofun⟩
  · exact .act (seated_keeps rfl) fun _ => .call (seated_keeps rfl)

lemma serviceFd_listen (hr : (s₀.listenSock, true) ∈ es) :
    (dispatchRules es s₀).Valid (Untouched es s₀) (serviceFd s₀.listenSock) fun _ => Seated es s₀ := by
  refine .act (B := fun sock s => Untouched es s₀ s ∧ sock = s₀.listenSock) ?_ fun (sock : Int) => ?_
  · apply Untouched.seen.resists.det (fun s _ => dispatchedAt rfl s) fun _ _ => rfl
    exact fun s h => ⟨h, h.1.1⟩
  refine .of_fact ?_
  rintro rfl
  change (dispatchRules es s₀).Valid _ (if s₀.listenSock = s₀.listenSock then _ else _ : Code Unit) _
  rw [if_pos rfl]
  exact startNewSession_dispatched hr

lemma serviceFds_dispatched (hp : Polled (es.map Prod.fst) s₀) (nready : Int) :
    (dispatchRules es s₀).Valid (Untouched es s₀) (serviceFds es nready) fun _ => Seated es s₀ := by
  have hother (ds : List Int) (hd : ∀ fd ∈ ds, (fd, true) ∈ es) (hs : s₀.listenSock ∉ ds) :
      (dispatchRules es s₀).Valid (Seated es s₀) (Prog.each serviceFd ds) fun _ => Seated es s₀ :=
    .each fun fd hf => serviceFd_other (hd fd hf) fun he => hs (he ▸ hf)
  have hr : ∀ fd ∈ dispatched es nready, (fd, true) ∈ es := fun fd => mem_of_dispatched
  have hsub := dispatched_sublist es nready
  have hn := hp.nodup
  rw [hp.watched, State.watched] at hsub hn
  rw [serviceFds_eq]
  cases hds : dispatched es nready with
  | nil => exact fun s h => h.1
  | cons fd ds =>
    rw [hds] at hr hsub
    have hs := not_mem_of_sublist hn hsub
    have hrest := hother ds (fun fd' hf => hr fd' (List.mem_cons_of_mem fd hf)) hs
    by_cases he : fd = s₀.listenSock
    · subst he
      exact (serviceFd_listen (hr _ (by simp))).bind fun _ => hrest
    · exact ((serviceFd_other (hr fd (by simp)) he).weaken fun s h => h.1).bind fun _ => hrest

end Walk

lemma dispatched_reached {es : List (Int × Bool)} {s₀ : State} (hp : Polled (es.map Prod.fst) s₀)
    (nready : Int) {c : Config Op.Res State Unit}
    (h : machine.Reaches (fun _ _ _ => True) ⟨serviceFds es nready, s₀⟩ c) :
    DispatchedAt es s₀ c.prog.next c.st := by
  refine (serviceFds_dispatched hp nready).guarantee (fun _ => ?_) ?_ h
  · exact Seated.seen.resists.holds fun s _ => ⟨nofun, nofun, fun _ => nofun, fun _ => nofun⟩
  · exact ⟨⟨rfl, fun fd hf _ => hf⟩, hp.isOpen⟩

lemma pass_dispatches {es : List (Int × Bool)} {s₀ : State} (hp : Polled (es.map Prod.fst) s₀)
    (nready : Int) :
    (∃ ds : List Int, serviceFds es nready = Prog.each serviceFd ds ∧ ds.Nodup ∧
      ∀ fd ∈ ds, (fd, true) ∈ es) ∧
    ∀ c : Config Op.Res State Unit,
      machine.Reaches (fun _ _ _ => True) ⟨serviceFds es nready, s₀⟩ c →
        DispatchedAt es s₀ c.prog.next c.st :=
  ⟨⟨dispatched es nready, serviceFds_eq es nready, hp.nodup.sublist (dispatched_sublist es nready),
    fun _ => mem_of_dispatched⟩, fun _ hc => dispatched_reached hp nready hc⟩

def State.hosting (fd : Int) (t : Session) : State :=
  { Boot.terminal.state with
    sessions := [t]
    numSessions := 1
    fds := (fd, .other) :: Boot.terminal.state.fds }

end TeamspeakWebserver.Manager
