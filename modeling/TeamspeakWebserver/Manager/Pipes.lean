import TeamspeakWebserver.Manager.Composition
import TeamspeakWebserver.Manager.Frame
import TeamspeakWebserver.Manager.Interference

/-! The pipes the manager holds open for its modules. -/

namespace TeamspeakWebserver.Manager

open Interruptible Prog Rules Sessions

structure Pipes (extra : List Int) (s : State) : Prop where
  nodup : s.pipes.Nodup
  mem_iff : ∀ fd, fd ∈ s.pipes ↔ fd ∈ extra ∨ ∃ m, (s.mods m).pipefd = fd ∧ fd ≠ -1
  injective : ∀ m m', (s.mods m).pipefd = (s.mods m').pipefd → (s.mods m).pipefd ≠ -1 → m = m'
  apart : ∀ m, (s.mods m).pipefd ∉ extra
  extra_nodup : extra.Nodup
  extra_ne : -1 ∉ extra

def State.commFds (s : State) : List Int := s.sessions.map (·.commFd)

structure Sockets (s : State) : Prop where
  nonneg : ∀ p ∈ s.fds, 0 ≤ p.1
  apart : ∀ fd, (fd, .other) ∈ s.fds → fd ∉ s.pipes
  comm_open : ∀ fd ∈ s.commFds, (fd, .other) ∈ s.fds
  nodup : s.commFds.Nodup
  listen_open : (s.listenSock, .other) ∈ s.fds
  listen_apart : s.listenSock ∉ s.commFds

def Piped (s : State) : Prop := ∀ m, (s.mods m).state.parked = false → (s.mods m).pipefd ≠ -1

section Descriptors

variable {s : State} {extra : List Int} {m : Mod} {fd : Int}

lemma mem_pipes : fd ∈ s.pipes ↔ (fd, .pipe) ∈ s.fds := by
  simp only [State.pipes, List.mem_map, List.mem_filter, decide_eq_true_eq]
  constructor
  · rintro ⟨⟨fd, k⟩, ⟨hm, rfl⟩, rfl⟩
    exact hm
  · exact fun h => ⟨_, ⟨h, rfl⟩, rfl⟩

lemma isOpen_of_mem {k : FdKind} (h : (fd, k) ∈ s.fds) : s.isOpen fd = true := by
  simp only [State.isOpen, List.any_eq_true, decide_eq_true_eq]
  exact ⟨_, h, rfl⟩

lemma pipes_close : (s.close fd).pipes = s.pipes.filter (· ≠ fd) := by
  simp only [State.close, State.pipes, List.filter_map, List.filter_filter]
  congr 1
  apply List.filter_congr
  intro p _
  simp [Bool.and_comm]

lemma mem_close {p : Int × FdKind} : p ∈ (s.close fd).fds ↔ p ∈ s.fds ∧ p.1 ≠ fd := by
  simp [State.close]

namespace Pipes

lemma congr {s' : State} (h : Pipes extra s) (hm : ∀ m, (s'.mods m).pipefd = (s.mods m).pipefd)
    (hf : s'.pipes = s.pipes) : Pipes extra s' where
  nodup := by rw [hf]; exact h.nodup
  mem_iff fd := by simp only [hf, hm]; exact h.mem_iff fd
  injective m m' := by simp only [hm]; exact h.injective m m'
  apart m := by rw [hm]; exact h.apart m
  extra_nodup := h.extra_nodup
  extra_ne := h.extra_ne

lemma setMod {f : Module → Module} (h : Pipes extra s) (hp : ∀ M, (f M).pipefd = M.pipefd) :
    Pipes extra (s.setMod m f) :=
  h.congr (State.setMod_field Module.pipefd (hp _)) rfl

lemma opened (h : Pipes extra s) {r w : Int} (hr : s.isFresh r) (hw : s.isFresh w) (hrw : r ≠ w) :
    Pipes (r :: w :: extra) { s with fds := (r, .pipe) :: (w, .pipe) :: s.fds } := by
  have hn {fd : Int} (hf : s.isFresh fd) : fd ∉ s.pipes := fun hm => by
    have := isOpen_of_mem (mem_pipes.mp hm)
    simp [hf.2] at this
  have hp : ({ s with fds := (r, .pipe) :: (w, .pipe) :: s.fds } : State).pipes =
      r :: w :: s.pipes := by simp [State.pipes]
  have hx {fd : Int} (hf : s.isFresh fd) : fd ∉ extra := fun hm =>
    hn hf ((h.mem_iff fd).mpr (Or.inl hm))
  have hm {fd : Int} (hf : s.isFresh fd) (m : Mod) : (s.mods m).pipefd ≠ fd := by
    intro he
    have h0 := hf.1
    exact hn hf ((h.mem_iff fd).mpr (Or.inr ⟨m, he, by omega⟩))
  refine ⟨?_, fun fd => ?_, h.injective, fun m => ?_, ?_, ?_⟩
  · rw [hp]
    simp [h.nodup, hn hr, hn hw, hrw]
  · rw [hp]
    simp only [List.mem_cons, h.mem_iff fd]
    tauto
  · simp only [List.mem_cons, not_or]
    exact ⟨hm hr m, hm hw m, h.apart m⟩
  · simp [h.extra_nodup, hx hr, hx hw, hrw]
  · have hr0 := hr.1
    have hw0 := hw.1
    simp only [List.mem_cons, not_or]
    exact ⟨by omega, by omega, h.extra_ne⟩

lemma take (h : Pipes (fd :: extra) s) (hm : (s.mods m).pipefd = -1) :
    Pipes extra (s.setMod m ({ · with pipefd := fd })) := by
  have hfd : fd ≠ -1 := fun he => h.extra_ne (by simp [he])
  have hx := List.nodup_cons.mp h.extra_nodup
  refine ⟨h.nodup, fun g => ?_, fun m₁ m₂ => ?_, fun m' => ?_, hx.2,
    fun hn => h.extra_ne (by simp [hn])⟩
  · have hg := h.mem_iff g
    change g ∈ s.pipes ↔ _
    rw [hg]
    constructor
    · rintro (hg | ⟨m', hg, hne⟩)
      · rcases List.mem_cons.mp hg with rfl | hg
        · exact Or.inr ⟨m, by simp, hfd⟩
        · exact Or.inl hg
      · have hn : m' ≠ m := by rintro rfl; exact hne (hg.symm.trans hm)
        exact Or.inr ⟨m', by simpa [hn] using hg, hne⟩
    · rintro (hg | ⟨m', hg, hne⟩)
      · exact Or.inl (by simp [hg])
      · rw [State.setMod_mods] at hg
        split at hg
        · exact Or.inl (by simp [← hg])
        · exact Or.inr ⟨m', hg, hne⟩
  · have ha (m' : Mod) : (s.mods m').pipefd ≠ fd := fun he => h.apart m' (by simp [he])
    rw [State.setMod_mods, State.setMod_mods]
    split <;> split
    · simp_all
    · exact fun he _ => absurd he.symm (ha m₂)
    · exact fun he _ => absurd he (ha m₁)
    · exact h.injective m₁ m₂
  · rw [State.setMod_mods]
    split
    · exact hx.1
    · exact fun hn => h.apart m' (by simp [hn])

lemma release (h : Pipes extra s) (hm : (s.mods m).pipefd = fd) (hfd : fd ≠ -1) :
    Pipes (fd :: extra) (s.setMod m ({ · with pipefd := -1 })) := by
  refine ⟨h.nodup, fun g => ?_, fun m₁ m₂ => ?_, fun m' => ?_, ?_, ?_⟩
  · change g ∈ s.pipes ↔ _
    rw [h.mem_iff g]
    constructor
    · rintro (hg | ⟨m', hg, hne⟩)
      · exact Or.inl (by simp [hg])
      · by_cases hn : m' = m
        · exact Or.inl (by simp [← hg, hn, hm])
        · exact Or.inr ⟨m', by simpa [hn] using hg, hne⟩
    · rintro (hg | ⟨m', hg, hne⟩)
      · rcases List.mem_cons.mp hg with rfl | hg
        · exact Or.inr ⟨m, hm, hfd⟩
        · exact Or.inl hg
      · rw [State.setMod_mods] at hg
        split at hg
        · exact absurd hg.symm hne
        · exact Or.inr ⟨m', hg, hne⟩
  · rw [State.setMod_mods, State.setMod_mods]
    split <;> split
    · simp_all
    · simp
    · exact fun he hne => absurd he hne
    · exact h.injective m₁ m₂
  · rw [State.setMod_mods]
    split
    · simpa using ⟨fun he => hfd he.symm, h.extra_ne⟩
    case isFalse hn =>
      simp only [List.mem_cons, not_or]
      refine ⟨fun he => hn (h.injective m' m (he.trans hm.symm) (he ▸ hfd)), h.apart m'⟩
  · simp only [List.nodup_cons]
    exact ⟨fun hx => h.apart m (by rw [hm]; exact hx), h.extra_nodup⟩
  · simp only [List.mem_cons, not_or]
    exact ⟨fun he => hfd he.symm, h.extra_ne⟩

lemma closed (h : Pipes (fd :: extra) s) : Pipes extra (s.close fd) := by
  have hx := List.nodup_cons.mp h.extra_nodup
  have hm (m : Mod) : (s.mods m).pipefd ≠ fd := fun he => h.apart m (by simp [he])
  refine ⟨?_, fun g => ?_, h.injective, fun m hn => h.apart m (List.mem_cons_of_mem _ hn), hx.2,
    fun hn => h.extra_ne (by simp [hn])⟩
  · rw [pipes_close]
    exact h.nodup.filter _
  · rw [pipes_close, List.mem_filter, h.mem_iff g]
    simp only [List.mem_cons, ne_eq, decide_eq_true_eq]
    constructor
    · rintro ⟨(rfl | hg) | hg, hne⟩
      · exact absurd rfl hne
      · exact Or.inl hg
      · exact Or.inr hg
    · rintro (hg | ⟨m', hg, hne⟩)
      · exact ⟨Or.inl (Or.inr hg), fun he => hx.1 (he ▸ hg)⟩
      · exact ⟨Or.inr ⟨m', hg, hne⟩, fun he => hm m' (hg.trans he)⟩

end Pipes

namespace Sockets

lemma congr {s' : State} (h : Sockets s) (hf : s'.fds = s.fds) (hc : s'.commFds = s.commFds)
    (hl : s'.listenSock = s.listenSock) : Sockets s' := by
  have hp : s'.pipes = s.pipes := by rw [State.pipes, hf]; rfl
  obtain ⟨h₁, h₂, h₃, h₄, h₅, h₆⟩ := h
  constructor
  all_goals simp only [hf, hc, hl, hp]
  all_goals assumption

lemma opened (h : Sockets s) {r w : Int} (hr : s.isFresh r) (hw : s.isFresh w) :
    Sockets { s with fds := (r, .pipe) :: (w, .pipe) :: s.fds } := by
  refine ⟨?_, fun fd hf hp => ?_, fun fd hf => ?_, h.nodup, ?_, h.listen_apart⟩
  · intro p hp
    simp only [List.mem_cons] at hp
    rcases hp with rfl | rfl | hp
    · exact hr.1
    · exact hw.1
    · exact h.nonneg p hp
  · have hf' : (fd, FdKind.other) ∈ s.fds := by simpa using hf
    have ho := isOpen_of_mem hf'
    rw [mem_pipes] at hp
    simp only [List.mem_cons, Prod.mk.injEq, and_true] at hp
    rcases hp with rfl | rfl | hp
    · simp [hr.2] at ho
    · simp [hw.2] at ho
    · exact h.apart fd hf' (mem_pipes.mpr hp)
  · simp [h.comm_open fd hf]
  · simp [h.listen_open]

lemma closed (h : Sockets s) (hfd : fd ∈ s.pipes) : Sockets (s.close fd) := by
  have ha {g : Int} (hg : (g, FdKind.other) ∈ s.fds) : g ≠ fd := by
    rintro rfl
    exact h.apart g hg hfd
  refine ⟨fun p hp => h.nonneg p (mem_close.mp hp).1, fun g hg hp => ?_, fun g hg => ?_, h.nodup,
    mem_close.mpr ⟨h.listen_open, ha h.listen_open⟩, h.listen_apart⟩
  · rw [pipes_close] at hp
    exact h.apart g (mem_close.mp hg).1 (List.mem_filter.mp hp).1
  · exact mem_close.mpr ⟨h.comm_open g hg, ha (h.comm_open g hg)⟩

end Sockets

def State.unlinked (s : State) (fd : Int) : State :=
  { s with sessions := s.sessions.eraseP (·.commFd = fd) }

lemma commFds_unlinked (s : State) (fd : Int) : (s.unlinked fd).commFds = s.commFds.erase fd := by
  rw [State.commFds, State.unlinked, State.commFds, List.erase_eq_eraseP', List.eraseP_map]
  rfl

namespace Sockets

variable {s : State} {fd : Int}

lemma accept (h : Sockets s) (hf : s.isFresh fd) :
    Sockets { s with fds := (fd, .other) :: s.fds } ∧ fd ∉ s.commFds ∧ fd ≠ s.listenSock := by
  have hn {k : FdKind} : (fd, k) ∉ s.fds := fun hm => by
    have ho := isOpen_of_mem hm
    simp [hf.2] at ho
  have hp : ({ s with fds := (fd, .other) :: s.fds } : State).pipes = s.pipes := by
    simp [State.pipes]
  refine ⟨⟨?_, ?_, ?_, h.nodup, ?_, h.listen_apart⟩, fun hc => hn (h.comm_open fd hc), ?_⟩
  · intro p hp
    rcases List.mem_cons.mp hp with rfl | hp
    · exact hf.1
    · exact h.nonneg p hp
  · intro g hg
    rw [hp]
    rcases List.mem_cons.mp hg with he | hg
    · obtain rfl := (Prod.mk.inj he).1
      exact fun hm => hn (mem_pipes.mp hm)
    · exact h.apart g hg
  · exact fun g hg => List.mem_cons_of_mem _ (h.comm_open g hg)
  · exact List.mem_cons_of_mem _ h.listen_open
  · intro he
    exact hn (he ▸ h.listen_open)

lemma link (h : Sockets s) (ho : (fd, .other) ∈ s.fds) (hc : fd ∉ s.commFds)
    (hl : fd ≠ s.listenSock) : Sockets { s with sessions := newSession fd :: s.sessions } := by
  refine ⟨h.nonneg, h.apart, ?_, ?_, h.listen_open, ?_⟩
  · intro g hg
    rcases List.mem_cons.mp hg with rfl | hg
    · exact ho
    · exact h.comm_open g hg
  · exact List.nodup_cons.mpr ⟨hc, h.nodup⟩
  · intro hm
    rcases List.mem_cons.mp hm with he | hm
    · exact hl he.symm
    · exact h.listen_apart hm

lemma unlink (h : Sockets s) (hc : fd ∈ s.commFds) :
    Sockets ((s.close fd).unlinked fd) ∧ ((s.close fd).unlinked fd).pipes = s.pipes := by
  have hn : fd ∉ s.pipes := h.apart fd (h.comm_open fd hc)
  have hp : ((s.close fd).unlinked fd).pipes = s.pipes := by
    change (s.close fd).pipes = s.pipes
    rw [pipes_close, List.filter_eq_self]
    intro g hg
    have hne : g ≠ fd := by
      rintro rfl
      exact hn hg
    simpa using hne
  have hm {g : Int} (hg : (g, FdKind.other) ∈ s.fds) (hne : g ≠ fd) :
      (g, FdKind.other) ∈ ((s.close fd).unlinked fd).fds := mem_close.mpr ⟨hg, hne⟩
  have hcomm : ((s.close fd).unlinked fd).commFds = s.commFds.erase fd := commFds_unlinked _ fd
  refine ⟨⟨fun p hq => ?_, fun g hg => ?_, fun g hg => ?_, ?_, ?_, fun hl => ?_⟩, hp⟩
  · exact h.nonneg p (mem_close.mp hq).1
  · rw [hp]
    exact h.apart g (mem_close.mp hg).1
  · rw [hcomm] at hg
    have hg' := (List.Nodup.mem_erase_iff h.nodup).mp hg
    exact hm (h.comm_open g hg'.2) hg'.1
  · rw [hcomm]
    exact h.nodup.erase fd
  · exact hm h.listen_open fun he => h.listen_apart (he ▸ hc)
  · rw [hcomm] at hl
    exact h.listen_apart (List.mem_of_mem_erase hl)

end Sockets

end Descriptors

/-! ### What the descriptors depend on -/

structure View (s s' : State) : Prop where
  pipefd : ∀ m, (s'.mods m).pipefd = (s.mods m).pipefd
  parked : ∀ m, (s'.mods m).state.parked = (s.mods m).state.parked
  fds : s'.fds = s.fds
  commFds : s'.commFds = s.commFds
  listenSock : s'.listenSock = s.listenSock

lemma View.setMod {s s' : State} (h : View s s') (m : Mod) {f : Module → Module}
    (hp : ∀ M N : Module, M.pipefd = N.pipefd → (f M).pipefd = (f N).pipefd)
    (hs : ∀ M N : Module, M.state.parked = N.state.parked →
      (f M).state.parked = (f N).state.parked) : View (s.setMod m f) (s'.setMod m f) where
  pipefd m' := by
    rw [State.setMod_mods, State.setMod_mods]
    split
    · exact hp _ _ (h.pipefd m)
    · exact h.pipefd m'
  parked m' := by
    rw [State.setMod_mods, State.setMod_mods]
    split
    · exact hs _ _ (h.parked m)
    · exact h.parked m'
  fds := h.fds
  commFds := h.commFds
  listenSock := h.listenSock

lemma view_setMod (s : State) (m : Mod) {f : Module → Module} (hp : ∀ M, (f M).pipefd = M.pipefd)
    (hs : ∀ M, (f M).state = M.state) : View s (s.setMod m f) where
  pipefd := State.setMod_field Module.pipefd (hp _)
  parked := State.setMod_field (fun M => M.state.parked) (by rw [hs])
  fds := rfl
  commFds := rfl
  listenSock := rfl

lemma view_reap (s : State) (dead status : Int) : View s (reap dead status s) where
  pipefd m := by rw [reap_mods, Module.onDeath_pipefd]
  parked m := by rw [reap_mods, Module.onDeath_parked]
  fds := reap_fds ..
  commFds := by simp [State.commFds]
  listenSock := reap_listenSock ..

lemma Frame.view {op : Op} {s s' : State} (h : Frame op s s') (hm : op.writesMods = false)
    (hf : op.writesFds = false) (hs : op.writesSessions = false) : View s s' where
  pipefd m := by rw [h.mods hm]
  parked m := by rw [h.mods hm]
  fds := h.fds hf
  commFds := by rw [State.commFds, (h.sessions hs).1]; rfl
  listenSock := h.listenSock

def Seen (P : State → Prop) : Prop := ∀ s s', View s s' → P s → P s'

lemma Seen.resists {P : State → Prop} (h : Seen P) : Resists P where
  pending s _ := h s _ ⟨fun _ => rfl, fun _ => rfl, rfl, rfl, rfl⟩
  childExit s _ _ := h s _ ⟨fun _ => rfl, fun _ => rfl, rfl, rfl, rfl⟩
  reap s dead status _ := h s _ (view_reap s dead status)
  term s _ := h s _ ⟨fun _ => rfl, fun _ => rfl, rfl, rfl, rfl⟩

structure Tidy (extra : List Int) (s : State) : Prop where
  pipes : Pipes extra s
  sockets : Sockets s
  piped : Piped s

namespace Tidy

variable {s : State} {extra : List Int} {m : Mod} {fd : Int}

lemma seen (extra : List Int) : Seen (Tidy extra) := by
  intro s s' hv h
  have hp : s'.pipes = s.pipes := by rw [State.pipes, hv.fds]; rfl
  refine ⟨h.pipes.congr hv.pipefd hp, h.sockets.congr hv.fds hv.commFds hv.listenSock, fun m => ?_⟩
  rw [hv.parked m, hv.pipefd m]
  exact h.piped m

lemma closed (h : Tidy (fd :: extra) s) : Tidy extra (s.close fd) :=
  ⟨h.pipes.closed, h.sockets.closed ((h.pipes.mem_iff fd).mpr (by simp)), h.piped⟩

lemma setPipefd {f : Int} (h : Tidy extra s) {extra' : List Int}
    (hp : Pipes extra' (s.setMod m ({ · with pipefd := f })))
    (hm : (s.mods m).state.parked = false → f ≠ -1) :
    Tidy extra' (s.setMod m ({ · with pipefd := f })) := by
  refine ⟨hp, h.sockets.congr rfl rfl rfl, fun m' => ?_⟩
  rw [State.setMod_mods]
  split
  · exact hm
  · exact h.piped m'

lemma setState {st : ModState} (h : Tidy extra s)
    (hm : st.parked = false → (s.mods m).pipefd ≠ -1) :
    Tidy extra (s.setMod m ({ · with state := st })) := by
  refine ⟨h.pipes.setMod fun _ => rfl, h.sockets.congr rfl rfl rfl, fun m' => ?_⟩
  rw [State.setMod_mods]
  split
  · exact hm
  · exact h.piped m'

end Tidy

def Op.closes : Op → State → Option Int
  | .closeFd fd, _ => some fd
  | .closePipefd m, s => some (s.mods m).pipefd
  | .closeComm fd, _ => some fd
  | .closeListen, s => some s.listenSock
  | _, _ => none

structure DescriptorsAt (l : Option Op) (s : State) : Prop where
  pipes : l = some .loopTest → ∀ fd, fd ∈ s.pipes ↔ fd ≠ -1 ∧ ∃ m, (s.mods m).pipefd = fd
  distinct : l = some .loopTest → ∀ m m', (s.mods m).pipefd = (s.mods m').pipefd →
    (s.mods m).pipefd ≠ -1 → m = m'
  close : ∀ op fd, l = some op → op.closes s = some fd → fd ≠ -1 ∧ s.isOpen fd = true

def pipeless (l : Option Op) (s : State) (i : Input Answer Signal) : Bool :=
  match l, i with
  | some (.pipe m), .main (.pipe _ _) => (s.mods m).pipefd = -1
  | _, _ => true

section Walk

variable {P : State → Prop} {op : Op} {m : Mod} {extra : List Int} {fd : Int}

abbrev pipeRules : Rules Op.Res State Answer Signal :=
  rules (fun l s i => pipeless l s i = true) DescriptorsAt

lemma descriptorsAt (hn : op ≠ .loopTest) (hc : ∀ s, op.closes s = none) (s : State) :
    DescriptorsAt (some op) s where
  pipes he := absurd (Option.some.inj he) hn
  distinct he := absurd (Option.some.inj he) hn
  close o fd he hf := by
    obtain rfl := Option.some.inj he
    rw [hc s] at hf
    cases hf

lemma descriptorsAt_close (hc : ∀ s, P s → ∃ fd k, op.closes s = some fd ∧ (fd, k) ∈ s.fds)
    (hp : ∀ s, P s → Sockets s) (s : State) (h : P s) : DescriptorsAt (some op) s := by
  obtain ⟨fd, k, hf, hm⟩ := hc s h
  refine ⟨fun he => ?_, fun he => ?_, fun o g he hg => ?_⟩
  · cases he
    cases hf
  · cases he
    cases hf
  · cases he
    rw [hf, Option.some.injEq] at hg
    subst hg
    have h0 := (hp s h).nonneg _ hm
    exact ⟨fun he => by simp [he] at h0, isOpen_of_mem hm⟩

lemma Seen.keeps_view (h : Seen P) (hn : op ≠ .loopTest) (hc : ∀ s, op.closes s = none)
    (hv : ∀ s i r s', exec op s i = some (r, s') → View s s') : pipeRules.Keeps P op :=
  h.resists.atomic (fun s _ => descriptorsAt hn hc s) fun s i r s' hs _ he =>
    h s s' (hv s i r s' he) hs

lemma Seen.keeps (h : Seen P) (hn : op ≠ .loopTest) (hm : op.writesMods = false)
    (hf : op.writesFds = false) (hs : op.writesSessions = false) : pipeRules.Keeps P op := by
  refine h.keeps_view hn (fun s => ?_) fun s i r s' he => (exec_frame he).view hm hf hs
  cases op <;> first | rfl | cases hf

lemma Seen.det (h : Seen P) (hn : op ≠ .loopTest) (hc : ∀ s, op.closes s = none)
    {Q : op.Res → State → Prop} {g : State → op.Res} {f : State → State}
    (hd : ∀ s i, exec op s i = some (g s, f s)) (hx : ∀ s, P s → Q (g s) (f s)) :
    pipeRules.Atomic op P Q := h.resists.det (fun s _ => descriptorsAt hn hc s) hd hx

lemma Seen.setPid (h : Seen P) (m : Mod) (p : Int) : pipeRules.Keeps P (.setPid m p) := by
  refine h.keeps_view (by simp) (fun _ => rfl) fun s i r s' he => ?_
  cases he
  exact view_setMod s m (fun _ => rfl) fun _ => rfl

lemma seen_and {Q : State → Prop} (hP : Seen P) (hQ : Seen Q) : Seen fun s => P s ∧ Q s :=
  fun s s' hv h => ⟨hP s s' hv h.1, hQ s s' hv h.2⟩

lemma seen_pipefd (m : Mod) (fd : Int) : Seen fun s => (s.mods m).pipefd = fd :=
  fun _ _ hv h => (hv.pipefd m).trans h

lemma seen_parked (m : Mod) (b : Bool) : Seen fun s => (s.mods m).state.parked = b :=
  fun _ _ hv h => (hv.parked m).trans h

def Piping (m : Mod) (extra : List Int) (fd : Int) (s : State) : Prop :=
  Tidy extra s ∧ (s.mods m).state.parked = true ∧ (s.mods m).pipefd = fd

lemma Piping.seen (m : Mod) (extra : List Int) (fd : Int) : Seen (Piping m extra fd) :=
  seen_and (Tidy.seen extra) (seen_and (seen_parked m true) (seen_pipefd m fd))

lemma closeFd_tidy (fd : Int) (extra : List Int) :
    pipeRules.Atomic (.closeFd fd) (Tidy (fd :: extra)) fun _ => Tidy extra := by
  refine (Tidy.seen _).resists.det (descriptorsAt_close ?_ fun s h => h.sockets)
    (fun _ _ => rfl) fun s h => h.closed
  exact fun s h => ⟨fd, .pipe, rfl, mem_pipes.mp ((h.pipes.mem_iff fd).mpr (by simp))⟩

lemma pipe_tidy (m : Mod) : pipeRules.Atomic (.pipe m) (Tidy []) fun r s => match r with
    | none => Tidy [] s
    | some (r, w) => Piping m [r, w] (-1) s := by
  refine (Tidy.seen _).resists.atomic (fun s _ => descriptorsAt (by simp) (fun _ => rfl) s)
    fun s i r s' h hok he => ?_
  rcases exec_pipe he with ⟨rfl, rfl⟩ | ⟨p, q, rfl, rfl, hp, hq, hpq, rfl⟩
  · exact h
  · have hm : (s.mods m).pipefd = -1 := by simpa [pipeless] using hok
    refine ⟨⟨h.pipes.opened hp hq hpq, h.sockets.opened hp hq, h.piped⟩, ?_, hm⟩
    by_contra hn
    exact h.piped m (by simpa using hn) hm

lemma setPipefd_taken (m : Mod) (r w : Int) : pipeRules.Atomic (.setPipefd m r)
    (Piping m [r, w] (-1)) fun _ s => Piping m [w] r s ∧ r ≠ -1 := by
  refine (Piping.seen m _ _).det (by simp) (fun _ => rfl) (fun _ _ => rfl) fun s h => ?_
  have hr : r ≠ -1 := fun he => h.1.pipes.extra_ne (by simp [he])
  exact ⟨⟨h.1.setPipefd (h.1.pipes.take h.2.2) fun _ => hr, by simpa using h.2.1, by simp⟩, hr⟩

lemma setPipefd_given (m : Mod) (r w : Int) : pipeRules.Atomic (.setPipefd m (-1))
    (fun s => Piping m [w] r s ∧ r ≠ -1) fun _ => Tidy [r, w] := by
  refine (seen_and (Piping.seen m _ _) fun _ _ _ h => h).det (by simp) (fun _ => rfl)
    (fun _ _ => rfl) fun s h => ?_
  obtain ⟨⟨ht, hp, hm⟩, hr⟩ := h
  exact ht.setPipefd (ht.pipes.release hm hr) fun hq => by simp [hp] at hq

lemma doModuleInit_tidy (m : Mod) : pipeRules.Valid (Tidy []) (doModuleInit m) fun _ => Tidy [] := by
  have ht := Tidy.seen []
  refine .act (ht.keeps (by simp) rfl rfl rfl) fun (r : Bool) => ?_
  cases r with
  | true => exact fun _ h => h
  | false =>
  refine .act (pipe_tidy m) fun (r : Option (Int × Int)) => ?_
  cases r with
  | none => exact fun _ h => h
  | some p =>
  obtain ⟨r, w⟩ := p
  refine .act (setPipefd_taken m r w) fun _ => ?_
  have hown := seen_and (Piping.seen m [w] r) fun _ _ _ (h : r ≠ -1) => h
  refine .act (hown.keeps (by simp) rfl rfl rfl) fun flags => ?_
  refine .act (hown.keeps (by simp) rfl rfl rfl) fun (q : Option Int) => ?_
  cases q with
  | none =>
    refine .act (hown.keeps (by simp) rfl rfl rfl) fun _ => ?_
    refine .act (setPipefd_given m r w) fun _ => .act (closeFd_tidy r [w]) fun _ => ?_
    exact .act (closeFd_tidy w []) fun _ _ h => h
  | some p =>
    refine .act (B := fun _ => Tidy [w])
      (hown.det (by simp) (fun _ => rfl) (fun _ _ => rfl) fun s h => ?_) fun _ => ?_
    · exact h.1.1.setState fun _ => by rw [h.1.2.2]; exact h.2
    refine .act ((Tidy.seen [w]).setPid m p) fun _ => ?_
    refine .act ((Tidy.seen [w]).keeps (by simp) rfl rfl rfl) fun _ => ?_
    refine .act (closeFd_tidy w []) fun _ => ?_
    exact .act (ht.keeps (by simp) rfl rfl rfl) fun _ _ h => h

def Exiting (m : Mod) (s : State) : Prop := Tidy [] s ∧ (s.mods m).state.parked = false

lemma Exiting.seen (m : Mod) : Seen (Exiting m) := seen_and (Tidy.seen []) (seen_parked m false)

lemma endChild_tidy (m : Mod) : pipeRules.Valid (Exiting m) (endChild m) fun _ => Exiting m := by
  have ht := Exiting.seen m
  refine .act (ht.keeps (by simp) rfl rfl rfl) fun (r : Bool) => ?_
  cases r with
  | false => exact fun _ h => h
  | true =>
  have hdead : pipeRules.Valid (Exiting m) (do
      stmt (.setState m .dead)
      stmt (.setPid m (-1))) fun _ => Exiting m := by
    refine .act (B := fun _ => Exiting m)
      ((Exiting.seen m).det (by simp) (fun _ => rfl) (fun _ _ => rfl) fun s h => ?_) fun _ => ?_
    · exact ⟨h.1.setState fun _ => h.1.piped m h.2, by simp [ModState.parked]⟩
    · exact .call ((Exiting.seen m).setPid m (-1))
  refine .act (ht.keeps (by simp) rfl rfl rfl) fun (r : Int) => ?_
  change pipeRules.Valid _ (if r ≠ 0 then _ else _ : Code Unit) _
  split
  · exact .act (ht.keeps (by simp) rfl rfl rfl) fun _ => hdead
  · exact hdead

lemma closePipefd_tidy (m : Mod) : pipeRules.Atomic (.closePipefd m) (Exiting m)
    fun _ s => Tidy [] (s.setMod m ({ · with pipefd := -1, state := .exited })) := by
  refine (Exiting.seen m).resists.det (descriptorsAt_close ?_ fun s h => h.1.sockets)
    (fun _ _ => rfl) fun s h => ?_
  · refine fun s h => ⟨_, .pipe, rfl, mem_pipes.mp ?_⟩
    exact (h.1.pipes.mem_iff _).mpr (Or.inr ⟨m, rfl, h.1.piped m h.2⟩)
  · have hp := h.1.pipes.release (m := m) rfl (h.1.piped m h.2)
    have ht : Tidy [(s.mods m).pipefd]
        (s.setMod m ({ · with pipefd := -1, state := .exited })) := by
      refine ⟨hp.congr (fun m' => ?_) rfl, h.1.sockets.congr rfl rfl rfl, fun m' => ?_⟩
      · rw [State.setMod_mods, State.setMod_mods]
        split <;> rfl
      · rw [State.setMod_mods]
        split
        · simp [ModState.parked]
        · exact h.1.piped m'
    exact ht.closed

lemma doModuleExit_tidy (m : Mod) : pipeRules.Valid (Tidy []) (doModuleExit m) fun _ => Tidy [] := by
  have ht := Exiting.seen m
  refine .act (B := fun r s => Tidy [] s ∧ (s.mods m).state.parked = r)
    ((Tidy.seen []).det (by simp) (fun _ => rfl) (fun _ _ => rfl) fun s h => ⟨h, rfl⟩)
    fun (r : Bool) => ?_
  cases r with
  | true => exact fun _ h => h.1
  | false =>
  change pipeRules.Valid (Exiting m) _ _
  refine .act (ht.keeps (by simp) rfl rfl rfl) fun flags => (endChild_tidy m).bind fun _ => ?_
  refine .act (ht.keeps (by simp) rfl rfl rfl) fun _ => .act (ht.keeps (by simp) rfl rfl rfl) fun _ => ?_
  refine .act (closePipefd_tidy m) fun _ => ?_
  refine .act (B := fun _ s => Tidy [] (s.setMod m ({ · with state := .exited })))
    (Seen.det ?_ (by simp) (fun _ => rfl) (fun _ _ => rfl) fun s h => ?_) fun _ => ?_
  · exact fun s s' hv h => Tidy.seen [] _ _ (hv.setMod m (fun _ _ _ => rfl) fun _ _ _ => rfl) h
  · simpa only [setMod_setMod] using h
  refine .call (Seen.det ?_ (by simp) (fun _ => rfl) (fun _ _ => rfl) fun s h => h)
  exact fun s s' hv h => Tidy.seen [] _ _ (hv.setMod m (fun _ _ h => h) fun _ _ _ => rfl) h

/-! ### Sessions -/

def Serving (fd : Int) (s : State) : Prop := Tidy [] s ∧ fd ∈ s.commFds

lemma Serving.seen (fd : Int) : Seen (Serving fd) :=
  seen_and (Tidy.seen []) fun s s' hv h => by rwa [hv.commFds]

def Accepted (fd : Int) (s : State) : Prop :=
  Tidy [] s ∧ (fd, .other) ∈ s.fds ∧ fd ∉ s.commFds ∧ fd ≠ s.listenSock

lemma Accepted.seen (fd : Int) : Seen (Accepted fd) :=
  seen_and (Tidy.seen []) fun s s' hv h => by rwa [hv.commFds, hv.fds, hv.listenSock]

lemma Tidy.accepted {s : State} (h : Tidy [] s) (hf : s.isFresh fd) :
    Accepted fd { s with fds := (fd, .other) :: s.fds } := by
  obtain ⟨hs, hc, hl⟩ := h.sockets.accept hf
  exact ⟨⟨h.pipes.congr (fun _ => rfl) (by simp [State.pipes]), hs, h.piped⟩, by simp, hc, hl⟩

lemma startNewSession_tidy :
    pipeRules.Valid (Tidy []) startNewSession fun _ => Tidy [] := by
  have ht := Tidy.seen []
  refine .act (ht.keeps (by simp) rfl rfl rfl) fun (b : Bool) => ?_
  cases b with
  | false => exact fun _ h => h
  | true =>
  refine .act (B := fun r s => Option.elim r (Tidy [] s) fun fd => Accepted fd s) ?_
    fun (r : Option Int) => ?_
  · refine (Tidy.seen []).resists.atomic (fun s _ => descriptorsAt (by simp) (fun _ => rfl) s)
      fun s i r s' h _ he => ?_
    rcases exec_accept he with ⟨rfl, rfl⟩ | ⟨fd, rfl, hf, rfl⟩
    · exact h
    · exact h.accepted hf
  cases r with
  | none => exact fun _ h => h
  | some fd =>
  refine .act (B := fun _ => Tidy []) ((Accepted.seen fd).det (by simp) (fun _ => rfl)
    (fun _ _ => rfl) fun s h => ?_) fun _ => ?_
  · obtain ⟨ht, ho, hc, hl⟩ := h
    exact ⟨ht.pipes.congr (fun _ => rfl) rfl, ht.sockets.link ho hc hl, ht.piped⟩
  refine .act ((Tidy.seen []).keeps_view (by simp) (fun _ => rfl) fun s i r s' he => ?_) fun _ => ?_
  · cases he
    exact ⟨fun _ => rfl, fun _ => rfl, rfl, rfl, rfl⟩
  exact .call (ht.keeps (by simp) rfl rfl rfl)

lemma Serving.closed {s : State} (h : Serving fd s) : Tidy [] ((s.close fd).unlinked fd) := by
  obtain ⟨hs, hp⟩ := h.1.sockets.unlink h.2
  exact ⟨h.1.pipes.congr (fun _ => rfl) hp, hs, h.1.piped⟩

lemma closeSession_tidy (fd : Int) :
    pipeRules.Valid (Serving fd) (closeSession fd) fun _ => Tidy [] := by
  have ht := Tidy.seen []
  refine .act (B := fun _ s => Tidy [] (s.unlinked fd)) ?_ fun _ => ?_
  · exact (Serving.seen fd).resists.det (descriptorsAt_close (fun s h =>
      ⟨fd, .other, rfl, h.1.sockets.comm_open fd h.2⟩) fun s h => h.1.sockets) (fun _ _ => rfl)
      fun s h => h.closed
  refine .act (B := fun _ => Tidy []) (Seen.det ?_ (by simp) (fun _ => rfl) (fun _ _ => rfl)
    fun s h => h) fun _ => ?_
  · intro s s' hv h
    refine Tidy.seen [] (s.unlinked fd) (s'.unlinked fd)
      ⟨hv.pipefd, hv.parked, hv.fds, ?_, hv.listenSock⟩ h
    rw [commFds_unlinked, commFds_unlinked, hv.commFds]
  refine .act ((Tidy.seen []).keeps_view (by simp) (fun _ => rfl) fun s i r s' he => ?_) fun _ => ?_
  · cases he
    exact ⟨fun _ => rfl, fun _ => rfl, rfl, rfl, rfl⟩
  exact .call (ht.keeps (by simp) rfl rfl rfl)

lemma restart_tidy (op : Op) (h : op.ofRestart = true) : pipeRules.Keeps (Tidy []) op := by
  cases op with
  | clearNeedsRestart m =>
    refine (Tidy.seen []).keeps_view (by simp) (fun _ => rfl) fun s i r s' he => ?_
    cases he
    exact view_setMod s m (fun _ => rfl) fun _ => rfl
  | bumpFails m =>
    refine (Tidy.seen []).keeps_view (by simp) (fun _ => rfl) fun s i r s' he => ?_
    cases he
    have hv := view_setMod s m (f := fun M => { M with numFails := M.numFails + 1 })
      (fun _ => rfl) fun _ => rfl
    exact ⟨hv.pipefd, hv.parked, rfl, rfl, rfl⟩
  | _ => first
    | (cases h; done)
    | exact (Tidy.seen []).keeps (by simp) rfl rfl rfl

lemma served_tidy : Served pipeRules (Tidy []) Serving where
  service op h := by
    cases op <;> first
      | (cases h; done)
      | exact (Tidy.seen []).keeps (by simp) rfl rfl rfl
  accept := startNewSession_tidy
  find fd := by
    refine (Tidy.seen []).det (by simp) (fun _ => rfl) (fun _ _ => rfl) fun s h => ⟨h, fun hb => ?_⟩
    refine ⟨h, ?_⟩
    rw [State.findSession, List.find?_isSome] at hb
    obtain ⟨t, ht, hf⟩ := hb
    exact List.mem_map.mpr ⟨t, ht, by simpa using hf⟩
  read fd := by
    refine (Serving.seen fd).keeps_view (by simp) (fun _ => rfl) fun s i r s' he => ?_
    obtain ⟨f, hf, rfl⟩ := exec_read he
    refine ⟨fun _ => rfl, fun _ => rfl, rfl, ?_, rfl⟩
    simp only [State.commFds, State.setSession, List.map_map]
    exact List.map_congr_left fun t _ => by simp only [Function.comp]; split <;> simp [hf]
  close := closeSession_tidy
  forget _ _ h := h.1
  command := runCommand_of_keeps restart_tidy doModuleInit_tidy doModuleExit_tidy

lemma tidy_none : pipeRules.Holds none (Tidy []) :=
  (Tidy.seen []).resists.holds fun _ _ => ⟨nofun, nofun, nofun⟩

lemma looped_tidy : Looped pipeRules (Tidy []) Serving where
  toServed := served_tidy
  holds := tidy_none
  loop op h := by
    cases op with
    | loopTest =>
      refine (Tidy.seen []).resists.det (fun s h => ⟨fun _ fd => ?_, fun _ => h.pipes.injective,
        fun o fd he hf => ?_⟩) (fun _ _ => rfl) fun s h => h
      · rw [h.pipes.mem_iff]
        simp only [List.not_mem_nil, false_or]
        exact ⟨fun ⟨m, hm, hne⟩ => ⟨hne, m, hm⟩, fun ⟨hne, m, hm⟩ => ⟨m, hm, hne⟩⟩
      · cases he
        cases hf
    | _ => first
      | (cases h; done)
      | exact (Tidy.seen []).keeps (by simp) rfl rfl rfl
  setup := by
    refine .of_uses tidy_none (setupPollFds_uses.mono fun op h => ?_)
    cases op <;> first
      | (cases h; done)
      | exact (Tidy.seen []).keeps (by simp) rfl rfl rfl
  cleanup := managerCleanupDirt_valid (restart_tidy _ rfl)
    (fun _ => restartMods_of_keeps tidy_none restart_tidy doModuleInit_tidy doModuleExit_tidy)
    (fun _ => (Tidy.seen []).keeps (by simp) rfl rfl rfl) fun _ => restart_tidy _ rfl

lemma shutdownManager_tidy :
    pipeRules.Valid (Tidy []) shutdownManager fun _ => Tidy [] := by
  have ht := Tidy.seen []
  refine .act (ht.keeps (by simp) rfl rfl rfl) fun _ => .act (ht.keeps (by simp) rfl rfl rfl) fun _ => ?_
  refine (Valid.each fun m _ => doModuleExit_tidy m).bind fun _ => ?_
  refine .act (B := fun _ _ => True) ?_ fun _ =>
    .act (B := fun _ _ => True) ?_ fun r => nomatch r
  · exact (Tidy.seen []).resists.det (descriptorsAt_close (fun s h =>
      ⟨_, .other, rfl, h.sockets.listen_open⟩) fun s h => h.sockets) (fun _ _ => rfl) fun s h => trivial
  · exact (Resists.const True).atomic (Q := fun _ _ => True)
      (fun s _ => descriptorsAt (by simp) (fun _ => rfl) s) fun _ _ _ _ _ _ _ => trivial

lemma main_tidy (bot server : Bool) :
    pipeRules.Valid (Tidy []) (main bot server) fun _ => Tidy [] :=
  main_valid doModuleInit_tidy ((Tidy.seen []).keeps (by simp) rfl rfl rfl)
    (looped_tidy.startManagerLoop shutdownManager_tidy) bot server

end Walk

lemma boot_tidy (b : Boot) : Tidy [] b.state := by
  have hp : b.state.pipes = [] := by simp [State.pipes, Boot.state]
  have ho {fd : Int} (h : fd ∈ b.fds) : (fd, FdKind.other) ∈ b.state.fds := by
    simpa [Boot.state] using h
  refine ⟨⟨by simp [hp], fun fd => ?_, fun _ _ _ hn => ?_, by simp, by simp, by simp⟩,
    ⟨fun p h => ?_, by simp [hp], ?_, ?_, ho b.listen_open, ?_⟩, fun m h => ?_⟩
  · rw [hp]
    constructor
    · simp
    · rintro (h | ⟨m, h, hn⟩)
      · exact h
      · exact absurd h.symm hn
  · simp [Boot.state, defineModule] at hn
  · simp only [Boot.state, List.mem_map] at h
    obtain ⟨fd, hfd, rfl⟩ := h
    exact b.nonneg fd hfd
  · simp [State.commFds, Boot.state]
  · simp [State.commFds, Boot.state]
  · simp [State.commFds, Boot.state]
  · cases h

theorem descriptors_of_pipeless (b : Boot) (bot server : Bool) {c : Config Op.Res State Unit}
    (h : machine.Reaches (fun l s i => pipeless l s i = true) (start b bot server) c) :
    DescriptorsAt c.prog.next c.st :=
  (main_tidy bot server).guarantee (fun _ => tidy_none) (boot_tidy b) h

set_option maxRecDepth 4000 in
theorem pipe_leaked : ¬ ∀ (b : Boot) (bot server : Bool) (c : Config Op.Res State Unit),
    machine.Reaches (fun _ _ _ => True) (start b bot server) c → DescriptorsAt c.prog.next c.st := by
  have hrun : (follow (fun _ _ _ => True) (start .terminal true false)
      (launching .tsBot ⟨false, false⟩ 4 5 10 ++ connecting 2 6 ++
        commanding 3 6 (ascii "enable ts_bot") ++ dying (.isRunning .tsBot) 10 ++
        launching .tsBot ⟨false, false⟩ 5 7 11 ++ [(.loopTest, .async .raiseChld)])).map
      (fun c => (c.prog.next, c.st.pipes, mods.map fun m => (c.st.mods m).pipefd)) =
      some (some .loopTest, [5, 4], [5, -1]) := by decide
  obtain ⟨c, hc, he⟩ := Option.map_eq_some_iff.mp hrun
  simp only [Prod.mk.injEq, mods, List.map_cons, List.map_nil, List.cons.injEq, and_true] at he
  obtain ⟨hn, hp, hb, hw⟩ := he
  intro h
  have h4 := (h _ _ _ c (Machine.reaches_of_follow hc)).pipes hn 4
  rw [hp] at h4
  obtain ⟨-, m, hm⟩ := h4.mp (by simp)
  cases m with
  | tsBot => omega
  | tsWebserver => omega

set_option maxRecDepth 4000 in
theorem descriptors_of_pipeless_restart : ∃ c : Config Op.Res State Unit,
    c.prog.next = some (.closePipefd .tsBot) ∧ c.st.pipes = [4] ∧
      DescriptorsAt c.prog.next c.st := by
  have hrun : (follow (fun l s i => pipeless l s i = true) (start .terminal true false)
      (launching .tsBot ⟨false, false⟩ 4 5 10 ++ dying (.setStatus .running) 10 ++
        [(.closePipefd .tsBot, .async .raiseChld)])).map (fun c => (c.prog.next, c.st.pipes)) =
      some (some (.closePipefd .tsBot), [4]) := by decide
  obtain ⟨c, hc, he⟩ := Option.map_eq_some_iff.mp hrun
  simp only [Prod.mk.injEq] at he
  exact ⟨c, he.1, he.2,
    descriptors_of_pipeless .terminal true false (Machine.reaches_of_follow hc)⟩

end TeamspeakWebserver.Manager
