import TeamspeakWebserver.Interruptible.Faults
import TeamspeakWebserver.Manager.Dispatch
import TeamspeakWebserver.Sessions.Handler

/-! A body read that stores behind the `buf` of its session, into the memory that the poll array and
the other sessions are in. -/

namespace TeamspeakWebserver.Manager

open Interruptible Prog Sessions

def inBuffer : Option Op → State → Input Answer Signal → Bool
  | some (.read fd), s, .main (.read r) => (s.findSession fd).all (·.storesInside r)
  | _, _, _ => true

abbrev InBuffer : Condition Op State Answer Signal := fun l s i => inBuffer l s i = true

/-- The memory of the manager holds anything, and what the kernel keeps for it is as before. -/
structure Scribbled (s s' : State) : Prop where
  children : s'.children = s.children
  pending : s'.pending = s.pending
  mask : s'.mask = s.mask
  fds : s'.fds = s.fds

/-- What is left of a pass: of the entry it is at, and the entries behind that. -/
def serving (p : Code Unit) (es : List (Int × Bool)) (nready : Int) : Code Unit :=
  p.bind fun _ => serviceFds es nready

/-- After the step the entries that the pass has still to look at hold anything. -/
def PassOverrun (c : Config Op.Res State Unit) (i : Input Answer Signal)
    (e : Config Op.Res State Unit) : Prop :=
  ∃ d, machine.step c i = some d ∧ ∃ p es es' nready, es'.length = es.length ∧
    d.prog = serving p es nready ∧ e.prog = serving p es' nready ∧ Scribbled d.st e.st

/-- After the step the array that the loop goes on with holds anything, and its last entries are those
that the pass has still to look at. -/
def LoopOverrun (c : Config Op.Res State Unit) (i : Input Answer Signal)
    (e : Config Op.Res State Unit) : Prop :=
  ∃ d, machine.step c i = some d ∧ ∃ p es es' nready, ∃ fds fds' : List Int, ∃ nfds,
    es'.length = es.length ∧ fds'.length = fds.length ∧ es'.map Prod.fst <:+ fds'.take nfds ∧
    d.prog = (serving p es nready).bind (fun _ => looping (fds, nfds)) ∧
    e.prog = (serving p es' nready).bind (fun _ => looping (fds', nfds)) ∧ Scribbled d.st e.st

lemma step_read {k : Outcome → Code Unit} {s : State} {t t' : Session} {ts : List Session} {r : Read}
    {o : Outcome} (hs : s.sessions = t :: ts) (hts : ∀ u ∈ ts, u.commFd ≠ t.commFd)
    (hready : s.ready = true) (hr : t.answers r = true) (ho : t.onRead r = (t', o)) :
    machine.step ⟨.act (.read t.commFd) k, s⟩ (.main (.read r)) =
      some ⟨k o, { s with sessions := t' :: ts }⟩ := by
  have hfind : s.findSession t.commFd = some t := by simp [State.findSession, hs]
  have hset : s.setSession t.commFd (fun u => (u.onRead r).1) = { s with sessions := t' :: ts } := by
    have hmap : ts.map (fun u => if u.commFd = t.commFd then (u.onRead r).1 else u) = ts := by
      refine (List.map_congr_left fun u hu => ?_).trans (List.map_id ts)
      rw [if_neg (hts u hu)]
      rfl
    rw [State.setSession, hs, List.map_cons, if_pos rfl, ho, hmap]
  have hexec : exec (.read t.commFd) s (.read r) = some (o, { s with sessions := t' :: ts }) := by
    have hadm : r.stale.length = 4 ∧ ∀ b ∈ r.got, 1 ≤ b.length ∧ b.length ≤ t.request := by
      simpa [Session.answers, Option.all_eq_true] using hr
    rw [exec, State.readSession, hfind]
    dsimp only
    rw [if_pos hadm, ho, hset]
  rw [Machine.step, if_pos (show machine.ready s = true from hready)]
  simp only [machine, hexec]
  rfl

theorem poll_array_of_inBuffer (b : Boot) (bot server : Bool) {c : Config Op.Res State Unit}
    (h : machine.Strays InBuffer LoopOverrun InBuffer (start b bot server) c) {fds : List Int}
    {nfds : ℕ} (hn : c.prog.next = some (.pollEnter fds nfds)) :
    nfds = fds.length ∧ fds = c.st.watched ∧ fds.Nodup :=
  poll_array_current b bot server (h.reaches.mono fun _ _ _ _ => trivial) hn

set_option maxRecDepth 4000 in
theorem poll_array_of_inBuffer_restarted : ∃ c : Config Op.Res State Unit,
    c.prog.next = some (.pollEnter [3, 6, 5] 3) ∧ 3 = [3, 6, 5].length ∧
      [3, 6, 5] = c.st.watched ∧ [(3 : Int), 6, 5].Nodup := by
  have hrun : (follow InBuffer (start .terminal true false)
      (launching .tsBot ⟨false, false⟩ 4 5 10 ++ connecting 2 6 ++ dying .loopTest 10 ++
        launching .tsBot ⟨true, true⟩ 5 7 11 ++
        [(.pollEnter [3, 6, 5] 3, .async .raiseChld)])).map (fun c => c.prog.next) =
      some (some (.pollEnter [3, 6, 5] 3)) := by decide
  obtain ⟨c, hc, he⟩ := Option.map_eq_some_iff.mp hrun
  have hreach : machine.Strays InBuffer LoopOverrun InBuffer (start .terminal true false) c :=
    (Machine.reaches_of_follow hc).strays fun _ _ _ hi => ⟨hi, hi⟩
  exact ⟨c, he, poll_array_of_inBuffer .terminal true false hreach he⟩

section Overrun

def sending (got : Bytes) : Input Answer Signal := .main (.read ⟨some got, [0, 0, 0, 0]⟩)

variable {s : State} {fd : Int} {ts : List Session} {b got : Bytes}

lemma body_read (s : State) (got : Bytes) {k : Outcome → Code Unit} (hs : s.sessions = reading fd 4000 b :: ts)
    (hts : ∀ u ∈ ts, u.commFd ≠ fd) (hready : s.ready = true)
    (hgot : 1 ≤ got.length ∧ got.length ≤ 4091) (hb : b.length + got.length ≠ 4000) :
    machine.step ⟨.act (.read fd) k, s⟩ (sending got) =
      some ⟨k .wait, { s with sessions := reading fd 4000 (b ++ got) :: ts }⟩ := by
  refine step_read (t := reading fd 4000 b) hs hts hready ?_ ?_
  · have hopen : (reading fd 4000 b).cmdLen ≠ 0 := Nat.succ_ne_zero 3999
    rw [Session.answers, Session.request, if_neg hopen]
    exact decide_eq_true ⟨rfl, decide_eq_true hgot⟩
  · rw [onRead_reading fd (by decide), if_neg hb]

lemma inBuffer_body (hs : s.sessions = reading fd 4000 b :: ts) :
    InBuffer (some (.read fd)) s (sending got) ↔ b.length + got.length < maxCmdLen := by
  have hfind : s.findSession fd = some (reading fd 4000 b) := by
    simp [State.findSession, hs, reading]
  have hopen : (reading fd 4000 b).cmdLen ≠ 0 := Nat.succ_ne_zero 3999
  have hbuf : (reading fd 4000 b).buf = b := rfl
  simp [InBuffer, inBuffer, sending, hfind, Session.storesInside, hopen, Session.store, hbuf]

def State.storing (b : Bytes) : State :=
  { State.hosting 4 (reading 4 4000 b) with status := .running }

def letters (n : ℕ) : Bytes := List.replicate n 65

lemma length_letters (n : ℕ) : (letters n).length = n := List.length_replicate

/-- A client announces 4000 bytes and sends 3000 of them. -/
lemma storing_reached : machine.Reaches InBuffer (start .terminal false false)
    ⟨looping ([3, 4], 2), .storing (letters 3000)⟩ := by
  obtain ⟨k, hbegin, hk⟩ : ∃ k, follow InBuffer (start .terminal false false)
      (connecting 1 4 ++ [(.pollReturn 2, .main (.poll 1 [false, true])),
        (.read 4, sending [0, 0, 15, 160])]) = some ⟨.act (.read 4) k, .storing []⟩ ∧
      k .wait = looping ([3, 4], 2) := ⟨_, by with_unfolding_all rfl, rfl⟩
  have hlen := length_letters 3000
  have hread := body_read (.storing []) (letters 3000) (k := k) rfl (by simp) rfl
    (by omega) (by simp [hlen])
  rw [hk] at hread
  refine (Machine.reaches_of_follow hbegin).tail _ ?_ hread
  exact (inBuffer_body (s := .storing []) rfl).mpr (by rw [hlen]; decide)

/-- It sends 3000 more, behind its buffer, where the array with the descriptors 3 and 4 begins. -/
lemma storing_overruns (fds' : List Int) (hf : fds'.length = 2) :
    machine.Strays InBuffer LoopOverrun (fun _ _ _ => True)
      ⟨looping ([3, 4], 2), .storing (letters 3000)⟩
      ⟨looping (fds', 2), .storing (letters 3000 ++ letters 3000)⟩ := by
  obtain ⟨k, hagain, hk⟩ : ∃ k, follow InBuffer ⟨looping ([3, 4], 2), .storing (letters 3000)⟩
      [(.pollReturn 2, .main (.poll 1 [false, true])), (.getSession 4, .main .ok)] =
      some ⟨.act (.read 4) k, .storing (letters 3000)⟩ ∧ k .wait = looping ([3, 4], 2) :=
    ⟨_, by with_unfolding_all rfl, rfl⟩
  have hlen := length_letters 3000
  have hread := body_read (.storing (letters 3000)) (letters 3000) (k := k) rfl (by simp) rfl
    (by omega) (by omega)
  have hover : ¬ InBuffer (some (.read 4)) (.storing (letters 3000)) (sending (letters 3000)) := by
    rw [inBuffer_body (s := .storing (letters 3000)) rfl, hlen]
    decide
  rw [hk] at hread
  have hbegin : machine.Strays InBuffer LoopOverrun (fun _ _ _ => True)
      ⟨looping ([3, 4], 2), .storing (letters 3000)⟩ ⟨.act (.read 4) k, .storing (letters 3000)⟩ :=
    (Machine.reaches_of_follow hagain).strays fun _ _ _ hi => ⟨trivial, hi⟩
  exact hbegin.fault (sending (letters 3000)) trivial hover ⟨_, hread, .ret (), [], [], 0, [3, 4], fds', 2,
    rfl, hf, List.nil_suffix, rfl, rfl, rfl, rfl, rfl, rfl⟩

theorem poll_array_overrun : ¬ ∀ (b : Boot) (bot server : Bool) (c : Config Op.Res State Unit),
    machine.Strays InBuffer LoopOverrun (fun _ _ _ => True) (start b bot server) c →
      ∀ (fds : List Int) (nfds : ℕ), c.prog.next = some (.pollEnter fds nfds) →
        nfds = fds.length ∧ fds = c.st.watched ∧ fds.Nodup := by
  intro h
  -- the descriptors of the array are four letters each now
  obtain ⟨k, hpoll⟩ : ∃ k, follow InBuffer ⟨looping ([1094795585, 1094795585], 2),
      .storing (letters 3000 ++ letters 3000)⟩ [(.getSessionsDirty, .main .ok)] =
        some ⟨.act (.pollEnter [1094795585, 1094795585] 2) k,
          .storing (letters 3000 ++ letters 3000)⟩ := ⟨_, by with_unfolding_all rfl⟩
  have hover := storing_overruns [1094795585, 1094795585] rfl
  have hreach := ((storing_reached.strays fun _ _ _ hi => ⟨trivial, hi⟩).trans hover).trans
    ((Machine.reaches_of_follow hpoll).strays fun _ _ _ hi => ⟨trivial, hi⟩)
  have hw : [(1094795585 : Int), 1094795585] = [3, 4] := (h _ _ _ _ hreach _ _ rfl).2.1
  exact absurd hw (by decide)

end Overrun

/-! ### One pass -/

theorem pass_dispatches_of_inBuffer {es : List (Int × Bool)} {s₀ : State}
    (hp : Polled (es.map Prod.fst) s₀) (nready : Int) :
    (∃ ds : List Int, serviceFds es nready = Prog.each serviceFd ds ∧ ds.Nodup ∧
      ∀ fd ∈ ds, (fd, true) ∈ es) ∧
    ∀ c : Config Op.Res State Unit,
      machine.Strays InBuffer PassOverrun InBuffer ⟨serviceFds es nready, s₀⟩ c →
        DispatchedAt es s₀ c.prog.next c.st := by
  obtain ⟨hds, hpass⟩ := pass_dispatches hp nready
  exact ⟨hds, fun c hc => hpass c (hc.reaches.mono fun _ _ _ _ => trivial)⟩

theorem pass_dispatches_of_inBuffer_accept : ∃ c : Config Op.Res State Unit,
    c.prog.next = some (.read 4) ∧ c.st.commFds = [5, 4] ∧
      ((4, true) ∈ [((3 : Int), true), (4, true)] ∧ 4 ∈ (State.hosting 4 (newSession 4)).commFds) := by
  have hp : Polled ([((3 : Int), true), (4, true)].map Prod.fst) (.hosting 4 (newSession 4)) :=
    ⟨by decide, by decide, by decide⟩
  have hrun : (follow InBuffer ⟨serviceFds [(3, true), (4, true)] 2, .hosting 4 (newSession 4)⟩
      [(.accept, .main (.fd 5)), (.getSession 4, .main .ok)]).map
      (fun c => (c.prog.next, c.st.commFds)) = some (some (.read 4), [5, 4]) := by decide
  obtain ⟨c, hc, he⟩ := Option.map_eq_some_iff.mp hrun
  simp only [Prod.mk.injEq] at he
  have hreach : machine.Strays InBuffer PassOverrun InBuffer
      ⟨serviceFds [(3, true), (4, true)] 2, .hosting 4 (newSession 4)⟩ c :=
    (Machine.reaches_of_follow hc).strays fun _ _ _ hi => ⟨hi, hi⟩
  exact ⟨c, he.1, he.2, ((pass_dispatches_of_inBuffer hp 2).2 c hreach).read 4 he.1⟩

def State.crowding (b : Bytes) : State :=
  { Boot.terminal.state with
    status := .running
    sessions := [reading 6 4000 b, newSession 5, newSession 4]
    numSessions := 3
    fds := [(6, .other), (5, .other), (4, .other)] ++ Boot.terminal.state.fds }

/-- What fills the memory up to the entries of 5 and 4 in the array, and those entries with `POLLIN`. -/
def forged : Bytes := letters 1128 ++ [5, 0, 0, 0, 1, 0, 1, 0] ++ [4, 0, 0, 0, 1, 0, 1, 0]

/-- The session with the descriptor 5 is read, whose entry was not ready. -/
theorem pass_overrun : ¬ ∀ (es : List (Int × Bool)) (s₀ : State) (nready : Int),
    Polled (es.map Prod.fst) s₀ →
      (∃ ds : List Int, serviceFds es nready = Prog.each serviceFd ds ∧ ds.Nodup ∧
        ∀ fd ∈ ds, (fd, true) ∈ es) ∧
      ∀ c : Config Op.Res State Unit,
        machine.Strays InBuffer PassOverrun (fun _ _ _ => True) ⟨serviceFds es nready, s₀⟩ c →
          DispatchedAt es s₀ c.prog.next c.st := by
  intro h
  have hp : Polled ([((3 : Int), false), (6, true), (5, false), (4, true)].map Prod.fst)
      (.crowding (letters 3000)) := ⟨rfl, by decide, by decide⟩
  obtain ⟨k, hbegin, hk⟩ : ∃ k, follow InBuffer
      ⟨serviceFds [(3, false), (6, true), (5, false), (4, true)] 2, .crowding (letters 3000)⟩
      [(.getSession 6, .main .ok)] = some ⟨.act (.read 6) k, .crowding (letters 3000)⟩ ∧
      k .wait = serviceFds [(5, false), (4, true)] 1 := ⟨_, by with_unfolding_all rfl, rfl⟩
  obtain ⟨k', hnext⟩ : ∃ k', follow InBuffer
      ⟨serviceFds [(5, true), (4, true)] 1, .crowding (letters 3000 ++ forged)⟩
      [(.getSession 5, .main .ok)] = some ⟨.act (.read 5) k', .crowding (letters 3000 ++ forged)⟩ :=
    ⟨_, by with_unfolding_all rfl⟩
  have hlen := length_letters 3000
  have hforged : forged.length = 1144 := by
    rw [forged, List.length_append, List.length_append, length_letters]
    rfl
  have hread := body_read (.crowding (letters 3000)) forged (k := k) rfl (by decide) rfl
    (by omega) (by omega)
  rw [hk] at hread
  have hover : ¬ InBuffer (some (.read 6)) (.crowding (letters 3000)) (sending forged) := by
    rw [inBuffer_body (s := .crowding (letters 3000)) rfl, hlen, hforged]
    decide
  have hpass : machine.Strays InBuffer PassOverrun (fun _ _ _ => True)
      ⟨serviceFds [(3, false), (6, true), (5, false), (4, true)] 2, .crowding (letters 3000)⟩
      ⟨.act (.read 6) k, .crowding (letters 3000)⟩ :=
    (Machine.reaches_of_follow hbegin).strays fun _ _ _ hi => ⟨trivial, hi⟩
  have hfault : machine.Strays InBuffer PassOverrun (fun _ _ _ => True)
      ⟨serviceFds [(3, false), (6, true), (5, false), (4, true)] 2, .crowding (letters 3000)⟩
      ⟨serviceFds [(5, true), (4, true)] 1, .crowding (letters 3000 ++ forged)⟩ :=
    hpass.fault (sending forged) trivial hover ⟨_, hread, .ret (), [(5, false), (4, true)],
      [(5, true), (4, true)], 1, rfl, rfl, rfl, rfl, rfl, rfl, rfl⟩
  have hreach := hfault.trans ((Machine.reaches_of_follow hnext).strays fun _ _ _ hi => ⟨trivial, hi⟩)
  exact absurd (((h _ _ 2 hp).2 _ hreach).read 5 rfl).1 (by decide)

end TeamspeakWebserver.Manager
