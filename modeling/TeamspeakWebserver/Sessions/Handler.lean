import Mathlib.Data.Int.Interval
import TeamspeakWebserver.Labelled.Runs
import TeamspeakWebserver.Linked.Ring
import TeamspeakWebserver.Sessions.Bounds

/-! `man/session.c`: the session handler, the list of its sessions and the descriptors they hold. -/

namespace TeamspeakWebserver.Sessions

open Labelled Linked

/-- `struct session_handler` with its list head at the address `sessions`, the memory the sessions are
in, and the descriptors open in the process. -/
structure SessionHandler (α : Type*) where
  sessions : α
  links : Links α
  session : α → Session
  allocated : Finset α
  numSessions : UInt32
  sessionsDirty : Bool
  fds : Finset Int

/-- `connect` has what `malloc` and `accept` return. `damaged` is what the memory holds after a store
behind the end of `buf`, and `elsewhere` is what the rest of the manager does to its descriptors. -/
inductive SessionStep (α : Type*) where
  | connect (new : Option α) (commFd : Option Int)
  | process (a : α) (r r' : Read) (damaged : SessionHandler α)
  | elsewhere (fds : Finset Int)
  | clean

namespace Session

/-- `__process_session`: the body is read in the same call as a header that announces one. -/
def process (s : Session) (r r' : Read) : Session × Outcome :=
  match s.onRead r with
  | (s, .body) => s.onRead r'
  | res => res

def onReads (p : Session → Read → Bool) (s : Session) (r r' : Read) : Bool :=
  p s r && ((s.onRead r).2 != .body || p (s.onRead r).1 r')

def answers (s : Session) (r : Read) : Bool :=
  r.stale.length = 4 ∧ r.got.all fun got => 1 ≤ got.length ∧ got.length ≤ s.request

/-- The byte 0 behind what a body read stores falls into `buf`. -/
def storesInside (s : Session) (r : Read) : Bool :=
  s.cmdLen = 0 ∨ r.got.all fun got => (s.store got).buf.length < maxCmdLen

lemma process_commFd (s : Session) (r r' : Read) : (s.process r r').1.commFd = s.commFd := by
  unfold process
  split
  case h_1 s' he =>
    rw [onRead_commFd, ← onRead_commFd s r, he]
  case h_2 => exact onRead_commFd s r

end Session

namespace SessionHandler

variable {α : Type*} [DecidableEq α]

def initSessionHandler (sessions : α) (links : Links α) (session : α → Session)
    (fds : Finset Int) : SessionHandler α where
  sessions
  links := links.init sessions
  session
  allocated := ∅
  numSessions := 0
  sessionsDirty := false
  fds

def startNewSession (s : SessionHandler α) (new : α) (commFd : Int) : SessionHandler α :=
  { s with
    links := s.links.add new s.sessions
    session := Function.update s.session new (newSession commFd)
    allocated := insert new s.allocated
    numSessions := s.numSessions + 1
    sessionsDirty := true
    fds := insert commFd s.fds }

def closeSession (s : SessionHandler α) (a : α) : SessionHandler α :=
  { s with
    links := s.links.del a
    allocated := s.allocated.erase a
    numSessions := s.numSessions - 1
    sessionsDirty := true
    fds := s.fds.erase (s.session a).commFd }

def setSession (s : SessionHandler α) (a : α) (t : Session) : SessionHandler α :=
  { s with session := Function.update s.session a t }

def processSession (s : SessionHandler α) (a : α) (r r' : Read) : SessionHandler α :=
  let res := (s.session a).process r r'
  if res.2 = .close then (s.setSession a res.1).closeSession a else s.setSession a res.1

/-- `none` is a walk that is not over after `n` nodes. -/
def getSessionByFd (s : SessionHandler α) (fd : Int) (n : ℕ) : Option (Option α) :=
  s.links.find (fun a => (s.session a).commFd = fd) s.sessions n (s.links.next s.sessions)

def step (s : SessionHandler α) : SessionStep α → Option (SessionHandler α)
  | .connect none _ => some s
  | .connect (some _) none => some s
  | .connect (some new) (some commFd) =>
    if new ≠ s.sessions ∧ new ∉ s.allocated ∧ 0 ≤ commFd ∧ commFd < 2 ^ 31 ∧ commFd ∉ s.fds then
      some (s.startNewSession new commFd)
    else none
  | .process a r r' damaged =>
    if a ∈ s.allocated ∧ (s.session a).onReads Session.answers r r' = true then
      some (if (s.session a).onReads Session.storesInside r r' then s.processSession a r r'
        else damaged)
    else none
  | .elsewhere fds => if ∀ a ∈ s.allocated, (s.session a).commFd ∈ fds then some { s with fds } else none
  | .clean => some { s with sessionsDirty := false }

def inBuffer (s : SessionHandler α) : SessionStep α → Bool
  | .process a r r' _ => (s.session a).onReads Session.storesInside r r'
  | _ => true

/-- The list, the counter, the memory and the descriptors are in step. -/
structure Tracked (s : SessionHandler α) (xs : List α) : Prop where
  ring : Ring s.links s.sessions xs
  allocated : ∀ a, a ∈ s.allocated ↔ a ∈ xs
  count : s.numSessions.toNat = xs.length
  distinct : (xs.map fun a => (s.session a).commFd).Nodup
  opened : ∀ a ∈ xs, (s.session a).commFd ∈ s.fds
  range : ∀ a ∈ xs, (s.session a).commFd ∈ Finset.Ico (0 : Int) (2 ^ 31)

def view (s : SessionHandler α) (xs : List α) : List Session := xs.map s.session

/-- What the manager's own model of the sessions, which has only the list, makes of a step. -/
def onList (s : SessionHandler α) (ts : List Session) : SessionStep α → List Session
  | .connect (some _) (some commFd) => newSession commFd :: ts
  | .process a r r' _ =>
    let res := (s.session a).process r r'
    let read := ts.map fun u => if u.commFd = (s.session a).commFd then res.1 else u
    if res.2 = .close then read.eraseP fun u => u.commFd = (s.session a).commFd else read
  | _ => ts

structure Follows (s : SessionHandler α) (xs xs' : List α) (ts : List Session) : Prop where
  tracked : s.Tracked xs'
  dirty : xs' ≠ xs → s.sessionsDirty = true
  view : s.view xs' = ts

def Findable (s : SessionHandler α) (xs : List α) : Prop :=
  ∀ fd n, s.numSessions.toNat < n → ∃ found, s.getSessionByFd fd n = some found ∧
    ∀ a, found = some a ↔ a ∈ xs ∧ (s.session a).commFd = fd

section Tracked

variable {s s' : SessionHandler α} {xs xs' : List α} {a new : α} {commFd : Int}

omit [DecidableEq α] in
lemma length_le_of_distinct {f : α → Int} (hn : (xs.map f).Nodup)
    (hr : ∀ a ∈ xs, f a ∈ Finset.Ico (0 : Int) (2 ^ 31)) : xs.length ≤ 2 ^ 31 := by
  have hsub : (xs.map f).toFinset ⊆ Finset.Ico 0 (2 ^ 31) := by
    intro fd hfd
    obtain ⟨a, ha, rfl⟩ := List.mem_map.mp (List.mem_toFinset.mp hfd)
    exact hr a ha
  have hcard := Finset.card_le_card hsub
  rw [List.toFinset_card_of_nodup hn, List.length_map, Int.card_Ico] at hcard
  exact hcard.trans (by decide)

omit [DecidableEq α] in
lemma Tracked.unique (h : s.Tracked xs) (h' : s.Tracked xs') : xs = xs' :=
  h.ring.unique h'.ring

lemma Tracked.findable (h : s.Tracked xs) : s.Findable xs := by
  intro fd n hn
  rw [h.count] at hn
  refine ⟨_, h.ring.find _ hn, fun a => ⟨fun ha => ?_, fun ⟨ha, hfd⟩ => ?_⟩⟩
  · exact ⟨List.mem_of_find?_eq_some ha, by simpa using List.find?_some ha⟩
  · cases hf : xs.find? (fun a => (s.session a).commFd = fd) with
    | none =>
      have := List.find?_eq_none.mp hf a ha
      simp only [hfd, decide_true, not_true] at this
    | some b =>
      have hb : (s.session b).commFd = fd := by simpa using List.find?_some hf
      have hinj := List.inj_on_of_nodup_map h.distinct
      rw [hinj (List.mem_of_find?_eq_some hf) ha (hb.trans hfd.symm)]

lemma tracked_initSessionHandler (sessions : α) (links : Links α) (session : α → Session)
    (fds : Finset Int) : (initSessionHandler sessions links session fds).Tracked [] where
  ring := Ring.init links sessions
  allocated a := by simp [initSessionHandler]
  count := rfl
  distinct := List.nodup_nil
  opened a ha := absurd ha List.not_mem_nil
  range a ha := absurd ha List.not_mem_nil

lemma startNewSession_session : (s.startNewSession new commFd).session =
    Function.update s.session new (newSession commFd) :=
  rfl

lemma setSession_session {t : Session} :
    (s.setSession a t).session = Function.update s.session a t :=
  rfl

lemma Tracked.startNewSession (h : s.Tracked xs) (hhead : new ≠ s.sessions) (hnew : new ∉ s.allocated)
    (hrange : commFd ∈ Finset.Ico (0 : Int) (2 ^ 31)) (hfd : commFd ∉ s.fds) :
    (s.startNewSession new commFd).Tracked (new :: xs) := by
  have hxs : new ∉ xs := mt (h.allocated new).mpr hnew
  have hself : ((s.startNewSession new commFd).session new).commFd = commFd := by
    rw [startNewSession_session, Function.update_self, newSession]
  have hold (a : α) (ha : a ∈ xs) :
      ((s.startNewSession new commFd).session a).commFd = (s.session a).commFd := by
    rw [startNewSession_session, Function.update_of_ne]
    rintro rfl
    exact hxs ha
  have hnodup : ((new :: xs).map fun a => ((s.startNewSession new commFd).session a).commFd).Nodup := by
    rw [List.map_cons, List.nodup_cons, hself, List.map_congr_left hold]
    refine ⟨fun hm => ?_, h.distinct⟩
    obtain ⟨a, ha, rfl⟩ := List.mem_map.mp hm
    exact hfd (h.opened a ha)
  have hrange' : ∀ a ∈ new :: xs,
      ((s.startNewSession new commFd).session a).commFd ∈ Finset.Ico (0 : Int) (2 ^ 31) := by
    intro a ha
    rcases List.mem_cons.mp ha with rfl | ha
    · rw [hself]
      exact hrange
    · rw [hold a ha]
      exact h.range a ha
  have hlen := length_le_of_distinct hnodup hrange'
  refine ⟨h.ring.add ?_, fun a => ?_, ?_, hnodup, fun a ha => ?_, hrange'⟩
  · exact fun hm => (List.mem_cons.mp hm).elim hhead hxs
  · rw [SessionHandler.startNewSession, Finset.mem_insert, List.mem_cons, h.allocated]
  · rw [List.length_cons] at hlen ⊢
    have hone : (1 : UInt32).toNat = 1 := rfl
    rw [SessionHandler.startNewSession, UInt32.toNat_add, h.count, hone]
    exact Nat.mod_eq_of_lt (by omega)
  · rcases List.mem_cons.mp ha with rfl | ha
    · rw [hself]
      exact Finset.mem_insert_self _ _
    · rw [hold a ha]
      exact Finset.mem_insert_of_mem (h.opened a ha)

omit [DecidableEq α] in
lemma Tracked.congr (h : s.Tracked xs) (hs : s'.sessions = s.sessions) (hl : s'.links = s.links)
    (ha : s'.allocated = s.allocated) (hn : s'.numSessions = s.numSessions)
    (hfd : ∀ a, (s'.session a).commFd = (s.session a).commFd)
    (ho : ∀ a ∈ xs, (s.session a).commFd ∈ s'.fds) : s'.Tracked xs := by
  refine ⟨?_, fun a => ?_, ?_, ?_, fun a hm => ?_, fun a hm => ?_⟩
  · rw [hl, hs]
    exact h.ring
  · rw [ha]
    exact h.allocated a
  · rw [hn]
    exact h.count
  · simp only [hfd]
    exact h.distinct
  · rw [hfd]
    exact ho a hm
  · rw [hfd]
    exact h.range a hm

lemma Tracked.setSession (h : s.Tracked xs) {t : Session} (ht : t.commFd = (s.session a).commFd) :
    (s.setSession a t).Tracked xs := by
  refine h.congr rfl rfl rfl rfl (fun b => ?_) h.opened
  rw [setSession_session, Function.update_apply]
  split
  case isTrue hb => rw [ht, hb]
  case isFalse => rfl

lemma Tracked.closeSession (h : s.Tracked xs) (ha : a ∈ s.allocated) :
    (s.closeSession a).Tracked (xs.erase a) := by
  have hxs : a ∈ xs := (h.allocated a).mp ha
  have hnodup : xs.Nodup := h.distinct.of_map
  have hlen : 0 < xs.length := List.length_pos_of_mem hxs
  refine ⟨h.ring.del hxs, fun b => ?_, ?_, ?_, fun b hb => ?_, fun b hb => ?_⟩
  · rw [SessionHandler.closeSession, Finset.mem_erase, h.allocated, hnodup.mem_erase_iff]
  · have hone : (1 : UInt32) ≤ s.numSessions := by
      rw [UInt32.le_iff_toNat_le, h.count]
      exact hlen
    rw [List.length_erase_of_mem hxs, ← h.count]
    exact UInt32.toNat_sub_of_le _ _ hone
  · exact h.distinct.sublist (List.erase_sublist.map _)
  · rw [hnodup.mem_erase_iff] at hb
    refine Finset.mem_erase.mpr ⟨fun he => ?_, h.opened b hb.2⟩
    exact hb.1 (List.inj_on_of_nodup_map h.distinct hb.2 hxs he)
  · exact h.range b (List.mem_of_mem_erase hb)

lemma view_startNewSession (hnew : new ∉ xs) (commFd : Int) :
    (s.startNewSession new commFd).view (new :: xs) = newSession commFd :: s.view xs := by
  rw [view, view, List.map_cons, startNewSession_session, Function.update_self]
  congr 1
  apply List.map_congr_left
  intro b hb
  apply Function.update_of_ne
  rintro rfl
  exact hnew hb

omit [DecidableEq α] in
lemma Tracked.commFd_eq_iff (h : s.Tracked xs) (ha : a ∈ xs) {b : α} (hb : b ∈ xs) :
    (s.session b).commFd = (s.session a).commFd ↔ b = a :=
  ⟨List.inj_on_of_nodup_map h.distinct hb ha, fun he => by rw [he]⟩

lemma Tracked.view_setSession (h : s.Tracked xs) (ha : a ∈ xs) (t : Session) :
    (s.setSession a t).view xs =
      (s.view xs).map fun u => if u.commFd = (s.session a).commFd then t else u := by
  rw [view, view, List.map_map]
  apply List.map_congr_left
  intro b hb
  rw [setSession_session, Function.update_apply, Function.comp_apply]
  exact if_congr (h.commFd_eq_iff ha hb).symm rfl rfl

omit [DecidableEq α] in
lemma eraseP_congr {p q : α → Bool} (h : ∀ b ∈ xs, p b = q b) : xs.eraseP p = xs.eraseP q := by
  induction xs with
  | nil => rfl
  | cons x xs ih =>
    rw [List.eraseP_cons, List.eraseP_cons, h x List.mem_cons_self,
      ih fun b hb => h b (List.mem_cons_of_mem x hb)]

lemma Tracked.view_closeSession (h : s.Tracked xs) (ha : a ∈ xs) :
    (s.closeSession a).view (xs.erase a) =
      (s.view xs).eraseP fun u => u.commFd = (s.session a).commFd := by
  rw [view, view, List.eraseP_map, List.erase_eq_eraseP']
  congr 1
  apply eraseP_congr
  intro b hb
  rw [Function.comp_apply, beq_eq_decide]
  exact decide_eq_decide.mpr (h.commFd_eq_iff ha hb).symm

omit [DecidableEq α] in
lemma Tracked.follows {ts : List Session} (h : s.Tracked xs) (hv : s.view xs = ts) :
    s.Follows xs xs ts where
  tracked := h
  dirty hne := absurd rfl hne
  view := hv

lemma Tracked.closeSession_follows (h : s.Tracked xs) (ha : a ∈ xs) :
    (s.closeSession a).Follows xs (xs.erase a)
      ((s.view xs).eraseP fun u => u.commFd = (s.session a).commFd) where
  tracked := h.closeSession ((h.allocated a).mpr ha)
  dirty _ := rfl
  view := h.view_closeSession ha

lemma Tracked.processSession (h : s.Tracked xs) (ha : a ∈ xs) (r r' : Read)
    (damaged : SessionHandler α) : ∃ xs', (s.processSession a r r').Follows xs xs'
      (s.onList (s.view xs) (.process a r r' damaged)) := by
  have hfd := Session.process_commFd (s.session a) r r'
  have hset := h.setSession hfd
  have hsession : ((s.setSession a ((s.session a).process r r').1).session a).commFd =
      (s.session a).commFd := by
    rw [setSession_session, Function.update_self, hfd]
  rw [SessionHandler.processSession, onList, ← h.view_setSession ha]
  split
  · have hclose := hset.closeSession_follows ha
    rw [hsession] at hclose
    exact ⟨xs.erase a, hclose⟩
  · exact ⟨xs, hset.follows rfl⟩

lemma Tracked.step (h : s.Tracked xs) {l : SessionStep α} (hok : s.inBuffer l = true)
    (hs : s.step l = some s') : ∃ xs', s'.Follows xs xs' (s.onList (s.view xs) l) := by
  cases l with
  | connect new commFd =>
    cases new with
    | none =>
      obtain rfl := Option.some.inj hs
      exact ⟨xs, h.follows rfl⟩
    | some new =>
      cases commFd with
      | none =>
        obtain rfl := Option.some.inj hs
        exact ⟨xs, h.follows rfl⟩
      | some commFd =>
        rw [SessionHandler.step] at hs
        split at hs
        case isTrue hg =>
          obtain ⟨hhead, hnew, hpos, hmax, hfd⟩ := hg
          obtain rfl := Option.some.inj hs
          refine ⟨new :: xs, h.startNewSession hhead hnew ?_ hfd, fun _ => rfl, ?_⟩
          · exact Finset.mem_Ico.mpr ⟨hpos, hmax⟩
          · exact view_startNewSession (mt (h.allocated new).mpr hnew) commFd
        case isFalse => cases hs
  | process a r r' damaged =>
    rw [SessionHandler.step] at hs
    split at hs
    case isTrue hg =>
      rw [inBuffer] at hok
      rw [if_pos hok] at hs
      obtain rfl := Option.some.inj hs
      exact h.processSession ((h.allocated a).mp hg.1) r r' damaged
    case isFalse => cases hs
  | elsewhere fds =>
    rw [SessionHandler.step] at hs
    split at hs
    case isTrue hg =>
      obtain rfl := Option.some.inj hs
      have ho (a : α) (ha : a ∈ xs) : (s.session a).commFd ∈ fds := hg a ((h.allocated a).mpr ha)
      have hnext : Tracked { s with fds } xs := h.congr rfl rfl rfl rfl (fun _ => rfl) ho
      exact ⟨xs, hnext.follows rfl⟩
    case isFalse => cases hs
  | clean =>
    obtain rfl := Option.some.inj hs
    have hnext : Tracked { s with sessionsDirty := false } xs :=
      h.congr rfl rfl rfl rfl (fun _ => rfl) h.opened
    exact ⟨xs, hnext.follows rfl⟩

end Tracked

theorem sessions_tracked_of_inBuffer {sessions : α} {links : Links α} {session : α → Session}
    {fds : Finset Int} {s : SessionHandler α}
    (h : Reaches step inBuffer (initSessionHandler sessions links session fds) s) :
    ∃ xs, s.Tracked xs ∧ s.Findable xs ∧ ∀ l s' xs', s.inBuffer l = true → s.step l = some s' →
      s'.Tracked xs' → xs' ≠ xs → s'.sessionsDirty = true := by
  have hinv : ∃ xs, s.Tracked xs := by
    refine h.invariant (I := fun t => ∃ xs, t.Tracked xs)
      ⟨[], tracked_initSessionHandler sessions links session fds⟩ ?_
    intro t l t' ⟨xs, ht⟩ hok hs
    obtain ⟨xs', hnext⟩ := ht.step hok hs
    exact ⟨xs', hnext.tracked⟩
  obtain ⟨xs, ht⟩ := hinv
  refine ⟨xs, ht, ht.findable, fun l s' ys hok hs hys hne => ?_⟩
  obtain ⟨xs', hnext⟩ := ht.step hok hs
  apply hnext.dirty
  rw [hnext.tracked.unique hys]
  exact hne

section Runs

def empty : SessionHandler ℕ :=
  initSessionHandler 0 ⟨id, id⟩ (fun _ => newSession 0) ∅

def reused : List (SessionStep ℕ) :=
  [.connect (some 1) (some 5), .connect (some 2) (some 6), .connect (some 3) none, .clean,
    .process 1 ⟨none, [0, 0, 0, 0]⟩ ⟨none, [0, 0, 0, 0]⟩ empty, .connect (some 3) (some 5)]

theorem sessions_tracked_of_inBuffer_reused : ∃ s : SessionHandler ℕ,
    s.getSessionByFd 5 3 = some (some 3) ∧ s.numSessions = 2 ∧ ∃ xs, s.Tracked xs ∧ s.Findable xs := by
  have hrun : (run step inBuffer empty reused).map (fun s => (s.getSessionByFd 5 3, s.numSessions)) =
      some (some (some 3), 2) := by
    decide
  obtain ⟨s, hs, he⟩ := Option.map_eq_some_iff.mp hrun
  obtain ⟨xs, ht, hf, -⟩ := sessions_tracked_of_inBuffer (reaches_of_run hs)
  exact ⟨s, congrArg Prod.fst he, congrArg Prod.snd he, xs, ht, hf⟩

def crowded : SessionHandler ℕ := (empty.startNewSession 1 5).startNewSession 2 6

def announced : Read := ⟨some [0, 0, 15, 160], [0, 0, 0, 0]⟩

def begun : SessionHandler ℕ := crowded.setSession 1 (reading 5 4000 (List.replicate 3000 65))

/-- The session at 2 lies behind that at 1, and its list node is overwritten. -/
def smashed : SessionHandler ℕ :=
  { begun with links := { begun.links with next := Function.update begun.links.next 2 9 } }

lemma answers_chunk {t : Session} {n : ℕ} (h : 1 ≤ n ∧ n ≤ t.request) :
    t.answers (chunk n) = true := by
  have hgot : 1 ≤ (List.replicate n (65 : UInt8)).length ∧
      (List.replicate n (65 : UInt8)).length ≤ t.request := by
    rw [List.length_replicate]
    exact h
  exact decide_eq_true ⟨rfl, decide_eq_true hgot⟩

lemma storesInside_chunk {t : Session} (ht : t.cmdLen ≠ 0) (n : ℕ) :
    t.storesInside (chunk n) = decide (t.buf.length + n < maxCmdLen) := by
  simp only [Session.storesInside, ht, false_or, chunk, Option.all_some, Session.store,
    List.length_append, List.length_replicate, decide_eq_true_eq]

lemma crowded_begins : crowded.step (.process 1 announced (chunk 3000) empty) = some begun := by
  have hsession : crowded.session 1 = newSession 5 := rfl
  have hopen : (reading 5 4000 []).cmdLen ≠ 0 := by decide
  have hproc : (newSession 5).process announced (chunk 3000) =
      (reading 5 4000 (List.replicate 3000 65), .wait) := by
    rw [Session.process, announced, onRead_announced]
    exact onRead_chunk 5
  have hanswers : (newSession 5).onReads Session.answers announced (chunk 3000) = true := by
    rw [Session.onReads, announced, onRead_announced, answers_chunk]
    · decide
    · rw [Session.request, if_neg hopen]
      decide
  have hinside : (newSession 5).onReads Session.storesInside announced (chunk 3000) = true := by
    rw [Session.onReads, announced, onRead_announced, storesInside_chunk hopen]
    decide
  rw [step, hsession, if_pos ⟨by decide, hanswers⟩, if_pos hinside, processSession, hsession, hproc]
  rfl

lemma begun_overruns : begun.step (.process 1 (chunk 3000) (chunk 3000) smashed) = some smashed := by
  have hsession : begun.session 1 = reading 5 4000 (List.replicate 3000 65) := rfl
  have hopen : (reading 5 4000 (List.replicate 3000 65)).cmdLen ≠ 0 := by
    rw [reading]
    decide
  have hwait : ((reading 5 4000 (List.replicate 3000 65)).onRead (chunk 3000)).2 = .wait := by
    rw [chunk, onRead_reading 5 (by decide), List.length_replicate, if_neg (by decide)]
  have hanswers : (reading 5 4000 (List.replicate 3000 65)).onReads Session.answers (chunk 3000)
      (chunk 3000) = true := by
    rw [Session.onReads, hwait, answers_chunk]
    · decide
    · rw [Session.request, if_neg hopen]
      decide
  have hoverrun : (reading 5 4000 (List.replicate 3000 65)).onReads Session.storesInside (chunk 3000)
      (chunk 3000) = false := by
    rw [Session.onReads, storesInside_chunk hopen, reading, List.length_replicate]
    decide
  rw [step, hsession, if_pos ⟨by decide, hanswers⟩, hoverrun]
  rfl

lemma smashed_not_ring (xs : List ℕ) : ¬ Ring smashed.links smashed.sessions xs := by
  rintro ⟨-, hchain⟩
  cases xs with
  | nil => exact absurd hchain.1 (by decide)
  | cons x xs =>
    obtain rfl : 2 = x := hchain.1.1
    cases xs with
    | nil => exact absurd hchain.2.1 (by decide)
    | cons y ys =>
      obtain rfl : 9 = y := hchain.2.1.1
      exact absurd hchain.2.1.2 (by decide)

theorem overrun_unlinks : ¬ ∀ (α : Type) [DecidableEq α] (sessions : α) (links : Links α)
    (session : α → Session) (fds : Finset Int) (s : SessionHandler α),
      Reaches step free (initSessionHandler sessions links session fds) s → ∃ xs, s.Tracked xs := by
  intro h
  have hreach : Reaches step free empty smashed := by
    have h₁ : empty.step (.connect (some 1) (some 5)) = some (empty.startNewSession 1 5) := by
      rw [step, if_pos (by decide)]
    have h₂ : (empty.startNewSession 1 5).step (.connect (some 2) (some 6)) = some crowded := by
      rw [step, if_pos (by decide), crowded]
    exact (((Relation.ReflTransGen.single ⟨_, rfl, h₁⟩).tail ⟨_, rfl, h₂⟩).tail
      ⟨_, rfl, crowded_begins⟩).tail ⟨_, rfl, begun_overruns⟩
  obtain ⟨xs, ht⟩ := h ℕ 0 ⟨id, id⟩ (fun _ => newSession 0) ∅ smashed hreach
  exact smashed_not_ring xs ht.ring

end Runs

end SessionHandler

end TeamspeakWebserver.Sessions
