import TeamspeakWebserver.Sessions.Handler

/-! `close_session_handler` of `man/session.c`, which closes the session its second cursor is at. -/

namespace TeamspeakWebserver.Sessions

open Linked

/-- `undefined`: `close_session` is called with the list head, or with a session that is not there. -/
inductive Teardown (α : Type*) where
  | finished (s : SessionHandler α) (closed : List α)
  | undefined

namespace SessionHandler

variable {α : Type*} [DecidableEq α]

/-- The loop from a state of its two cursors on. The node of a session that has been freed holds what
`stale` says, and `closed` has the sessions closed so far, the latest first. -/
def closeEach (stale : List α → α) : ℕ → SessionHandler α → α → α → List α → Option (Teardown α)
  | 0, _, _, _, _ => none
  | n + 1, sh, toFree, s, closed =>
    if toFree = sh.sessions then some (.finished sh closed)
    else if s ∈ sh.allocated then
      closeEach stale n (sh.closeSession s) s (stale (s :: closed)) (s :: closed)
    else some .undefined

def closeSessionHandler (stale : List α → α) (sh : SessionHandler α) (n : ℕ) : Option (Teardown α) :=
  let toFree := sh.links.next sh.sessions
  closeEach stale n sh toFree (sh.links.next toFree) []

def TornDown (stale : List α → α) (sh : SessionHandler α) (xs : List α) : Prop :=
  ∃ n sh' closed, sh.closeSessionHandler stale n = some (.finished sh' closed) ∧ closed.Perm xs ∧
    sh'.links.next sh'.sessions = sh'.sessions ∧ sh'.numSessions = 0

section CloseEach

variable {sh : SessionHandler α} {toFree s : α} {closed xs : List α} {stale : List α → α}

/-- The loop is left at the list head, which is never closed. -/
lemma closeEach_ne_finished (hhead : sh.sessions ∉ sh.allocated) (hne : toFree ≠ sh.sessions) (n : ℕ)
    (sh' : SessionHandler α) (closed' : List α) :
    closeEach stale n sh toFree s closed ≠ some (.finished sh' closed') := by
  induction n generalizing sh toFree s closed with
  | zero => exact Option.some_ne_none _ |>.symm
  | succ n ih =>
    rw [closeEach, if_neg hne]
    split
    case isTrue hs =>
      apply ih
      · exact fun hm => hhead (Finset.mem_of_mem_erase hm)
      · exact fun he : s = sh.sessions => hhead (he ▸ hs)
    case isFalse =>
      intro he
      cases he

lemma closeEach_undefined (hhead : sh.sessions ∉ sh.allocated) (hne : toFree ≠ sh.sessions) {n : ℕ}
    (hn : sh.allocated.card < n) : closeEach stale n sh toFree s closed = some .undefined := by
  induction n generalizing sh toFree s closed with
  | zero => exact absurd hn (Nat.not_lt_zero _)
  | succ n ih =>
    rw [closeEach, if_neg hne]
    split
    case isTrue hs =>
      have hcard : (sh.allocated.erase s).card < sh.allocated.card := Finset.card_erase_lt_of_mem hs
      apply ih
      · exact fun hm => hhead (Finset.mem_of_mem_erase hm)
      · exact fun he : s = sh.sessions => hhead (he ▸ hs)
      · exact hcard.trans_le (Nat.lt_succ_iff.mp hn)
    case isFalse => rfl

omit [DecidableEq α] in
lemma Tracked.sessions_notMem (h : sh.Tracked xs) : sh.sessions ∉ sh.allocated :=
  fun hm => (List.nodup_cons.mp h.ring.nodup).1 ((h.allocated _).mp hm)

omit [DecidableEq α] in
lemma Tracked.next_sessions_eq_iff (h : sh.Tracked xs) :
    sh.links.next sh.sessions = sh.sessions ↔ xs = [] := by
  obtain ⟨hnodup, hchain⟩ := h.ring
  cases xs with
  | nil => exact iff_of_true hchain.1 rfl
  | cons x xs =>
    rw [hchain.1.1]
    refine iff_of_false (fun he => ?_) (List.cons_ne_nil x xs)
    exact (List.nodup_cons.mp hnodup).1 (he ▸ List.mem_cons_self)

end CloseEach

theorem tornDown_iff_nil (stale : List α → α) {sh : SessionHandler α} {xs : List α}
    (h : sh.Tracked xs) : sh.TornDown stale xs ↔ xs = [] := by
  constructor
  · rintro ⟨n, sh', closed, hrun, -⟩
    by_contra hne
    exact closeEach_ne_finished h.sessions_notMem (mt h.next_sessions_eq_iff.mp hne) n sh' closed hrun
  · intro hnil
    have hnext := h.next_sessions_eq_iff.mpr hnil
    refine ⟨1, sh, [], ?_, ?_, hnext, ?_⟩
    · rw [closeSessionHandler, hnext, closeEach, if_pos rfl]
    · rw [hnil]
    · apply UInt32.toNat_inj.mp
      rw [h.count, hnil]
      rfl

theorem closeSessionHandler_undefined (stale : List α → α) {sh : SessionHandler α} {xs : List α}
    (h : sh.Tracked xs) (hne : xs ≠ []) {n : ℕ} (hn : sh.allocated.card < n) :
    sh.closeSessionHandler stale n = some .undefined :=
  closeEach_undefined h.sessions_notMem (mt h.next_sessions_eq_iff.mp hne) hn

lemma tracked_empty : empty.Tracked [] :=
  tracked_initSessionHandler 0 ⟨id, id⟩ (fun _ => newSession 0) ∅

lemma tracked_single : (empty.startNewSession 1 5).Tracked [1] :=
  tracked_empty.startNewSession (by decide) (by decide) (Finset.mem_Ico.mpr (by decide)) (by decide)

theorem tornDown_iff_nil_none : empty.TornDown (fun _ => 0) [] :=
  (tornDown_iff_nil (fun _ => 0) tracked_empty).mpr rfl

/-- The second cursor starts at the list head. -/
theorem head_closed : ¬ ∀ (α : Type) [DecidableEq α] (stale : List α → α) (sh : SessionHandler α)
    (xs : List α), sh.Tracked xs → sh.TornDown stale xs := by
  intro h
  obtain ⟨n, sh', closed, hrun, -⟩ := h ℕ (fun _ => 0) _ [1] tracked_single
  cases n with
  | zero => cases hrun
  | succ n =>
    have hundefined : (empty.startNewSession 1 5).closeSessionHandler (fun _ => 0) (n + 1) =
        some .undefined := rfl
    rw [hundefined] at hrun
    cases hrun

end SessionHandler

end TeamspeakWebserver.Sessions
