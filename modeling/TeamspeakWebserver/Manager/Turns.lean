import TeamspeakWebserver.Interruptible.Sequencing
import TeamspeakWebserver.Manager.Progress

/-! One turn of the main loop comes to its end, and so does the manager once it has been stopped. -/

namespace TeamspeakWebserver.Sessions

open Text

structure Session.Counted (t : Session) : Prop where
  announced : t.cmdLen < 2 ^ 32
  empty : t.cmdLen = 0 → t.buf = []
  counted : t.buf.length ≤ t.bytesRead

lemma ntohl_lt (b : Bytes) : ntohl b < 2 ^ 32 := by
  unfold ntohl
  split
  case h_1 a b c d =>
    have ha := a.toNat_lt
    have hb := b.toNat_lt
    have hc := c.toNat_lt
    have hd := d.toNat_lt
    omega
  case h_2 => decide

lemma newSession_counted (fd : Int) : (newSession fd).Counted :=
  ⟨by simp [newSession], fun _ => rfl, Nat.zero_le _⟩

namespace Session.Counted

variable {t : Session}

lemma readHeader (h : t.Counted) (h0 : t.cmdLen = 0) (r : Read) : (t.readHeader r).1.Counted := by
  have hbuf := h.empty h0
  unfold Session.readHeader
  split
  · exact h
  · dsimp only
    split
    · exact ⟨ntohl_lt _, fun _ => hbuf, h.counted⟩
    · exact ⟨ntohl_lt _, fun _ => hbuf, by simp [hbuf]⟩

lemma store (h : t.Counted) (got : Bytes) : (t.store got).buf.length ≤ (t.store got).bytesRead := by
  have := h.counted
  simp only [Session.store, List.length_append]
  omega

lemma onRead (h : t.Counted) (r : Read) : (t.onRead r).1.Counted := by
  unfold Session.onRead
  split
  case isTrue h0 => exact h.readHeader h0 r
  case isFalse hn =>
    unfold Session.readBody
    split
    · exact h
    case h_2 got _ =>
      dsimp only
      split
      · exact ⟨by simp [Session.processCommand], fun _ => rfl, Nat.zero_le _⟩
      · exact ⟨h.announced, fun h0 => absurd h0 hn, h.store got⟩

lemma command (h : t.Counted) {r : Read} {input : Bytes} (ho : (t.onRead r).2 = .command input) :
    input.length < 2 ^ 32 := by
  have hle := length_cstring_le
  unfold Session.onRead Session.readHeader Session.readBody at ho
  split at ho
  · split at ho
    · cases ho
    · dsimp only at ho
      split at ho
      · cases ho
      · dsimp only at ho
        split at ho <;> cases ho
  · split at ho
    · cases ho
    case h_2 got _ =>
      dsimp only at ho
      split at ho
      case isTrue hb =>
        cases ho
        have hs := h.store got
        have ha : (t.store got).cmdLen < 2 ^ 32 := h.announced
        exact (hle _).trans_lt (by omega)
      case isFalse => cases ho

end Session.Counted

end TeamspeakWebserver.Sessions

namespace TeamspeakWebserver.Manager

open Interruptible Prog Rules Sessions

/-! ### The sessions during a run -/

def SessionsCounted (s : State) : Prop := ∀ t ∈ s.sessions, t.Counted

lemma SessionsCounted.exec {op : Op} {s s' : State} {i : Answer} {r : op.Res} (h : SessionsCounted s)
    (he : exec op s i = some (r, s')) : SessionsCounted s' := by
  cases op with
  | linkSession fd =>
    cases he
    exact List.forall_mem_cons.mpr ⟨newSession_counted fd, h⟩
  | unlinkSession fd =>
    cases he
    exact fun t ht => h t (List.mem_of_mem_eraseP ht)
  | read fd =>
    obtain ⟨x, hx, -⟩ := exec_read_answer he
    obtain ⟨t, -, -, -, rfl⟩ := readSession_cases hx
    intro t' ht'
    obtain ⟨u, hu, rfl⟩ := List.mem_map.mp ht'
    split
    · exact (h u hu).onRead x
    · exact h u hu
  | incSessions | decSessions =>
    cases he
    exact h
  | _ => rwa [SessionsCounted, ((exec_frame he).sessions rfl).1]

lemma SessionsCounted.resists : Resists SessionsCounted where
  pending _ _ h := h
  childExit _ _ _ h := h
  reap _ _ _ _ h := by rwa [SessionsCounted, reap_sessions]
  term _ _ h := h

section Turn

abbrev turnRules : Rules Op.Res State Answer Signal := rules (fun _ _ _ => True) fun _ _ => True

variable {op : Op} {m : Mod} {fd : Int}

lemma uses_any {α : Type} (p : Code α) : p.Uses fun _ => True := by
  induction p with
  | ret a => trivial
  | act op k ih => exact ⟨trivial, ih⟩
  | loop body c k ihb ih => exact ⟨ihb, ih⟩

def Few (L : ℕ) (s : State) : Prop := SessionsCounted s ∧ s.sessions.length ≤ L

lemma Few.resists (L : ℕ) : Resists (Few L) where
  pending _ _ h := h
  childExit _ _ _ h := h
  reap _ _ _ _ h := by rwa [Few, SessionsCounted, reap_sessions]
  term _ _ h := h

variable {L : ℕ}

end Turn

end TeamspeakWebserver.Manager
