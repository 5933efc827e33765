import TeamspeakWebserver.Client.Exchange

/-! Clients and the manager in lock-step: every command is answered, once, to the client that has sent
it, and no frame is ever behind another one in a socket. -/

namespace TeamspeakWebserver.Client

open Buffers Sessions Session Text

inductive Peer.Between : Peer → Prop
  | backlog : Between .backlog
  | serving (fd : Int) (br : ℕ) : Between (.serving (waiting fd br))

lemma Peer.Between.waiting {p : Peer} {s : Session} (h : p.Between) (hs : p = .serving s) :
    ∃ fd br, s = Sessions.waiting fd br := by
  cases h with
  | backlog => cases hs
  | serving fd br => exact ⟨fd, br, (Peer.serving.inj hs).symm⟩

inductive Peer.Within (body : Bytes) : Peer → Bytes → Prop
  | header {p : Peer} (h : p.Between) : Within body p (htonl body.length ++ body)
  | body (fd : Int) {b rest : Bytes} (hrest : rest ≠ []) (h : body = b ++ rest) :
      Within body (.serving (reading fd body.length b)) rest

namespace Connection

def Quiet (c : Connection) : Prop := c.peer = .gone ∨ c.peer.Between ∧ c.up = []

def Leaving (c : Connection) : Prop :=
  c.peer = .gone ∨ c.peer.Between ∧ ∃ rest, c.up = htonl (2 ^ 32 - 1) ++ rest

def Pending (c : Connection) (cmd : Bytes) : Prop :=
  c.peer = .gone ∨ ∃ body, cstring body = cmd ∧ 0 < body.length ∧ body.length < maxCmdLen ∧
    c.peer.Within body c.up

/-- How far the last command has come: it has been answered and the answer shown, it is on its way to
the manager, or its answer is on its way back. -/
inductive Stage (c : Connection) : Prop
  | clear (hup : c.Quiet ∨ c.talk = .closed ∧ c.Leaving) (htalk : c.talk = .idle ∨ c.talk = .closed)
      (hdown : c.down = []) (hsent : c.sent = c.served.map Prod.fst) (hshown : c.served = c.shown)
  | asked (cmd : Bytes) (hup : c.Pending cmd) (htalk : c.talk = .awaiting cmd ∨ c.talk = .closed)
      (hdown : c.down = []) (hsent : c.sent = c.served.map Prod.fst ++ [cmd])
      (hshown : c.served = c.shown)
  | told (cmd : Bytes) (hup : c.Quiet) (htalk : c.talk = .awaiting cmd ∨ c.talk = .closed)
      (hdown : mayAnswer cmd c.down = true) (hsent : c.sent = c.served.map Prod.fst)
      (hshown : c.served = c.shown ++ [(cmd, c.down)])

namespace Stage

variable {c c' : Connection}

lemma lose (h : Stage c) : Stage { c with peer := .gone } := by
  cases h with
  | clear _ htalk hdown hsent hshown => exact .clear (.inl (.inl rfl)) htalk hdown hsent hshown
  | asked cmd _ htalk hdown hsent hshown => exact .asked cmd (.inl rfl) htalk hdown hsent hshown
  | told cmd _ htalk hdown hsent hshown => exact .told cmd (.inl rfl) htalk hdown hsent hshown

lemma close (h : Stage c) : Stage { c with talk := .closed } := by
  cases h with
  | clear hup _ hdown hsent hshown =>
    exact .clear (hup.imp_right fun h => ⟨rfl, h.2⟩) (.inr rfl) hdown hsent hshown
  | asked cmd hup _ hdown hsent hshown => exact .asked cmd hup (.inr rfl) hdown hsent hshown
  | told cmd hup _ hdown hsent hshown => exact .told cmd hup (.inr rfl) hdown hsent hshown

lemma send {buf : CmdBuf} {bytes : ℕ} (h : Stage c) (htalk : c.talk = .idle)
    (hlen : (buf.string.getD []).length ≤ bytes) (hroom : bytes + headerSize ≤ maxCmdLen)
    (hs : c.send buf bytes = some c') : Stage c' := by
  obtain ⟨text, htext, hs⟩ := Option.bind_eq_some_iff.mp hs
  rw [htext] at hlen
  cases hempty : cmdIsEmpty text with
  | true =>
    rw [sendCmd_empty htext hempty] at hs
    rwa [← Option.some.inj hs]
  | false =>
    obtain ⟨body, ret, hsent, hbody, hpos, hlt⟩ := sendCmd_body htext hempty hlen hroom
    rw [hsent] at hs
    by_cases hgone : c.peer = .gone
    · simp only [Option.bind_eq_bind, Option.bind_some, if_pos hgone] at hs
      rw [← Option.some.inj hs]
      exact h.close
    · obtain ⟨hquiet, hdown, hcmds, hshown⟩ : c.Quiet ∧ c.down = [] ∧
          c.sent = c.served.map Prod.fst ∧ c.served = c.shown := by
        cases h with
        | clear hup _ hdown hsent hshown =>
          refine ⟨hup.resolve_right fun hl => ?_, hdown, hsent, hshown⟩
          rw [htalk] at hl
          cases hl.1
        | asked cmd _ ht | told cmd _ ht =>
          rw [htalk] at ht
          rcases ht with ht | ht <;> cases ht
      obtain ⟨hbetween, hup⟩ := hquiet.resolve_left hgone
      have htake : (serialBytes text body.length ++ body).take headerSize =
          serialBytes text body.length := List.take_left' (length_htonl _)
      have hmark : serialBytes text body.length = htonl (2 ^ 32 - 1) ↔ text = ascii "quit" :=
        serialBytes_eq_mark (by rw [maxCmdLen] at hlt; omega)
      simp only [Option.bind_eq_bind, Option.bind_some, if_neg hgone, htake, hup, List.nil_append] at hs
      by_cases hquit : text = ascii "quit"
      · rw [if_pos (hmark.mpr hquit), hmark.mpr hquit] at hs
        rw [← Option.some.inj hs]
        exact .clear (.inr ⟨rfl, .inr ⟨hbetween, body, rfl⟩⟩) (.inr rfl) hdown hcmds hshown
      · rw [if_neg fun h => hquit (hmark.mp h), serialBytes, if_neg hquit] at hs
        rw [← Option.some.inj hs]
        refine .asked text (.inr ⟨body, hbody, hpos, hlt, .header hbetween⟩) (.inl rfl) hdown ?_ hshown
        exact congrArg (· ++ [text]) hcmds

lemma accept {fd : Int} (h : Stage c) (hp : c.peer = .backlog) :
    Stage { c with peer := .serving (newSession fd) } := by
  have hbetween : (Peer.serving (newSession fd)).Between := .serving fd 0
  have hgone : c.peer ≠ .gone := by
    rw [hp]
    exact Peer.noConfusion
  have hquiet (h : c.Quiet) : Quiet { c with peer := .serving (newSession fd) } :=
    .inr ⟨hbetween, (h.resolve_left hgone).2⟩
  cases h with
  | clear hup htalk hdown hsent hshown =>
    refine .clear (hup.imp hquiet fun hl => ⟨hl.1, .inr ⟨hbetween, ?_⟩⟩) htalk hdown hsent hshown
    exact (hl.2.resolve_left hgone).2
  | asked cmd hup htalk hdown hsent hshown =>
    obtain ⟨body, hbody, hpos, hlt, hw⟩ := hup.resolve_left hgone
    refine .asked cmd (.inr ⟨body, hbody, hpos, hlt, ?_⟩) htalk hdown hsent hshown
    generalize c.up = up at hw
    rw [hp] at hw
    cases hw with
    | header _ => exact .header hbetween
  | told cmd hup htalk hdown hsent hshown =>
    exact .told cmd (hquiet hup) htalk hdown hsent hshown

lemma read_quiet {s : Session} {cut : ℕ} {stale reply : Bytes} (h : Stage c) (hq : c.Quiet)
    (hp : c.peer = .serving s) (hs : c.read s cut stale reply = some c') : Stage c' := by
  rcases hq with hgone | ⟨hbetween, hup⟩
  · rw [hgone] at hp
    cases hp
  · obtain ⟨fd, br, rfl⟩ := hbetween.waiting hp
    rw [(read_end hup hs).2]
    exact h.lose

lemma read {s : Session} {cut : ℕ} {stale reply : Bytes} (h : Stage c) (hp : c.peer = .serving s)
    (hstale : stale.length = headerSize) (hcut : s.cmdLen ≠ 0 ∨ headerSize ≤ cut)
    (hs : c.read s cut stale reply = some c') : Stage c' := by
  have hgone : c.peer ≠ .gone := by
    rw [hp]
    exact Peer.noConfusion
  cases h with
  | clear hup htalk hdown hsent hshown =>
    rcases hup with hq | ⟨hclosed, hleaving⟩
    · exact (clear (.inl hq) htalk hdown hsent hshown).read_quiet hq hp hs
    · obtain ⟨hbetween, rest, hup⟩ := hleaving.resolve_left hgone
      obtain ⟨fd, br, rfl⟩ := hbetween.waiting hp
      have hmark : (2 ^ 32 - 1 = 2 ^ 32 - 1 ∨ maxCmdLen ≤ 2 ^ 32 - 1) := Or.inl rfl
      rw [read_header hup (by decide) hstale (hcut.resolve_left (not_not.mpr rfl)), if_pos hmark] at hs
      rw [← Option.some.inj hs]
      exact (clear (.inr ⟨hclosed, hleaving⟩) htalk hdown hsent hshown).lose
  | asked cmd hup htalk hdown hsent hshown =>
    obtain ⟨body, hbody, hpos, hlt, hw⟩ := hup.resolve_left hgone
    have hlen : body.length ≠ 2 ^ 32 - 1 ∧ body.length < 2 ^ 32 := by
      rw [maxCmdLen] at hlt
      omega
    generalize hu : c.up = up at hw
    rw [hp] at hw
    cases hw with
    | header hbetween =>
      obtain ⟨fd, br, rfl⟩ := hbetween.waiting rfl
      have hfits : ¬ (body.length = 2 ^ 32 - 1 ∨ maxCmdLen ≤ body.length) :=
        not_or.mpr ⟨hlen.1, Nat.not_le_of_lt hlt⟩
      rw [read_header hu hlen.2 hstale (hcut.resolve_left (not_not.mpr rfl)), if_neg hfits] at hs
      rw [← Option.some.inj hs]
      have hbegun : Peer.Within body (.serving (reading fd body.length [])) body :=
        .body fd (List.length_pos_iff.mp hpos) rfl
      exact .asked cmd (.inr ⟨body, hbody, hpos, hlt, hbegun⟩) htalk hdown hsent hshown
    | @body fd b rest hrest he =>
      have hsum : body.length = b.length + up.length := by rw [he, List.length_append]
      obtain ⟨m, hm, hle, hread⟩ := @read_body c fd cut stale reply b up hrest hu _ hsum
      rw [hread] at hs
      split at hs
      · split at hs
        · next hanswer =>
          rw [← he, hbody] at hs hanswer
          rw [← Option.some.inj hs]
          refine .told cmd (.inr ⟨.serving fd _, rfl⟩) htalk ?_ ?_ ?_
          · change mayAnswer cmd (c.down ++ reply) = true
            rwa [hdown]
          · simpa using hsent
          · change c.served ++ _ = c.shown ++ [(cmd, c.down ++ reply)]
            rw [hdown, hshown, List.nil_append]
        · cases hs
      · next hm' =>
        rw [← Option.some.inj hs]
        have hmore : up.drop m ≠ [] := by
          rw [ne_eq, List.drop_eq_nil_iff]
          omega
        have hpart : body = b ++ up.take m ++ up.drop m := by
          rw [List.append_assoc, List.take_append_drop, he]
        exact .asked cmd (.inr ⟨body, hbody, hpos, hlt, .body fd hmore hpart⟩) htalk hdown hsent hshown
  | told cmd hq htalk hdown hsent hshown =>
    exact (told cmd hq htalk hdown hsent hshown).read_quiet hq hp hs

lemma receive {cmd : Bytes} {cut : ℕ} (h : Stage c) (ht : c.talk = .awaiting cmd)
    (hcut : c.down.length ≤ cut) (hs : c.receive cmd cut = some c') : Stage c' := by
  rw [Connection.receive] at hs
  split at hs
  · split at hs
    · rw [← Option.some.inj hs]
      exact h.close
    · cases hs
  · next hdown =>
    cases h with
    | clear _ htalk => rcases htalk with h | h <;> rw [ht] at h <;> cases h
    | asked _ _ _ hempty => exact absurd hempty hdown
    | told cmd' hq htalk hanswer hsent hshown =>
      obtain rfl : cmd' = cmd := by
        rw [ht] at htalk
        rcases htalk with h | h <;> cases h
        rfl
      have hm : readSize cut (maxCmdLen - 1) c.down.length = c.down.length := by
        have hpos := List.length_pos_iff.mpr hdown
        have hle := (mayAnswer_bounds hanswer).2
        rw [readSize]
        omega
      simp only [hm, List.take_length, List.drop_length] at hs
      rw [← Option.some.inj hs]
      exact .clear (.inl hq) (.inl rfl) rfl hsent hshown

lemma step {m : Move} (h : Stage c) (hok : c.ok m = true) (hs : c.step m = some c') : Stage c' := by
  cases m with
  | send buf bytes =>
    rw [Connection.step] at hs
    split at hs
    · next htalk =>
      rw [ok, Bool.and_eq_true, decide_eq_true_eq, decide_eq_true_eq] at hok
      exact h.send htalk hok.1 hok.2 hs
    · cases hs
  | accept fd =>
    rw [Connection.step] at hs
    split at hs
    · next hp =>
      rw [← Option.some.inj hs]
      exact h.accept hp
    · cases hs
  | read cut stale reply =>
    rw [Connection.step] at hs
    split at hs
    · next s hp =>
      simp only [ok, hp, Bool.and_eq_true, Bool.or_eq_true, decide_eq_true_eq] at hok
      exact h.read hp hok.1 hok.2 hs
    · cases hs
  | receive cut =>
    rw [Connection.step] at hs
    split at hs
    · next cmd ht => exact h.receive ht (of_decide_eq_true hok) hs
    · cases hs
  | hangup =>
    rw [← Option.some.inj hs]
    exact h.close

end Stage

structure InStep (c : Connection) : Prop where
  served_sent : c.served.map Prod.fst <+: c.sent
  shown_served : c.shown <+: c.served
  outstanding : c.sent.length ≤ c.shown.length + 1
  idle : c.talk = .idle → c.sent = c.shown.map Prod.fst
  awaiting : ∀ cmd, c.talk = .awaiting cmd → c.sent = c.shown.map Prod.fst ++ [cmd]

lemma Stage.inStep {c : Connection} (h : Stage c) : c.InStep := by
  cases h with
  | clear hup htalk hdown hsent hshown =>
    rw [hshown] at hsent
    refine ⟨?_, ?_, ?_, fun _ => hsent, fun cmd ht => ?_⟩
    · rw [hshown, hsent]
    · rw [hshown]
    · rw [hsent, List.length_map]
      exact Nat.le_succ _
    · rw [ht] at htalk
      rcases htalk with h | h <;> cases h
  | asked cmd hup htalk hdown hsent hshown =>
    rw [hshown] at hsent
    refine ⟨?_, ?_, ?_, fun ht => ?_, fun cmd' ht => ?_⟩
    · rw [hshown, hsent]
      exact List.prefix_append _ _
    · rw [hshown]
    · rw [hsent, List.length_append, List.length_map, List.length_singleton]
    · rw [ht] at htalk
      rcases htalk with h | h <;> cases h
    · rw [ht] at htalk
      rcases htalk with h | h <;> cases h
      exact hsent
  | told cmd hup htalk hdown hsent hshown =>
    rw [hshown, List.map_append] at hsent
    refine ⟨?_, ?_, ?_, fun ht => ?_, fun cmd' ht => ?_⟩
    · rw [hsent, hshown, List.map_append]
    · rw [hshown]
      exact List.prefix_append _ _
    · rw [hsent, List.length_append, List.length_map, List.length_map, List.length_singleton]
    · rw [ht] at htalk
      rcases htalk with h | h <;> cases h
    · rw [ht] at htalk
      rcases htalk with h | h <;> cases h
      exact hsent

lemma step_served {c c' : Connection} {m : Move} (hs : c.step m = some c') :
    c'.served = c.served ∨
      ∃ input reply, mayAnswer input reply = true ∧ c'.served = c.served ++ [(input, reply)] := by
  cases m with
  | send buf bytes =>
    left
    rw [step] at hs
    split at hs
    · obtain ⟨text, -, hs⟩ := Option.bind_eq_some_iff.mp hs
      obtain ⟨⟨sent, ret⟩, -, hs⟩ := Option.bind_eq_some_iff.mp hs
      cases sent with
      | none => rw [← Option.some.inj hs]
      | some frame =>
        dsimp only at hs
        split at hs
        · rw [← Option.some.inj hs]
        · split at hs <;> rw [← Option.some.inj hs]
    · cases hs
  | accept fd =>
    rw [step] at hs
    split at hs
    · rw [← Option.some.inj hs]
      exact Or.inl rfl
    · cases hs
  | read cut stale reply =>
    rw [step] at hs
    split at hs
    · rw [read] at hs
      split at hs
      · cases hs
      · dsimp only at hs
        split at hs
        · rw [← Option.some.inj hs]
          exact Or.inl rfl
        · next input _ =>
          split at hs
          · next hanswer =>
            rw [← Option.some.inj hs]
            exact Or.inr ⟨input, reply, hanswer, rfl⟩
          · cases hs
        · rw [← Option.some.inj hs]
          exact Or.inl rfl
    · cases hs
  | receive cut =>
    rw [step] at hs
    split at hs
    · rw [receive] at hs
      split at hs
      · split at hs
        · rw [← Option.some.inj hs]
          exact Or.inl rfl
        · cases hs
      · rw [← Option.some.inj hs]
        exact Or.inl rfl
    · cases hs
  | hangup =>
    rw [← Option.some.inj hs]
    exact Or.inl rfl

/-! ### An answer always comes -/

section Answers

variable {c : Connection} {fd : Int} {cmd reply : Bytes}

lemma exists_answer (cmd : Bytes) : ∃ reply, mayAnswer cmd reply = true := by
  unfold mayAnswer
  split
  · exact ⟨_, decide_eq_true rfl⟩
  · exact ⟨_, decide_eq_true rfl⟩
  · split
    · exact ⟨_, decide_eq_true rfl⟩
    · exact ⟨_, decide_eq_true (Or.inl rfl)⟩

def Answered (c : Connection) (cmd reply : Bytes) : Prop :=
  ∃ c', Labelled.Reaches step ok c c' ∧ c'.talk = .idle ∧ c'.shown = c.shown ++ [(cmd, reply)]

lemma Answered.head {c' : Connection} {m : Move} (h : c'.Answered cmd reply) (hok : c.ok m = true)
    (hs : c.step m = some c') (hshown : c'.shown = c.shown) : c.Answered cmd reply := by
  obtain ⟨d, hd, ht, hp⟩ := h
  exact ⟨d, .head ⟨m, hok, hs⟩ hd, ht, by rw [hp, hshown]⟩

lemma answered_told (ht : c.talk = .awaiting cmd) (hdown : c.down = reply)
    (hanswer : mayAnswer cmd reply = true) : c.Answered cmd reply := by
  obtain ⟨hne, hle⟩ := mayAnswer_bounds hanswer
  have hm : readSize reply.length (maxCmdLen - 1) reply.length = reply.length := by
    have hpos := List.length_pos_iff.mpr hne
    rw [readSize]
    omega
  have hs : c.step (.receive reply.length) =
      some { c with talk := .idle, down := [], shown := c.shown ++ [(cmd, reply)] } := by
    simp only [step, ht, receive, hdown, if_neg hne, hm, List.drop_length, List.take_length]
  refine ⟨_, .single ⟨_, ?_, hs⟩, rfl, rfl⟩
  rw [ok, hdown]
  exact decide_eq_true le_rfl

lemma answered_reading {len : ℕ} {b : Bytes} (hp : c.peer = .serving (reading fd len b))
    (hup : c.up ≠ []) (hlen : len = b.length + c.up.length) (ht : c.talk = .awaiting cmd)
    (hdown : c.down = []) (hcmd : cstring (b ++ c.up) = cmd) (hanswer : mayAnswer cmd reply = true) :
    c.Answered cmd reply := by
  induction hn : c.up.length using Nat.strong_induction_on generalizing c b with
  | _ n ih =>
    have hpos := List.length_pos_iff.mpr hup
    obtain ⟨m, hm, hle, hread⟩ :=
      @read_body c fd bodyRequest [0, 0, 0, 0] reply b c.up hup rfl len hlen
    have hok : c.ok (.read bodyRequest [0, 0, 0, 0] reply) = true := by
      rw [ok, hp]
      exact Bool.or_true _
    have hs : c.step (.read bodyRequest [0, 0, 0, 0] reply) =
        c.read (reading fd len b) bodyRequest [0, 0, 0, 0] reply := by
      rw [step, hp]
    rw [hread] at hs
    by_cases hall : m = c.up.length
    · rw [if_pos hall, hcmd, if_pos hanswer, hdown, List.nil_append] at hs
      refine Answered.head ?_ hok hs rfl
      exact answered_told ht rfl hanswer
    · rw [if_neg hall] at hs
      have hmore : c.up.drop m ≠ [] := by
        rw [ne_eq, List.drop_eq_nil_iff]
        omega
      refine Answered.head ?_ hok hs rfl
      refine ih (c.up.drop m).length ?_ rfl hmore ?_ ht hdown ?_ rfl
      · rw [List.length_drop]
        omega
      · rw [List.length_append, List.length_take, List.length_drop]
        omega
      · change cstring (b ++ c.up.take m ++ c.up.drop m) = cmd
        rw [List.append_assoc, List.take_append_drop, hcmd]

lemma answered_header {br : ℕ} {body : Bytes} (hp : c.peer = .serving (waiting fd br))
    (hup : c.up = htonl body.length ++ body) (hpos : 0 < body.length) (hlt : body.length < maxCmdLen)
    (ht : c.talk = .awaiting cmd) (hdown : c.down = []) (hcmd : cstring body = cmd)
    (hanswer : mayAnswer cmd reply = true) : c.Answered cmd reply := by
  have hfits : ¬ (body.length = 2 ^ 32 - 1 ∨ maxCmdLen ≤ body.length) := by
    rw [maxCmdLen] at hlt ⊢
    omega
  have hs : c.step (.read headerSize [0, 0, 0, 0] reply) =
      some { c with peer := .serving (reading fd body.length []), up := body } := by
    rw [step, hp]
    exact (read_header hup (by rw [maxCmdLen] at hlt; omega) rfl le_rfl).trans (if_neg hfits)
  refine Answered.head ?_ ?_ hs rfl
  · exact answered_reading rfl (List.length_pos_iff.mp hpos) (Nat.zero_add _).symm ht hdown hcmd hanswer
  · rw [ok, hp]
    rfl

lemma Stage.answered (h : Stage c) (ht : c.talk = .awaiting cmd) (hp : c.peer ≠ .gone) :
    ∃ reply, c.Answered cmd reply := by
  cases h with
  | clear hup htalk =>
    rw [ht] at htalk
    rcases htalk with h | h <;> cases h
  | asked cmd' hup htalk hdown =>
    obtain rfl : cmd' = cmd := by
      rw [ht] at htalk
      rcases htalk with h | h <;> cases h
      rfl
    obtain ⟨reply, hanswer⟩ := exists_answer cmd'
    obtain ⟨body, hbody, hpos, hlt, hw⟩ := hup.resolve_left hp
    refine ⟨reply, ?_⟩
    generalize hpeer : c.peer = p at hw
    generalize hu : c.up = up at hw
    cases hw with
    | header hbetween =>
      cases hbetween with
      | backlog =>
        have hs : c.step (.accept 0) = some { c with peer := .serving (newSession 0) } := by
          rw [Connection.step, if_pos hpeer]
        refine Answered.head ?_ rfl hs rfl
        exact answered_header rfl hu hpos hlt ht hdown hbody hanswer
      | serving fd br => exact answered_header hpeer hu hpos hlt ht hdown hbody hanswer
    | @body fd b _ hrest he =>
      refine answered_reading hpeer (by rwa [hu]) ?_ ht hdown ?_ hanswer
      · rw [hu, he, List.length_append]
      · rw [hu, ← he, hbody]
  | told cmd' hup htalk hdown =>
    obtain rfl : cmd' = cmd := by
      rw [ht] at htalk
      rcases htalk with h | h <;> cases h
      rfl
    exact ⟨c.down, answered_told ht rfl hdown⟩

end Answers

end Connection

namespace System

variable {κ : Type*} [DecidableEq κ] {σ σ' : System κ} {i j : κ} {c : Connection}

def given (σ : System κ) (i : κ) : List (Bytes × Bytes) :=
  (σ.log.filter fun p => p.1 = i).map Prod.snd

@[simp] lemma put_self (σ : System κ) (i : κ) (c : Connection) : (σ.put i c).conn i = c := by
  simp [put]

@[simp] lemma put_other (σ : System κ) (h : i ≠ j) (c : Connection) :
    (σ.put j c).conn i = σ.conn i := by
  simp [put, h]

lemma tagged_self (i : κ) (ps : List (Bytes × Bytes)) :
    ((ps.map fun p => (i, p)).filter fun p => p.1 = i).map Prod.snd = ps := by
  induction ps with
  | nil => rfl
  | cons p ps ih => simp [ih]

lemma tagged_other (h : i ≠ j) (ps : List (Bytes × Bytes)) :
    ((ps.map fun p => (j, p)).filter fun p => p.1 = i).map Prod.snd = [] := by
  induction ps with
  | nil => rfl
  | cons p ps ih =>
    rw [List.map_cons, List.filter_cons_of_neg (by simpa using h.symm)]
    exact ih

lemma given_put_self (σ : System κ) (i : κ) (c : Connection) : (σ.put i c).given i =
    σ.given i ++ c.served.drop (σ.conn i).served.length := by
  rw [given, put, List.filter_append, List.map_append, tagged_self, given]

lemma given_put_other (σ : System κ) (h : i ≠ j) (c : Connection) : (σ.put j c).given i = σ.given i := by
  rw [given, put, List.filter_append, List.map_append, tagged_other h, List.append_nil, given]

structure Coherent (σ : System κ) : Prop where
  stage : ∀ i, (σ.conn i).Stage
  given : ∀ i, σ.given i = (σ.conn i).served
  answers : ∀ i, ∀ p ∈ (σ.conn i).served, mayAnswer p.1 p.2 = true

lemma Coherent.initial : (initial : System κ).Coherent where
  stage _ := .clear (.inl (.inr ⟨.backlog, rfl⟩)) (.inl rfl) rfl rfl rfl
  given _ := rfl
  answers _ := nofun

lemma Coherent.put {m : Move} (h : σ.Coherent) (hok : (σ.conn j).ok m = true)
    (hs : (σ.conn j).step m = some c) : (σ.put j c).Coherent := by
  have hserved := Connection.step_served hs
  refine ⟨fun i => ?_, fun i => ?_, fun i => ?_⟩ <;> by_cases hi : i = j
  · subst hi
    rw [put_self]
    exact (h.stage i).step hok hs
  · rw [put_other σ hi]
    exact h.stage i
  · subst hi
    rw [put_self, given_put_self, h.given i]
    rcases hserved with hserved | ⟨input, reply, -, hserved⟩
    · rw [hserved, List.drop_length, List.append_nil]
    · rw [hserved, List.drop_left]
  · rw [put_other σ hi, given_put_other σ hi]
    exact h.given i
  · subst hi
    rw [put_self]
    rcases hserved with hserved | ⟨input, reply, hanswer, hserved⟩
    · rw [hserved]
      exact h.answers i
    · intro p hp
      rw [hserved, List.mem_append, List.mem_singleton] at hp
      rcases hp with hp | rfl
      · exact h.answers i p hp
      · exact hanswer
  · rw [put_other σ hi]
    exact h.answers i

lemma Coherent.step {e : Event κ} (h : σ.Coherent) (hok : σ.ok e = true)
    (hs : σ.step e = some σ') : σ'.Coherent := by
  cases e with
  | exit =>
    rw [← Option.some.inj hs]
    exact ⟨fun i => (h.stage i).lose, h.given, h.answers⟩
  | on j m =>
    obtain ⟨c, hc, rfl⟩ := Option.map_eq_some_iff.mp hs
    exact h.put hok hc

lemma coherent_of_reaches (h : Labelled.Reaches step ok initial σ) : σ.Coherent :=
  h.invariant .initial fun _ _ _ ht hok hs => ht.step hok hs

theorem lockstep (h : Labelled.Reaches step ok initial σ) (i : κ) :
    σ.given i = (σ.conn i).served ∧ (σ.conn i).InStep ∧
      ∀ p ∈ (σ.conn i).shown, mayAnswer p.1 p.2 = true := by
  have hc := coherent_of_reaches h
  have hin := (hc.stage i).inStep
  exact ⟨hc.given i, hin, fun p hp => hc.answers i p (hin.shown_served.subset hp)⟩

def stopBuf : CmdBuf := ⟨ascii "stop" ++ 0 :: List.replicate 4091 0, by
  rw [List.length_append, List.length_cons, List.length_replicate]
  rfl⟩

def stopping : Connection := { Connection.fresh with
  talk := .awaiting (ascii "stop"), up := htonl 4 ++ ascii "stop", sent := [ascii "stop"] }

lemma stopBuf_string : stopBuf.string = some (ascii "stop") := by
  have hcells : stopBuf.cells = ascii "stop" ++ 0 :: List.replicate 4091 0 := rfl
  rw [Buffer.string_of_cells hcells, cstring_eq (by decide)]

lemma send_stop : Connection.fresh.step (.send stopBuf 4) = some stopping := by
  have htake : stopBuf.cells.take 4 = ascii "stop" := rfl
  have hsent : sendCmd stopBuf 4 none = some (some (htonl 4 ++ ascii "stop"), -1) := by
    have hs := @sendCmd_sent stopBuf (ascii "stop") 4 none stopBuf_string (by decide) (by decide) nofun
    rw [htake] at hs
    exact hs
  have hmark : (htonl 4 ++ ascii "stop").take headerSize ≠ htonl (2 ^ 32 - 1) := by decide
  have hpeer : Connection.fresh.peer ≠ .gone := Peer.noConfusion
  simp only [Connection.step, Connection.send, stopBuf_string, hsent, Option.bind_eq_bind,
    Option.bind_some, if_neg hmark, if_neg hpeer]
  exact if_pos rfl

lemma reaches_stop : Labelled.Reaches step ok initial ((initial : System ℕ).put 0 stopping) := by
  refine .single ⟨.on 0 (.send stopBuf 4), ?_, congrArg (Option.map (initial.put 0)) send_stop⟩
  change (decide ((stopBuf.string.getD []).length ≤ 4) && decide (4 + headerSize ≤ maxCmdLen)) = true
  rw [stopBuf_string]
  decide

set_option maxRecDepth 4000 in
theorem lockstep_stop : ∃ σ : System ℕ, (σ.conn 0).shown = [(ascii "stop", ascii "Shutting down...")] ∧
    σ.given 0 = (σ.conn 0).served ∧ (σ.conn 0).InStep := by
  have hrun : (Labelled.run step ok ((initial : System ℕ).put 0 stopping)
      [.on 0 (.accept 7), .on 0 (.read 4 [1, 2, 3, 4] []), .on 0 (.read 3 [1, 2, 3, 4] []),
        .on 0 (.read 100 [1, 2, 3, 4] (ascii "Shutting down...")), .on 0 (.receive 100)]).map
      (fun σ => (σ.conn 0).shown) = some [(ascii "stop", ascii "Shutting down...")] := by
    decide
  obtain ⟨σ, hσ, hshown⟩ := Option.map_eq_some_iff.mp hrun
  have h := lockstep (reaches_stop.trans (Labelled.reaches_of_run hσ)) 0
  exact ⟨σ, hshown, h.1, h.2.1⟩

lemma reaches_on {c : Connection} (h : Labelled.Reaches Connection.step Connection.ok (σ.conn i) c) :
    ∃ σ', Labelled.Reaches step ok σ σ' ∧ σ'.conn i = c ∧ ∀ j ≠ i, σ'.conn j = σ.conn j := by
  induction h with
  | refl => exact ⟨σ, .refl, rfl, fun _ _ => rfl⟩
  | tail _ hs ih =>
    obtain ⟨σ', hr, rfl, hj⟩ := ih
    obtain ⟨m, hok, hm⟩ := hs
    refine ⟨σ'.put i _, hr.tail ⟨.on i m, hok, ?_⟩, put_self σ' i _, fun j hne => ?_⟩
    · exact congrArg (Option.map (σ'.put i)) hm
    · rw [put_other σ' hne, hj j hne]

theorem answer_comes (h : Labelled.Reaches step ok initial σ) {i : κ} {cmd : Bytes}
    (ht : (σ.conn i).talk = .awaiting cmd) (hp : (σ.conn i).peer ≠ .gone) :
    ∃ reply σ', Labelled.Reaches step ok σ σ' ∧ (∀ j ≠ i, σ'.conn j = σ.conn j) ∧
      (σ'.conn i).talk = .idle ∧ (σ'.conn i).shown = (σ.conn i).shown ++ [(cmd, reply)] := by
  obtain ⟨reply, c, hc, hidle, hshown⟩ := ((coherent_of_reaches h).stage i).answered ht hp
  obtain ⟨σ', hr, rfl, hj⟩ := reaches_on hc
  exact ⟨reply, σ', hr, hj, hidle, hshown⟩

theorem answer_comes_stop : ∃ reply, ∃ σ' : System ℕ, (σ'.conn 0).talk = .idle ∧
    (σ'.conn 0).shown = [(ascii "stop", reply)] := by
  have ht : (((initial : System ℕ).put 0 stopping).conn 0).talk = .awaiting (ascii "stop") := rfl
  have hp : (((initial : System ℕ).put 0 stopping).conn 0).peer ≠ .gone := Peer.noConfusion
  obtain ⟨reply, σ', -, -, hidle, hshown⟩ := answer_comes reaches_stop ht hp
  exact ⟨reply, σ', hidle, hshown⟩

end System

lemma fits_of_accepted {buf : CmdBuf} {bytes : ℕ} (h : Accepted buf bytes) :
    (buf.string.getD []).length ≤ bytes := by
  cases h with
  | argv msg args _ h =>
    obtain ⟨text, htext, rfl⟩ := trySend_string h
    rw [htext]
    exact le_rfl
  | line stack got hread h =>
    obtain ⟨buf', body, q, hread', htext, -⟩ := readCommand_firstLine stack hread
    obtain rfl := Option.some.inj (h.symm.trans hread')
    rw [htext]
    exact ((List.takeWhile_sublist _).length_le).trans (length_cstring_le got)

end TeamspeakWebserver.Client
