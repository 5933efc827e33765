import TeamspeakWebserver.Interruptible.Surroundings
import TeamspeakWebserver.Manager.Dispatch

/-! When `read()` on the socket of a session makes the manager wait for the client. -/

namespace TeamspeakWebserver.Manager

open Interruptible Prog Rules Sessions

/-- What a client has sent and the manager has not read, and whether the client has closed its end. -/
structure Incoming where
  unread : Bytes
  closed : Bool
deriving DecidableEq

def Incoming.available (k : Incoming) : Bool := k.unread ≠ [] || k.closed

structure Arrival where
  fd : Int
  bytes : Bytes
  closed : Bool
deriving DecidableEq

abbrev Inbox := Int → Incoming

namespace Inbox

def arrive (inbox : Inbox) (a : Arrival) : Inbox :=
  Function.update inbox a.fd ⟨(inbox a.fd).unread ++ a.bytes, (inbox a.fd).closed || a.closed⟩

/-- The sockets block: a `read()` that finds neither a byte nor the end of the stream does not
return. -/
def read (inbox : Inbox) (fd : Int) : Option Bytes → Option Inbox
  | some got =>
    if got.isPrefixOf (inbox fd).unread then
      some (Function.update inbox fd { inbox fd with unread := (inbox fd).unread.drop got.length })
    else none
  | none => if (inbox fd).closed then some inbox else none

def answer (inbox : Inbox) : Op → Answer → Option Inbox
  | .read fd, .read r => inbox.read fd r.got
  | .read fd, _ => inbox.read fd none
  | .accept, .fd fd => some (Function.update inbox fd ⟨[], false⟩)
  | _, _ => some inbox

/-- What arrives between a statement and the next one arrives with the first of them. -/
def react (op : Op) (a : Answer) (arrivals : List Arrival) (inbox : Inbox) : Option Inbox :=
  (inbox.answer op a).map (arrivals.foldl arrive)

def followed (inbox : Inbox) (fd : Int) (got : Bytes) (arrivals : List Arrival) : Bool :=
  got.length < (inbox fd).unread.length || (inbox fd).closed ||
    arrivals.any fun a => a.fd = fd && (a.bytes ≠ [] || a.closed)

section

variable {inbox inbox' : Inbox} {fd : Int} {a : Arrival} {arrivals : List Arrival} {got : Bytes}

lemma arrive_available (h : (inbox fd).available = true) :
    ((inbox.arrive a) fd).available = true := by
  by_cases hf : fd = a.fd
  · subst hf
    simp only [Incoming.available, arrive, Function.update_self, Bool.or_eq_true,
      decide_eq_true_eq] at h ⊢
    rcases h with h | h
    · exact Or.inl (List.append_ne_nil_of_left_ne_nil h _)
    · exact Or.inr (Or.inl h)
  · rw [arrive, Function.update_of_ne hf]
    exact h

lemma arrivals_available (h : (inbox fd).available = true) :
    ((arrivals.foldl arrive inbox) fd).available = true := by
  induction arrivals generalizing inbox with
  | nil => exact h
  | cons a arrivals ih => exact ih (arrive_available h)

lemma arrived_available (h : arrivals.any fun a => a.fd = fd && (a.bytes ≠ [] || a.closed)) :
    ((arrivals.foldl arrive inbox) fd).available = true := by
  induction arrivals generalizing inbox with
  | nil => cases h
  | cons a arrivals ih =>
    simp only [List.any_cons, Bool.or_eq_true, Bool.and_eq_true, decide_eq_true_eq] at h
    rcases h with ⟨rfl, h⟩ | h
    · have ha : ((inbox.arrive a) a.fd).available = true := by
        simp only [Incoming.available, arrive, Function.update_self, Bool.or_eq_true,
          decide_eq_true_eq]
        rcases h with h | h
        · exact Or.inl (List.append_ne_nil_of_right_ne_nil _ h)
        · exact Or.inr (Or.inr h)
      rw [List.foldl_cons]
      exact arrivals_available ha
    · exact ih (by simpa using h)

lemma react_available {op : Op} {i : Answer} (h : react op i arrivals inbox = some inbox')
    (hf : (inbox fd).available = true) (hr : op ≠ .read fd) (ha : op = .accept → i ≠ .fd fd) :
    (inbox' fd).available = true := by
  obtain ⟨mid, hm, rfl⟩ := Option.map_eq_some_iff.mp h
  apply arrivals_available
  have hread {fd' : Int} {got : Option Bytes} (hn : fd' ≠ fd) (hm : inbox.read fd' got = some mid) :
      mid fd = inbox fd := by
    cases got with
    | none =>
      rw [read] at hm
      split at hm
      · cases hm
        rfl
      · cases hm
    | some got =>
      rw [read] at hm
      split at hm
      · cases hm
        exact Function.update_of_ne hn.symm _ _
      · cases hm
  unfold answer at hm
  split at hm
  · rw [hread (by rintro rfl; exact hr rfl) hm]
    exact hf
  · rw [hread (by rintro rfl; exact hr rfl) hm]
    exact hf
  · cases hm
    rw [Function.update_of_ne (by rintro rfl; exact ha rfl rfl)]
    exact hf
  · cases hm
    exact hf

lemma followed_available {r : Read} (hg : r.got = some got)
    (h : react (.read fd) (.read r) arrivals inbox = some inbox')
    (hf : inbox.followed fd got arrivals = true) : (inbox' fd).available = true := by
  obtain ⟨mid, hm, rfl⟩ := Option.map_eq_some_iff.mp h
  simp only [answer, read, hg] at hm
  split at hm
  case isFalse => cases hm
  case isTrue hp =>
    cases hm
    simp only [followed, Bool.or_eq_true, decide_eq_true_eq] at hf
    rcases hf with (hl | hc) | ha
    · apply arrivals_available
      simp only [Incoming.available, Function.update_self, Bool.or_eq_true, decide_eq_true_eq]
      refine Or.inl fun hn => ?_
      rw [List.drop_eq_nil_iff] at hn
      omega
    · apply arrivals_available
      simp [Incoming.available, hc]
    · exact arrived_available ha

end

end Inbox

abbrev connected : Machine Op.Res (State × Inbox) (Answer × List Arrival) Signal :=
  machine.within Inbox.react

def announces (got stale : Bytes) : Bool :=
  0 < ntohl (got ++ stale.drop got.length) && ntohl (got ++ stale.drop got.length) < maxCmdLen

def headed : Option Op → State × Inbox → Input (Answer × List Arrival) Signal → Bool
  | some (.read fd), (s, inbox), .main (.read r, arrivals) =>
    match s.findSession fd, r.got with
    | some t, some got => !(t.cmdLen = 0 && announces got r.stale) || inbox.followed fd got arrivals
    | _, _ => true
  | _, _, _ => true

def ReadyAt (l : Option Op) (inbox : Inbox) : Prop :=
  ∀ fd, l = some (.read fd) → (inbox fd).available = true

lemma onRead_body {r : Read} {t : Session} (h : (t.onRead r).2 = .body) :
    ∃ got, r.got = some got ∧ t.cmdLen = 0 ∧ announces got r.stale = true := by
  unfold Session.onRead at h
  split at h
  case isTrue hz =>
    unfold Session.readHeader at h
    split at h
    · cases h
    case h_2 got hg =>
      refine ⟨got, hg, hz, ?_⟩
      simp only [announces, Bool.and_eq_true, decide_eq_true_eq]
      dsimp only at h
      split at h
      · cases h
      · dsimp only at h
        split at h
        · cases h
        · omega
  case isFalse =>
    unfold Session.readBody at h
    split at h
    · cases h
    · dsimp only at h
      split at h
      · cases h
      · cases h

lemma exec_read_body {fd : Int} {s s' : State} {i : Answer}
    (h : exec (.read fd) s i = some (.body, s')) :
    ∃ r t got, i = .read r ∧ s.findSession fd = some t ∧ r.got = some got ∧ t.cmdLen = 0 ∧
      announces got r.stale = true := by
  obtain ⟨x, hx, hi⟩ := exec_read_answer h
  obtain ⟨t, ht, -, ho, -⟩ := readSession_cases hx
  obtain ⟨got, hg, hz, ha⟩ := onRead_body ho.symm
  rcases hi with rfl | ⟨hn, -⟩
  · exact ⟨x, t, got, rfl, ht, hg, hz, ha⟩
  · rw [hn] at hg
    cases hg

section Walk

variable (es : List (Int × Bool)) (s₀ : State)

abbrev stallRules : Rules Op.Res (State × Inbox) (Answer × List Arrival) Signal :=
  ⟨connected, fun l x i => headed l x i = true ∧ DispatchedAt es s₀ l x.1,
    fun l x => ∀ fd, l = some (.read fd) → fd ∈ s₀.commFds → (x.2 fd).available = true⟩

def Promised (ds : List Int) (inbox : Inbox) : Prop :=
  ∀ fd ∈ ds, fd ∈ s₀.commFds → (inbox fd).available = true

variable {es s₀} {ds : List Int} {fd : Int}

lemma promised_none : (stallRules es s₀).Holds none fun x => Promised s₀ ds x.2 :=
  within_holds fun _ _ _ => nofun

lemma promised_keeps (hd : ∀ fd ∈ ds, (fd, true) ∈ es) {op : Op} (hn : ∀ fd, op ≠ .read fd) :
    (stallRules es s₀).Keeps (fun x => Promised s₀ ds x.2) op := by
  apply within_atomic fun x _ fd he => absurd (Option.some.inj he) (hn fd)
  intro s inbox i arrivals r s' inbox' h hok he hr fd hf hc
  refine Inbox.react_available hr (h fd hf hc) (hn fd) ?_
  rintro rfl rfl
  -- every descriptor of the array is still open, so `accept()` gives another one
  have ho := hok.2.accept rfl fd (List.mem_map.mpr ⟨_, hd fd hf, rfl⟩)
  change (if s.isFresh fd then _ else _) = _ at he
  split at he
  case isTrue hfresh =>
    rw [hfresh.2] at ho
    cases ho
  case isFalse => cases he

lemma read_promised (hf : fd ∉ ds) : (stallRules es s₀).Atomic (.read fd)
    (fun x => Promised s₀ (fd :: ds) x.2)
    fun o x => Promised s₀ ds x.2 ∧ (o = Outcome.body → (x.2 fd).available = true) := by
  apply within_atomic
    (Q := fun (o : (Op.read fd).Res) inbox => Promised s₀ ds inbox ∧ (o = Outcome.body → (inbox fd).available = true))
  · rintro x h _ ⟨⟩ hc
    exact h fd (by simp) hc
  · intro s inbox i arrivals o s' inbox' h hok he hr
    refine ⟨fun fd' hm hc => ?_, ?_⟩
    · refine Inbox.react_available hr (h fd' (by simp [hm]) hc) ?_ (by simp)
      rintro ⟨⟩
      exact hf hm
    · rintro rfl
      obtain ⟨r, t, got, rfl, ht, hg, hz, ha⟩ := exec_read_body he
      have hh := hok.1
      simp only [headed, ht, hg, hz, ha, decide_true, Bool.and_self, Bool.not_true,
        Bool.false_or] at hh
      exact Inbox.followed_available hg hr hh

lemma read_body_promised (hf : fd ∉ ds) : (stallRules es s₀).Atomic (.read fd)
    (fun x => Promised s₀ ds x.2 ∧ (x.2 fd).available = true) fun _ x => Promised s₀ ds x.2 := by
  apply within_atomic (P := fun inbox => Promised s₀ ds inbox ∧ (inbox fd).available = true)
    (Q := fun _ inbox => Promised s₀ ds inbox)
  · rintro x h _ ⟨⟩ -
    exact h.2
  · intro s inbox i arrivals o s' inbox' h _ he hr fd' hm hc
    refine Inbox.react_available hr (h.1 fd' hm hc) ?_ (by simp)
    rintro ⟨⟩
    exact hf hm

variable (hd : ∀ fd ∈ ds, (fd, true) ∈ es)
include hd

lemma promised_uses {α : Type} {p : Code α} {A : Op → Prop} (h : p.Uses A)
    (hA : ∀ op, A op → ∀ fd, op ≠ .read fd) :
    (stallRules es s₀).Valid (fun x => Promised s₀ ds x.2) p fun _ x => Promised s₀ ds x.2 :=
  .of_uses promised_none (h.mono fun op ho => promised_keeps hd (hA op ho))

lemma processSession_promised (hf : fd ∉ ds) :
    (stallRules es s₀).Valid (fun x => Promised s₀ (fd :: ds) x.2) (processSession fd)
      fun _ x => Promised s₀ ds x.2 := by
  have hafter (o : Outcome) : (stallRules es s₀).Valid (fun x => Promised s₀ ds x.2)
      (afterRead fd o) fun _ x => Promised s₀ ds x.2 :=
    promised_uses hd (afterRead_uses fd o) fun op h => by rintro fd rfl; cases h
  refine .act (read_promised hf) fun (o : Outcome) => ?_
  cases o with
  | body =>
    exact (Valid.act (read_body_promised hf) hafter).weaken fun x h => ⟨h.1, h.2 rfl⟩
  | close => exact (hafter .close).weaken fun x h => h.1
  | wait => exact (hafter .wait).weaken fun x h => h.1
  | command input => exact (hafter (.command input)).weaken fun x h => h.1

lemma serviceFd_promised (hf : fd ∉ ds) (hr : (fd, true) ∈ es) :
    (stallRules es s₀).Valid (fun x => Promised s₀ (fd :: ds) x.2) (serviceFd fd)
      fun _ x => Promised s₀ ds x.2 := by
  have hd' : ∀ fd' ∈ fd :: ds, (fd', true) ∈ es := by
    intro fd' hm
    rcases List.mem_cons.mp hm with rfl | hm
    · exact hr
    · exact hd fd' hm
  have hrest (x : State × Inbox) (h : Promised s₀ (fd :: ds) x.2) : Promised s₀ ds x.2 :=
    fun fd' hm => h fd' (List.mem_cons_of_mem fd hm)
  refine .act (promised_keeps hd' (by simp)) fun (sock : Int) => ?_
  change (stallRules es s₀).Valid _ (if fd = sock then _ else _ : Code Unit) _
  split
  · have huses : startNewSession.Uses fun op => ∀ fd, op ≠ .read fd := by
      refine ⟨nofun, fun (b : Bool) => ?_⟩
      cases b with
      | false => trivial
      | true =>
        refine ⟨nofun, fun (r : Option Int) => ?_⟩
        cases r with
        | none => trivial
        | some fd => exact ⟨nofun, fun _ => ⟨nofun, fun _ => ⟨nofun, fun _ => trivial⟩⟩⟩
    exact (promised_uses hd huses fun op h => h).weaken hrest
  · refine (promised_uses hd' (tryServiceModule_uses fd mods) ?_).bind fun b => ?_
    · rintro op h fd rfl
      cases h
    cases b with
    | true => exact hrest
    | false =>
      refine .act (promised_keeps hd' (by simp)) fun (b : Bool) => ?_
      cases b with
      | false => exact hrest
      | true => exact processSession_promised hd hf

lemma each_promised (hn : ds.Nodup) :
    (stallRules es s₀).Valid (fun x => Promised s₀ ds x.2) (Prog.each serviceFd ds)
      fun _ x => Promised s₀ [] x.2 := by
  induction ds with
  | nil => exact fun x h => h
  | cons fd ds ih =>
    obtain ⟨hf, hn⟩ := List.nodup_cons.mp hn
    have hds : ∀ fd' ∈ ds, (fd', true) ∈ es := fun fd' hm => hd fd' (List.mem_cons_of_mem fd hm)
    exact (serviceFd_promised hds hf (hd fd (by simp))).bind fun _ => ih hds hn

omit hd in
lemma serviceFds_promised (hn : (es.map Prod.fst).Nodup) (nready : Int) :
    (stallRules es s₀).Valid (fun x => Promised s₀ (dispatched es nready) x.2)
      (serviceFds es nready) fun _ x => Promised s₀ [] x.2 := by
  rw [serviceFds_eq]
  exact each_promised (fun fd => mem_of_dispatched) (hn.sublist (dispatched_sublist es nready))

end Walk

theorem reads_ready_of_headed {es : List (Int × Bool)} {s₀ : State} {inbox₀ : Inbox}
    (hp : Polled (es.map Prod.fst) s₀)
    (hpoll : ∀ fd, (fd, true) ∈ es → fd ∈ s₀.commFds → (inbox₀ fd).available = true)
    (nready : Int) {c : Config Op.Res (State × Inbox) Unit}
    (h : connected.Reaches (fun l x i => headed l x i = true) ⟨serviceFds es nready, s₀, inbox₀⟩ c) :
    ReadyAt c.prog.next c.st.2 := by
  have hready := (serviceFds_promised hp.nodup nready).guarantee (fun _ => promised_none)
    (s := (s₀, inbox₀)) (fun fd hf => hpoll fd (mem_of_dispatched hf))
    (h.strengthen fun d hd i hok => ⟨hok, dispatched_reached hp nready hd.inner⟩)
  intro fd hn
  exact hready fd hn ((dispatched_reached hp nready h.inner).read fd hn).2

section Frames

abbrev sent (bytes : Bytes) : Inbox := Function.update (fun _ => ⟨[], false⟩) 4 ⟨bytes, false⟩

abbrev headerRead : List (Op × Input (Answer × List Arrival) Signal) :=
  [(.read 4, .main (.read ⟨some (htonl 4), [0, 0, 0, 0]⟩, []))]

lemma polled_hosting :
    Polled ([((3 : Int), false), (4, true)].map Prod.fst) (.hosting 4 (newSession 4)) :=
  ⟨by decide, by decide, by decide⟩

lemma sent_available {bytes : Bytes} (hb : bytes ≠ []) (fd : Int)
    (h : (fd, true) ∈ [((3 : Int), false), (4, true)]) : (sent bytes fd).available = true := by
  obtain rfl : fd = 4 := by simpa using h
  simp [Incoming.available, hb]

theorem header_stall : ¬ ∀ (es : List (Int × Bool)) (s₀ : State) (inbox₀ : Inbox) (nready : Int)
    (c : Config Op.Res (State × Inbox) Unit), Polled (es.map Prod.fst) s₀ →
    (∀ fd, (fd, true) ∈ es → fd ∈ s₀.commFds → (inbox₀ fd).available = true) →
    connected.Reaches (fun _ _ _ => True) ⟨serviceFds es nready, s₀, inbox₀⟩ c →
      ReadyAt c.prog.next c.st.2 := by
  have hrun : (connected.follow (fun _ _ _ => True) (.ok, []) 500
      ⟨serviceFds [(3, false), (4, true)] 1, .hosting 4 (newSession 4), sent (htonl 4)⟩
      headerRead).map (fun c => (c.prog.next, (c.st.2 4).available)) =
      some (some (.read 4), false) := by decide
  obtain ⟨c, hc, he⟩ := Option.map_eq_some_iff.mp hrun
  simp only [Prod.mk.injEq] at he
  intro h
  have hr := h _ _ _ _ c polled_hosting (fun fd hf _ => sent_available (by decide) fd hf)
    (Machine.reaches_of_follow hc) 4 he.1
  rw [he.2] at hr
  cases hr

theorem reads_ready_of_headed_command : ∃ c : Config Op.Res (State × Inbox) Unit,
    c.prog.next = some (.read 4) ∧ (c.st.2 4).unread = ascii "stop" ∧
      ReadyAt c.prog.next c.st.2 := by
  have hrun : (connected.follow (fun l x i => headed l x i = true) (.ok, []) 500
      ⟨serviceFds [(3, false), (4, true)] 1, .hosting 4 (newSession 4),
        sent (htonl 4 ++ ascii "stop")⟩ headerRead).map
      (fun c => (c.prog.next, (c.st.2 4).unread)) = some (some (.read 4), ascii "stop") := by
    decide
  obtain ⟨c, hc, he⟩ := Option.map_eq_some_iff.mp hrun
  simp only [Prod.mk.injEq] at he
  exact ⟨c, he.1, he.2, reads_ready_of_headed polled_hosting
    (fun fd hf _ => sent_available (by decide) fd hf) 1 (Machine.reaches_of_follow hc)⟩

end Frames

end TeamspeakWebserver.Manager
