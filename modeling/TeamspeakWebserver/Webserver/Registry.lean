import Mathlib.Data.Finset.Insert
import TeamspeakWebserver.Labelled.Runs
import TeamspeakWebserver.Webserver.GlobalMessage

/-! The registry `clients` of `cmd/server.go`: one goroutine for each websocket, and the broadcasts of
`handleMessages`. -/

namespace TeamspeakWebserver.Webserver

open Labelled

inductive Handler where
  | absent
  | running
  | returned
deriving DecidableEq

/-- The channels of the `select` in `handleMessages`. -/
inductive MessageChan where
  | broadcast
  | clientList
  | serverMsg
deriving DecidableEq

/-- Whether the branch of the channel looks at the error of `WriteJSON`. -/
def MessageChan.checked : MessageChan → Bool
  | broadcast => true
  | clientList => true
  | serverMsg => false

variable {ι : Type} [DecidableEq ι]

structure Sending (ι : Type) where
  chan : MessageChan
  remaining : Finset ι
deriving DecidableEq

structure Registry (ι : Type) where
  clients : Finset ι
  handlers : ι → Handler
  closed : Finset ι
  sending : Option (Sending ι)

/-- `read` with `none` is an error of `ReadJSON`: the peer is gone, or the packet is malformed. -/
inductive RegistryStep (ι : Type) where
  | connect (i : ι) (visited : Bool)
  | read (i : ι) (p : Option ClientPackage)
  | begin (chan : MessageChan)
  | write (i : ι) (fails : Bool)
  | finish

def Sending.visit (i : ι) (visited : Bool) (b : Sending ι) : Sending ι :=
  if visited then { b with remaining := insert i b.remaining } else b

namespace Registry

def start : Registry ι where
  clients := ∅
  handlers _ := .absent
  closed := ∅
  sending := none

/-- `handleConnections` returns, and its deferred `Close` is executed. -/
def leave (s : Registry ι) (i : ι) : Registry ι :=
  { s with handlers := Function.update s.handlers i .returned, closed := insert i s.closed }

/-- A failed write: the connection is closed and deleted from the registry. -/
def drop (s : Registry ι) (i : ι) : Registry ι :=
  { s with clients := s.clients.erase i, closed := insert i s.closed }

section Step

variable (tsconn : Bool) (unmarshal : Bytes → Option Bytes)

/-- `SendGlobalMsg` panics where `tsconn` is `nil`, so that the handler ends there too. The error
`SendGlobalMsg` returns is only logged, and the `err` tested behind the `switch` is the one of
`ReadJSON`, so that nothing is deleted there. -/
def ends : Option ClientPackage → Bool
  | none => true
  | some p => !tsconn && !(handlePackage unmarshal p).isEmpty

def step (s : Registry ι) : RegistryStep ι → Option (Registry ι)
  | .connect i visited => if s.handlers i = .absent then some { s with
        clients := insert i s.clients
        handlers := Function.update s.handlers i .running
        sending := s.sending.map (Sending.visit i visited) }
      else none
  | .read i p => if s.handlers i = .running then
        some (if ends tsconn unmarshal p then s.leave i else s)
      else none
  | .begin chan => match s.sending with
    | some _ => none
    | none => some { s with sending := some ⟨chan, s.clients⟩ }
  | .write i fails => match s.sending with
    | none => none
    | some b => if i ∈ b.remaining ∧ (i ∈ s.closed → fails = true) then
        let s := { s with sending := some { b with remaining := b.remaining.erase i } }
        some (if fails && b.chan.checked then s.drop i else s)
      else none
  | .finish => match s.sending with
    | none => none
    | some b => if b.remaining = ∅ then some { s with sending := none } else none

def writesFailFirst (s : Registry ι) : RegistryStep ι → Bool
  | .read i p => !ends tsconn unmarshal p || i ∈ s.closed
  | _ => true

end Step

def Live (s : Registry ι) (i : ι) : Prop := s.handlers i = .running ∧ i ∉ s.closed

structure Law (s : Registry ι) : Prop where
  registered : ∀ i, i ∈ s.clients ↔ s.Live i
  recipients : ∀ b, s.sending = some b → b.remaining ⊆ s.clients

structure Inv (s : Registry ι) : Prop where
  law : s.Law
  absent : ∀ i, s.handlers i = .absent → i ∉ s.closed

section Step

variable {tsconn : Bool} {unmarshal : Bytes → Option Bytes} {s s' : Registry ι} {i : ι}
  {b : Sending ι} {visited : Bool}

lemma visit_subset (h : b.remaining ⊆ s.clients) :
    (b.visit i visited).remaining ⊆ insert i s.clients := by
  rw [Sending.visit]
  split
  · exact Finset.insert_subset_insert i h
  · exact h.trans (Finset.subset_insert i s.clients)

lemma Inv.connect (h : s.Inv) (hi : s.handlers i = .absent) : Inv { s with
    clients := insert i s.clients
    handlers := Function.update s.handlers i .running
    sending := s.sending.map (Sending.visit i visited) } := by
  refine ⟨⟨fun j => ?_, fun b hb => ?_⟩, fun j hj => ?_⟩
  · simp only [Live, Finset.mem_insert, Function.update_apply]
    by_cases hj : j = i
    · simp [hj, h.absent i hi]
    · simp only [hj, if_false, false_or]
      exact h.law.registered j
  · obtain ⟨b', hb', rfl⟩ := Option.map_eq_some_iff.mp hb
    exact visit_subset (h.law.recipients b' hb')
  · simp only [Function.update_apply] at hj
    split at hj
    · cases hj
    · exact h.absent j hj

lemma Inv.leave (h : s.Inv) (hi : i ∈ s.closed) : (s.leave i).Inv := by
  have hnot : i ∉ s.clients := fun hc => ((h.law.registered i).mp hc).2 hi
  refine ⟨⟨fun j => ?_, h.law.recipients⟩, fun j hj => ?_⟩
  · simp only [Live, Registry.leave, Finset.mem_insert, Function.update_apply]
    by_cases hj : j = i
    · simp [hj, hnot]
    · simp only [hj, if_false, false_or]
      exact h.law.registered j
  · simp only [Registry.leave, Function.update_apply, Finset.mem_insert] at hj ⊢
    split at hj
    · cases hj
    case isFalse hne => exact not_or.mpr ⟨hne, h.absent j hj⟩

lemma Inv.drop (h : s.Inv) (hi : i ∈ s.clients) (hr : ∀ b, s.sending = some b → i ∉ b.remaining) :
    (s.drop i).Inv := by
  have hlive := (h.law.registered i).mp hi
  refine ⟨⟨fun j => ?_, fun b hb => ?_⟩, fun j hj => ?_⟩
  · simp only [Live, Registry.drop, Finset.mem_erase, Finset.mem_insert, not_or]
    rw [h.law.registered j, Live]
    tauto
  · intro j hj
    refine Finset.mem_erase.mpr ⟨?_, h.law.recipients b hb hj⟩
    rintro rfl
    exact hr b hb hj
  · simp only [Registry.drop, Finset.mem_insert, not_or] at hj ⊢
    refine ⟨?_, h.absent j hj⟩
    rintro rfl
    rw [hlive.1] at hj
    cases hj

lemma Inv.write (h : s.Inv) (hb : s.sending = some b) :
    Inv { s with sending := some { b with remaining := b.remaining.erase i } } := by
  refine ⟨⟨h.law.registered, fun b' hb' => ?_⟩, h.absent⟩
  obtain rfl := Option.some.inj hb'
  exact (Finset.erase_subset i _).trans (h.law.recipients b hb)

lemma Inv.step (h : s.Inv) {l : RegistryStep ι} (hok : writesFailFirst tsconn unmarshal s l = true)
    (hs : s.step tsconn unmarshal l = some s') : s'.Inv := by
  cases l with
  | connect i visited =>
    simp only [Registry.step] at hs
    split at hs
    case isTrue hi =>
      obtain rfl := Option.some.inj hs
      exact h.connect hi
    case isFalse => cases hs
  | read i p =>
    simp only [Registry.step] at hs
    split at hs
    case isTrue =>
      obtain rfl := Option.some.inj hs
      split
      case isTrue hends =>
        simp only [writesFailFirst, hends, Bool.not_true, Bool.false_or, decide_eq_true_eq] at hok
        exact h.leave hok
      case isFalse => exact h
    case isFalse => cases hs
  | begin chan =>
    simp only [Registry.step] at hs
    split at hs
    · cases hs
    · obtain rfl := Option.some.inj hs
      refine ⟨⟨h.law.registered, fun b hb => ?_⟩, h.absent⟩
      obtain rfl := Option.some.inj hb
      exact Finset.Subset.refl _
  | write i fails =>
    simp only [Registry.step] at hs
    split at hs
    · cases hs
    case h_2 b hb =>
      split at hs
      case isFalse => cases hs
      case isTrue hi =>
        obtain rfl := Option.some.inj hs
        split
        · apply (h.write hb).drop (h.law.recipients b hb hi.1)
          intro b' hb'
          obtain rfl := Option.some.inj hb'
          exact Finset.notMem_erase i _
        · exact h.write hb
  | finish =>
    simp only [Registry.step] at hs
    split at hs
    · cases hs
    · split at hs
      · obtain rfl := Option.some.inj hs
        refine ⟨⟨h.law.registered, fun b hb => ?_⟩, h.absent⟩
        cases hb
      · cases hs

lemma Law.broken (h : s.Law) {l : RegistryStep ι} (hok : writesFailFirst tsconn unmarshal s l = false)
    (hs : s.step tsconn unmarshal l = some s') : ¬ s'.Law := by
  cases l with
  | read i p =>
    simp only [writesFailFirst, Bool.or_eq_false_iff, Bool.not_eq_false', decide_eq_false_iff_not] at hok
    simp only [Registry.step] at hs
    split at hs
    case isFalse => cases hs
    case isTrue hrun =>
      rw [if_pos hok.1] at hs
      obtain rfl := Option.some.inj hs
      intro hlaw
      have hi : i ∈ s.clients := (h.registered i).mpr ⟨hrun, hok.2⟩
      have hlive := ((hlaw.registered i).mp hi).1
      have hreturned : (s.leave i).handlers i = .returned := Function.update_self i _ _
      rw [hreturned] at hlive
      cases hlive
  | connect i visited => cases hok
  | begin chan => cases hok
  | write i fails => cases hok
  | finish => cases hok

end Step

omit [DecidableEq ι] in
lemma start_inv : (start : Registry ι).Inv where
  law := {
    registered := fun i => by simp [start, Live]
    recipients := fun b hb => by cases hb }
  absent i _ := Finset.notMem_empty i

theorem law_of_writesFailFirst (tsconn : Bool) (unmarshal : Bytes → Option Bytes) {s : Registry ι}
    (h : Reaches (step tsconn unmarshal) (writesFailFirst tsconn unmarshal) start s) :
    s.Law ∧ ∀ l s', writesFailFirst tsconn unmarshal s l = false →
      s.step tsconn unmarshal l = some s' → ¬ s'.Law := by
  have hinv : s.Inv := h.invariant start_inv fun t l t' ht hok hs => ht.step hok hs
  exact ⟨hinv.law, fun l s' hok hs => hinv.law.broken hok hs⟩

def dropped : List (RegistryStep ℕ) :=
  [.connect 0 false, .begin .clientList, .write 0 true, .finish, .read 0 none]

theorem law_of_writesFailFirst_dropped : ∃ s : Registry ℕ, s.handlers 0 = .returned ∧ s.Law := by
  have hrun : (run (step true fun _ => none) (writesFailFirst true fun _ => none)
      (start : Registry ℕ) dropped).map (fun s => s.handlers 0) = some .returned := by
    decide
  obtain ⟨s, hs, he⟩ := Option.map_eq_some_iff.mp hrun
  exact ⟨s, he, (law_of_writesFailFirst true (fun _ => none) (reaches_of_run hs)).1⟩

theorem departed_registered : ¬ ∀ (ι : Type) [DecidableEq ι] (tsconn : Bool)
    (unmarshal : Bytes → Option Bytes) (s : Registry ι),
      Reaches (step tsconn unmarshal) free start s → s.Law := by
  have hrun : (run (step true fun _ => none) free (start : Registry ℕ)
      [.connect 0 false, .read 0 none]).map (fun s => (s.handlers 0, decide (0 ∈ s.clients))) =
        some (.returned, true) := by
    decide
  obtain ⟨s, hs, he⟩ := Option.map_eq_some_iff.mp hrun
  simp only [Prod.mk.injEq, decide_eq_true_eq] at he
  intro h
  have hlive := ((h ℕ true (fun _ => none) s (reaches_of_run hs)).registered 0).mp he.2
  rw [Live, he.1] at hlive
  cases hlive.1

end Registry

end TeamspeakWebserver.Webserver
