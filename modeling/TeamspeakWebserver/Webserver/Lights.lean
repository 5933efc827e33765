import TeamspeakWebserver.Labelled.Runs
import TeamspeakWebserver.Text.Bytes

/-! The light that the web clients share (`cmd/elights/lights.go`): one goroutine for each client,
and `handleLightToggles` at the other end of the unbuffered channel `toggle`. -/

namespace TeamspeakWebserver.Webserver

open Labelled

structure ClientLightsPackage where
  header : Bytes
  payload : Bytes
deriving DecidableEq

/-- What is sent on the channel, with the request that it comes from. The receiver sees only the
string. -/
inductive LightMessage where
  | toggleLight (payload : Bytes)
  | getCurrentToggle (value : Bytes)
deriving DecidableEq

def LightMessage.newToggle : LightMessage → Bytes
  | toggleLight payload => payload
  | getCurrentToggle value => value

/-- `strings.ToLower`, as far as the comparisons with `on` and `off` can tell: no letter outside
ASCII has one of theirs as its lower case. -/
def toLower (s : Bytes) : Bytes := s.map fun b => if 65 ≤ b && b ≤ 90 then b + 32 else b

/-- One turn of the loop of `lightsConnHandler`, up to the value to be sent. -/
def lightsConnHandler (currentToggle : Bytes) (p : ClientLightsPackage) : Option LightMessage :=
  if p.header = ascii "toggleLight" then
    if toLower p.payload ≠ ascii "on" ∧ toLower p.payload ≠ ascii "off" then none
    else some (.toggleLight p.payload)
  else if p.header = ascii "getCurrentToggle" then some (.getCurrentToggle currentToggle)
  else none

variable {ι : Type} [DecidableEq ι]

/-- `sending i` is what client `i` is blocked on, and `handling` what `handleLightToggles` has received
and not yet stored. Of history, `processed` is what it has stored, newest first, and `asked i` what it
had stored when the value that client `i` sends was evaluated. -/
structure Lights (ι : Type) where
  currentToggle : Bytes
  handling : Option LightMessage
  sending : ι → Option LightMessage
  processed : List LightMessage
  asked : ι → List LightMessage

def Lights.start : Lights ι where
  currentToggle := ascii "On"
  handling := none
  sending _ := none
  processed := []
  asked _ := []

inductive LightStep (ι : Type) where
  | request (i : ι) (p : ClientLightsPackage)
  | receive (i : ι)
  | assign
deriving DecidableEq

namespace Lights

def step (s : Lights ι) : LightStep ι → Option (Lights ι)
  | .request i p => match s.sending i with
    | some _ => none
    | none => some { s with
        sending := Function.update s.sending i (lightsConnHandler s.currentToggle p)
        asked := Function.update s.asked i s.processed }
  | .receive i => match s.handling, s.sending i with
    | none, some m => some { s with handling := some m, sending := Function.update s.sending i none }
    | _, _ => none
  | .assign => match s.handling with
    | none => none
    | some m => some { s with
        currentToggle := m.newToggle
        handling := none
        processed := m :: s.processed }

def lastToggle : List LightMessage → Bytes
  | [] => ascii "On"
  | .toggleLight payload :: _ => payload
  | .getCurrentToggle _ :: ms => lastToggle ms

def Obeys (s : Lights ι) : Prop := s.currentToggle = lastToggle s.processed

/-- From the evaluation of what a `getCurrentToggle` sends up to its receipt, no `toggleLight` has
changed the light. -/
def undisturbed (s : Lights ι) : LightStep ι → Bool
  | .receive i => match s.sending i with
    | some (.getCurrentToggle _) => lastToggle s.processed = lastToggle (s.asked i)
    | _ => true
  | _ => true

structure Told (s : Lights ι) : Prop where
  obeys : s.Obeys
  sending : ∀ i v, s.sending i = some (.getCurrentToggle v) → v = lastToggle (s.asked i)
  handling : ∀ v, s.handling = some (.getCurrentToggle v) → v = lastToggle s.processed

section Steps

variable {s s' : Lights ι} {i : ι} {p : ClientLightsPackage}

lemma step_request (h : s.step (.request i p) = some s') : s.sending i = none ∧ s' = { s with
    sending := Function.update s.sending i (lightsConnHandler s.currentToggle p)
    asked := Function.update s.asked i s.processed } := by
  simp only [step] at h
  split at h
  · cases h
  case h_2 hi => exact ⟨hi, (Option.some.inj h).symm⟩

lemma step_receive (h : s.step (.receive i) = some s') : ∃ m, s.handling = none ∧
    s.sending i = some m ∧
    s' = { s with handling := some m, sending := Function.update s.sending i none } := by
  simp only [step] at h
  split at h
  case h_1 m hn hm => exact ⟨m, hn, hm, (Option.some.inj h).symm⟩
  case h_2 => cases h

lemma step_assign (h : s.step .assign = some s') : ∃ m, s.handling = some m ∧
    s' = { s with currentToggle := m.newToggle, handling := none, processed := m :: s.processed } := by
  simp only [step] at h
  split at h
  · cases h
  case h_2 m hm => exact ⟨m, hm, (Option.some.inj h).symm⟩

omit [DecidableEq ι] in
lemma undisturbed_receive : s.undisturbed (.receive i) = true ↔
    ∀ v, s.sending i = some (.getCurrentToggle v) →
      lastToggle s.processed = lastToggle (s.asked i) := by
  cases hm : s.sending i with
  | none => simp [undisturbed, hm]
  | some m => cases m <;> simp [undisturbed, hm]

lemma lightsConnHandler_get {currentToggle v : Bytes}
    (h : lightsConnHandler currentToggle p = some (.getCurrentToggle v)) : v = currentToggle := by
  unfold lightsConnHandler at h
  split at h
  · split at h <;> cases h
  · split at h
    · cases h
      rfl
    · cases h

lemma Told.request (h : s.Told) : Told { s with
    sending := Function.update s.sending i (lightsConnHandler s.currentToggle p)
    asked := Function.update s.asked i s.processed } where
  obeys := h.obeys
  sending j v hv := by
    dsimp only at hv ⊢
    by_cases hj : j = i
    · subst hj
      rw [Function.update_self] at hv
      rw [Function.update_self, lightsConnHandler_get hv]
      exact h.obeys
    · rw [Function.update_of_ne hj] at hv
      rw [Function.update_of_ne hj]
      exact h.sending j v hv
  handling := h.handling

lemma Told.receive (h : s.Told) {m : LightMessage} (hm : s.sending i = some m)
    (hu : s.undisturbed (.receive i) = true) :
    Told { s with handling := some m, sending := Function.update s.sending i none } where
  obeys := h.obeys
  sending j v hv := by
    dsimp only at hv ⊢
    by_cases hj : j = i
    · subst hj
      rw [Function.update_self] at hv
      cases hv
    · rw [Function.update_of_ne hj] at hv
      exact h.sending j v hv
  handling v hv := by
    obtain rfl := Option.some.inj hv
    exact (h.sending i v hm).trans (undisturbed_receive.mp hu v hm).symm

omit [DecidableEq ι] in
lemma Told.assign (h : s.Told) {m : LightMessage} (hm : s.handling = some m) : Told
    { s with currentToggle := m.newToggle, handling := none, processed := m :: s.processed } where
  obeys := by
    cases m with
    | toggleLight payload => rfl
    | getCurrentToggle v => exact h.handling v hm
  sending := h.sending
  handling v hv := by cases hv

lemma Told.step (h : s.Told) {l : LightStep ι} (hu : s.undisturbed l = true)
    (hs : s.step l = some s') : s'.Told := by
  cases l with
  | request i p =>
    obtain ⟨-, rfl⟩ := step_request hs
    exact h.request
  | receive i =>
    obtain ⟨m, -, hm, rfl⟩ := step_receive hs
    exact h.receive hm hu
  | assign =>
    obtain ⟨m, hm, rfl⟩ := step_assign hs
    exact h.assign hm

omit [DecidableEq ι] in
lemma start_told : (start : Lights ι).Told where
  obeys := rfl
  sending i v hv := by cases hv
  handling v hv := by cases hv

lemma told_of_undisturbed (h : Reaches step undisturbed start s) : s.Told :=
  h.invariant start_told fun _ _ _ ht hu hs => ht.step hu hs

lemma Told.broken (h : s.Told) (hu : s.undisturbed (.receive i) = false) {s₁ s₂ : Lights ι}
    (hr : s.step (.receive i) = some s₁) (ha : s₁.step .assign = some s₂) : ¬ s₂.Obeys := by
  obtain ⟨m, -, hm, rfl⟩ := step_receive hr
  obtain ⟨m', hm', rfl⟩ := step_assign ha
  obtain rfl : m = m' := Option.some.inj hm'
  intro ho
  rw [Bool.eq_false_iff] at hu
  refine hu (undisturbed_receive.mpr fun v hv => ?_)
  obtain rfl : m = .getCurrentToggle v := Option.some.inj (hm.symm.trans hv)
  have hstored : v = lastToggle s.processed := ho
  rw [← hstored]
  exact h.sending i v hv

end Steps

theorem obeys_of_undisturbed {s : Lights ι} (h : Reaches step undisturbed start s) :
    s.Obeys ∧ ∀ i s₁ s₂, s.undisturbed (.receive i) = false → s.step (.receive i) = some s₁ →
      s₁.step .assign = some s₂ → ¬ s₂.Obeys :=
  ⟨(told_of_undisturbed h).obeys, fun _ _ _ hu hr ha => (told_of_undisturbed h).broken hu hr ha⟩

section Runs

def asking : ClientLightsPackage := ⟨ascii "getCurrentToggle", []⟩

def switching (payload : Bytes) : ClientLightsPackage := ⟨ascii "toggleLight", payload⟩

theorem light_changed_by_get : ¬ ∀ (ι : Type) [DecidableEq ι] (s : Lights ι),
    Reaches step free start s → s.Obeys := by
  have hrun : (run step free (start : Lights ℕ)
      [.request 0 asking, .request 1 (switching (ascii "Off")), .receive 1, .assign, .receive 0,
        .assign]).map (fun s => (s.currentToggle, lastToggle s.processed)) =
      some (ascii "On", ascii "Off") := by decide
  obtain ⟨s, hs, he⟩ := Option.map_eq_some_iff.mp hrun
  simp only [Prod.mk.injEq] at he
  intro h
  have ho : s.currentToggle = lastToggle s.processed := h ℕ s (reaches_of_run hs)
  rw [he.1, he.2] at ho
  exact absurd ho (by decide)

/-- The light is switched off and on again while client 0 is blocked. -/
theorem obeys_of_undisturbed_again : ∃ s : Lights ℕ, s.processed =
    [.getCurrentToggle (ascii "On"), .toggleLight (ascii "On"), .toggleLight (ascii "off")] ∧
      s.Obeys := by
  have hrun : (run step undisturbed (start : Lights ℕ)
      [.request 0 asking, .request 1 (switching (ascii "off")), .receive 1, .assign,
        .request 1 (switching (ascii "On")), .receive 1, .assign, .receive 0, .assign]).map
      (fun s => s.processed) =
      some [.getCurrentToggle (ascii "On"), .toggleLight (ascii "On"), .toggleLight (ascii "off")] := by
    decide
  obtain ⟨s, hs, he⟩ := Option.map_eq_some_iff.mp hrun
  exact ⟨s, he, (obeys_of_undisturbed (reaches_of_run hs)).1⟩

end Runs

end Lights

end TeamspeakWebserver.Webserver
