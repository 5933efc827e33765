import Mathlib.Data.Finset.Insert
import TeamspeakWebserver.Labelled.Runs
import TeamspeakWebserver.Webserver.Lights

/-! The pages that show the light (`static/lights.js`), their websockets, and the broadcast of
`handleLightToggles`. Every page has its own identifier, also one that is loaded again. -/

namespace TeamspeakWebserver.Webserver

open Labelled

/-- The packages that are under way to the server and the payloads under way to the page, with the
oldest first, and what the handler of the connection is blocked on. `greeted` is a history variable:
`handleLightToggles` is done with the `getCurrentToggle` of the page. -/
structure LightPage where
  text : Bytes
  isOpen : Bool
  up : List ClientLightsPackage
  down : List Bytes
  sending : Option LightMessage
  greeted : Bool
deriving DecidableEq

def opening : ClientLightsPackage := ⟨ascii "getCurrentToggle", ascii "---"⟩

def lightPageHandler (currentToggle : Bytes) : LightPage where
  text := currentToggle
  isOpen := false
  up := []
  down := []
  sending := none
  greeted := false

namespace LightPage

def onopen (p : LightPage) : Option LightPage :=
  if p.isOpen then none else some { p with isOpen := true, up := p.up ++ [opening] }

def nextToggle (p : LightPage) : Bytes := if p.text = ascii "On" then ascii "Off" else ascii "On"

/-- A click on the button. On a socket that is not open yet, `send` throws. -/
def toggleLight (p : LightPage) : LightPage where
  text := p.nextToggle
  isOpen := p.isOpen
  up := if p.isOpen then p.up ++ [Lights.switching p.nextToggle] else p.up
  down := p.down
  sending := p.sending
  greeted := p.greeted

def onmessage (p : LightPage) : Option LightPage :=
  match p.down with
  | [] => none
  | payload :: down => if p.isOpen then some { p with text := payload, down } else none

def request (currentToggle : Bytes) (p : LightPage) : Option LightPage :=
  match p.sending, p.up with
  | none, m :: up => some { p with up, sending := lightsConnHandler currentToggle m }
  | _, _ => none

end LightPage

variable {ι : Type} [DecidableEq ι]

/-- `handleLightToggles` with a message, and the clients its loop has not come to. -/
structure Broadcast (ι : Type) where
  message : LightMessage
  origin : ι
  remaining : Finset ι
deriving DecidableEq

structure LightPages (ι : Type) where
  currentToggle : Bytes
  clients : Finset ι
  handling : Option (Broadcast ι)
  pages : ι → Option LightPage

/-- A connection that is registered during the broadcast may still be `visited` by it. -/
inductive LightPageStep (ι : Type) where
  | load (i : ι)
  | register (i : ι) (visited : Bool)
  | open (i : ι)
  | click (i : ι)
  | request (i : ι)
  | receive (i : ι)
  | write (i : ι)
  | assign
  | deliver (i : ι)
deriving DecidableEq

def Broadcast.visit (i : ι) (visited : Bool) (h : Broadcast ι) : Broadcast ι :=
  if visited then { h with remaining := insert i h.remaining } else h

def Broadcast.greets (h : Broadcast ι) (i : ι) : Bool :=
  match h.message with
  | .toggleLight _ => false
  | .getCurrentToggle _ => h.origin = i

namespace LightPages

def start : LightPages ι where
  currentToggle := ascii "On"
  clients := ∅
  handling := none
  pages _ := none

def setPage (s : LightPages ι) (i : ι) (p : LightPage) : LightPages ι :=
  { s with pages := Function.update s.pages i (some p) }

def onPage (s : LightPages ι) (i : ι) (f : LightPage → Option LightPage) : Option (LightPages ι) :=
  (s.pages i).bind fun p => (f p).map (s.setPage i)

def greet (h : Broadcast ι) (pages : ι → Option LightPage) (i : ι) : Option LightPage :=
  (pages i).map fun p => { p with greeted := p.greeted || h.greets i }

def step (s : LightPages ι) : LightPageStep ι → Option (LightPages ι)
  | .load i => match s.pages i with
    | some _ => none
    | none => some (s.setPage i (lightPageHandler s.currentToggle))
  | .register i visited => match s.pages i with
    | none => none
    | some _ => if i ∈ s.clients then none else some { s with
        clients := insert i s.clients
        handling := s.handling.map (Broadcast.visit i visited) }
  | .open i => s.onPage i LightPage.onopen
  | .click i => s.onPage i fun p => some p.toggleLight
  | .request i => if i ∈ s.clients then s.onPage i (LightPage.request s.currentToggle) else none
  | .receive i => match s.handling, (s.pages i).bind LightPage.sending with
    | none, some m => (s.onPage i fun p => some { p with sending := none }).map fun s =>
        { s with handling := some ⟨m, i, s.clients⟩ }
    | _, _ => none
  | .write i => match s.handling with
    | none => none
    | some h => if i ∈ h.remaining then
        (s.onPage i fun p => some { p with down := p.down ++ [h.message.newToggle] }).map fun s =>
          { s with handling := some { h with remaining := h.remaining.erase i } }
      else none
  | .assign => match s.handling with
    | none => none
    | some h => if h.remaining = ∅ then some { s with
        currentToggle := h.message.newToggle
        handling := none
        pages := greet h s.pages }
      else none
  | .deliver i => s.onPage i LightPage.onmessage

structure Quiescent (s : LightPages ι) : Prop where
  handling : s.handling = none
  pages : ∀ i p, s.pages i = some p → p.up = [] ∧ p.down = [] ∧ p.sending = none

def newest (s : LightPages ι) : Bytes :=
  match s.handling with
  | none => s.currentToggle
  | some h => h.message.newToggle

def Greeting (s : LightPages ι) (i : ι) (p : LightPage) : Prop :=
  p.greeted = true ∨ ∃ h, s.handling = some h ∧ h.greets i = true

end LightPages

def LightPage.Clicked (p : LightPage) : Prop :=
  (∃ v, Lights.switching v ∈ p.up) ∨ ∃ v, p.sending = some (.toggleLight v)

def LightPage.shown (p : LightPage) : Bytes := p.down.getLast?.getD p.text

namespace LightPages

structure Tended (s : LightPages ι) (i : ι) (p : LightPage) : Prop where
  requests : ∀ m ∈ p.up, m = opening ∨ m = Lights.switching (ascii "On") ∨
    m = Lights.switching (ascii "Off")
  isOpen : p.up ≠ [] ∨ p.sending ≠ none ∨ s.Greeting i p → p.isOpen = true
  client : p.sending ≠ none ∨ s.Greeting i p → i ∈ s.clients
  shown : s.Greeting i p → p.Clicked ∨ (∃ h, s.handling = some h ∧ i ∈ h.remaining) ∨
    p.shown = s.newest

structure Inv (s : LightPages ι) : Prop where
  loaded : ∀ i ∈ s.clients, s.pages i ≠ none
  origin : ∀ h, s.handling = some h → h.origin ∈ s.clients
  tended : ∀ i p, s.pages i = some p → s.Tended i p

section Pages

variable {s s' : LightPages ι} {i j : ι} {p q : LightPage}

lemma setPage_pages : (s.setPage i p).pages j = if j = i then some p else s.pages j :=
  Function.update_apply s.pages i (some p) j

lemma onPage_eq {f : LightPage → Option LightPage} (h : s.onPage i f = some s') :
    ∃ p q, s.pages i = some p ∧ f p = some q ∧ s.setPage i q = s' := by
  obtain ⟨p, hp, h⟩ := Option.bind_eq_some_iff.mp h
  obtain ⟨q, hq, h⟩ := Option.map_eq_some_iff.mp h
  exact ⟨p, q, hp, hq, h⟩

lemma Inv.loaded_setPage (h : s.Inv) (q : LightPage) : ∀ j ∈ s.clients, (s.setPage i q).pages j ≠ none := by
  intro j hj
  rw [setPage_pages]
  split
  · exact Option.some_ne_none q
  · exact h.loaded j hj

lemma Inv.setPage (h : s.Inv) (hq : s.Tended i q) : (s.setPage i q).Inv where
  loaded := h.loaded_setPage q
  origin := h.origin
  tended j p hp := by
    rw [setPage_pages] at hp
    split at hp
    case isTrue hj =>
      obtain rfl := Option.some.inj hp
      rw [hj]
      exact ⟨hq.requests, hq.isOpen, hq.client, hq.shown⟩
    case isFalse =>
      obtain hp := h.tended j p hp
      exact ⟨hp.requests, hp.isOpen, hp.client, hp.shown⟩

lemma Tended.load (h : s.Inv) (hi : s.pages i = none) :
    s.Tended i (Webserver.lightPageHandler s.currentToggle) := by
  have hnot : ¬ s.Greeting i (Webserver.lightPageHandler s.currentToggle) := by
    rintro (hg | ⟨b, hb, hg⟩)
    · cases hg
    · have horigin : b.origin = i := by
        rw [Broadcast.greets] at hg
        split at hg
        · cases hg
        · exact of_decide_eq_true hg
      exact h.loaded i (horigin ▸ h.origin b hb) hi
  refine ⟨?_, ?_, ?_, fun hg => absurd hg hnot⟩
  · intro m hm
    cases hm
  · rintro (hne | hne | hg)
    · exact absurd rfl hne
    · exact absurd rfl hne
    · exact absurd hg hnot
  · rintro (hne | hg)
    · exact absurd rfl hne
    · exact absurd hg hnot

lemma Tended.onopen (h : s.Tended i p) (hq : p.onopen = some q) : s.Tended i q := by
  rw [LightPage.onopen] at hq
  split at hq
  case isTrue => cases hq
  case isFalse =>
    obtain rfl := Option.some.inj hq
    refine ⟨?_, fun _ => rfl, h.client, fun hg => ?_⟩
    · intro m hm
      rcases List.mem_append.mp hm with hm | hm
      · exact h.requests m hm
      · exact Or.inl (List.mem_singleton.mp hm)
    · rcases h.shown hg with (⟨v, hv⟩ | hc) | hr
      · exact Or.inl (Or.inl ⟨v, List.mem_append_left _ hv⟩)
      · exact Or.inl (Or.inr hc)
      · exact Or.inr hr

lemma nextToggle_eq (p : LightPage) : p.nextToggle = ascii "On" ∨ p.nextToggle = ascii "Off" := by
  rw [LightPage.nextToggle]
  split
  · exact Or.inr rfl
  · exact Or.inl rfl

lemma Tended.toggleLight (h : s.Tended i p) : s.Tended i p.toggleLight := by
  by_cases ho : p.isOpen = true
  · have hup : p.toggleLight.up = p.up ++ [Lights.switching p.nextToggle] := by
      rw [LightPage.toggleLight, if_pos ho]
    refine ⟨?_, fun _ => ho, h.client, fun _ => ?_⟩
    · intro m hm
      rw [hup] at hm
      rcases List.mem_append.mp hm with hm | hm
      · exact h.requests m hm
      · rw [List.mem_singleton.mp hm]
        rcases nextToggle_eq p with hn | hn
        · exact Or.inr (Or.inl (by rw [hn]))
        · exact Or.inr (Or.inr (by rw [hn]))
    · refine Or.inl (Or.inl ⟨p.nextToggle, ?_⟩)
      rw [hup]
      exact List.mem_append_right _ List.mem_cons_self
  · have hup : p.toggleLight.up = p.up := by
      rw [LightPage.toggleLight, if_neg ho]
    refine ⟨?_, ?_, h.client, fun hg => absurd (h.isOpen (Or.inr (Or.inr hg))) ho⟩
    · rw [hup]
      exact h.requests
    · rw [hup]
      exact h.isOpen

lemma Tended.onmessage (h : s.Tended i p) (hq : p.onmessage = some q) : s.Tended i q := by
  rw [LightPage.onmessage] at hq
  split at hq
  · cases hq
  case h_2 v down hd =>
    split at hq
    case isFalse => cases hq
    case isTrue ho =>
      obtain rfl := Option.some.inj hq
      refine ⟨h.requests, fun _ => ho, h.client, fun hg => ?_⟩
      rcases h.shown hg with hc | hr | hs
      · exact Or.inl hc
      · exact Or.inr (Or.inl hr)
      · refine Or.inr (Or.inr ?_)
        rw [← hs, LightPage.shown, LightPage.shown, hd, List.getLast?_cons]
        rfl

lemma Tended.request (h : s.Tended i p) (hi : i ∈ s.clients)
    (hq : p.request s.currentToggle = some q) : s.Tended i q := by
  rw [LightPage.request] at hq
  split at hq
  case h_2 => cases hq
  case h_1 m up hsend hup =>
    obtain rfl := Option.some.inj hq
    have ho : p.isOpen = true := h.isOpen (Or.inl (by rw [hup]; exact List.cons_ne_nil m up))
    refine ⟨?_, fun _ => ho, fun _ => hi, fun hg => ?_⟩
    · intro m' hm'
      apply h.requests
      rw [hup]
      exact List.mem_cons_of_mem m hm'
    · rcases h.shown hg with (⟨v, hv⟩ | ⟨v, hv⟩) | hr
      · left
        rw [hup] at hv
        rcases List.mem_cons.mp hv with hv | hv
        · right
          have hm := h.requests m (by rw [hup]; exact List.mem_cons_self)
          rw [← hv] at hm
          refine ⟨v, ?_⟩
          rw [← hv]
          rcases hm with hm | hm | hm
          · have hheader : ascii "toggleLight" = ascii "getCurrentToggle" :=
              congrArg ClientLightsPackage.header hm
            exact absurd hheader (by decide)
          · obtain rfl : v = ascii "On" := congrArg ClientLightsPackage.payload hm
            rfl
          · obtain rfl : v = ascii "Off" := congrArg ClientLightsPackage.payload hm
            rfl
        · exact Or.inl ⟨v, hv⟩
      · rw [hsend] at hv
        cases hv
      · exact Or.inr hr

end Pages

section Server

variable {s s' : LightPages ι} {i j : ι} {p q : LightPage} {b : Broadcast ι} {visited : Bool}

lemma visit_message : (b.visit i visited).message = b.message := by
  rw [Broadcast.visit]
  split <;> rfl

lemma visit_origin : (b.visit i visited).origin = b.origin := by
  rw [Broadcast.visit]
  split <;> rfl

lemma mem_visit (h : j ∈ b.remaining) : j ∈ (b.visit i visited).remaining := by
  rw [Broadcast.visit]
  split
  · exact Finset.mem_insert_of_mem h
  · exact h

lemma greets_origin (h : b.greets i = true) : b.origin = i := by
  rw [Broadcast.greets] at h
  split at h
  · cases h
  · exact of_decide_eq_true h

lemma Tended.of_server (h : s.Tended j p) (hg : s'.Greeting j p → s.Greeting j p)
    (hc : s.clients ⊆ s'.clients)
    (hs : s'.Greeting j p → (∃ b, s.handling = some b ∧ j ∈ b.remaining) ∨ p.shown = s.newest →
      (∃ b, s'.handling = some b ∧ j ∈ b.remaining) ∨ p.shown = s'.newest) : s'.Tended j p where
  requests := h.requests
  isOpen hp := h.isOpen (hp.imp_right (Or.imp_right hg))
  client hp := hc (h.client (hp.imp_right hg))
  shown hp := (h.shown (hg hp)).imp_right (hs hp)

lemma Inv.register (h : s.Inv) (hi : s.pages i ≠ none) :
    Inv { s with
      clients := insert i s.clients
      handling := s.handling.map (Broadcast.visit i visited) } where
  loaded j hj := by
    rcases Finset.mem_insert.mp hj with rfl | hj
    · exact hi
    · exact h.loaded j hj
  origin b hb := by
    obtain ⟨b', hb', rfl⟩ := Option.map_eq_some_iff.mp hb
    rw [visit_origin]
    exact Finset.mem_insert_of_mem (h.origin b' hb')
  tended j p hp := by
    refine (h.tended j p hp).of_server ?_ (Finset.subset_insert i s.clients) ?_
    · rintro (hg | ⟨b, hb, hg⟩)
      · exact Or.inl hg
      · obtain ⟨b', hb', rfl⟩ := Option.map_eq_some_iff.mp hb
        refine Or.inr ⟨b', hb', ?_⟩
        simpa only [Broadcast.greets, visit_message, visit_origin] using hg
    · rintro - (⟨b, hb, hj⟩ | hshown)
      · exact Or.inl ⟨b.visit i visited, by simp [hb], mem_visit hj⟩
      · right
        rw [hshown, newest, newest]
        cases s.handling with
        | none => rfl
        | some b =>
          have hmessage : (b.visit i visited).message = b.message := visit_message
          exact congrArg LightMessage.newToggle hmessage.symm

lemma Inv.receive (h : s.Inv) {m : LightMessage} (hp : s.pages i = some p) (hm : p.sending = some m) :
    Inv { s.setPage i { p with sending := none } with handling := some ⟨m, i, s.clients⟩ } := by
  have hi := h.tended i p hp
  have hsend : p.sending ≠ none := by
    rw [hm]
    exact Option.some_ne_none m
  have hclient : i ∈ s.clients := hi.client (Or.inl hsend)
  refine ⟨?_, ?_, ?_⟩
  · exact h.loaded_setPage _
  · intro b hb
    obtain rfl := Option.some.inj hb
    exact hclient
  · intro j q hq
    rw [setPage_pages] at hq
    split at hq
    case isTrue hj =>
      obtain rfl := Option.some.inj hq
      rw [hj]
      refine ⟨hi.requests, fun _ => hi.isOpen (Or.inr (Or.inl hsend)), fun _ => hclient, fun _ => ?_⟩
      exact Or.inr (Or.inl ⟨_, rfl, hclient⟩)
    case isFalse hj =>
      have hgreeted : LightPages.Greeting
          { s.setPage i { p with sending := none } with handling := some ⟨m, i, s.clients⟩ } j q →
            s.Greeting j q := by
        rintro (hg | ⟨b, hb, hg⟩)
        · exact Or.inl hg
        · obtain rfl := Option.some.inj hb
          exact absurd (greets_origin hg).symm hj
      refine (h.tended j q hq).of_server hgreeted (Finset.Subset.refl _) ?_
      intro hg _
      exact Or.inl ⟨_, rfl, (h.tended j q hq).client (Or.inr (hgreeted hg))⟩

lemma Inv.write (h : s.Inv) (hp : s.pages i = some p) (hb : s.handling = some b) :
    Inv { s.setPage i { p with down := p.down ++ [b.message.newToggle] } with
      handling := some { b with remaining := b.remaining.erase i } } := by
  have hi := h.tended i p hp
  have hnewest : s.newest = b.message.newToggle := by
    rw [newest, hb]
  refine ⟨?_, ?_, ?_⟩
  · exact h.loaded_setPage _
  · intro b' hb'
    obtain rfl := Option.some.inj hb'
    exact h.origin b hb
  · intro j q hq
    have hgreeting (q : LightPage) : LightPages.Greeting
        { s.setPage i { p with down := p.down ++ [b.message.newToggle] } with
          handling := some { b with remaining := b.remaining.erase i } } j q → s.Greeting j q := by
      rintro (hg | ⟨b', hb', hg⟩)
      · exact Or.inl hg
      · obtain rfl := Option.some.inj hb'
        exact Or.inr ⟨b, hb, hg⟩
    rw [setPage_pages] at hq
    split at hq
    case isTrue hj =>
      obtain rfl := Option.some.inj hq
      subst hj
      refine ⟨hi.requests, fun ho => hi.isOpen (ho.imp_right (Or.imp_right (hgreeting _))),
        fun hc => hi.client (hc.imp_right (hgreeting _)), fun _ => Or.inr (Or.inr ?_)⟩
      rw [LightPage.shown, List.getLast?_concat, Option.getD_some, newest]
    case isFalse hj =>
      refine (h.tended j q hq).of_server (hgreeting q) (Finset.Subset.refl _) ?_
      rintro - (⟨b', hb', hmem⟩ | hshown)
      · rw [hb] at hb'
        obtain rfl := Option.some.inj hb'
        exact Or.inl ⟨_, rfl, Finset.mem_erase.mpr ⟨hj, hmem⟩⟩
      · right
        rw [hshown, hnewest, newest]

lemma Inv.assign (h : s.Inv) (hb : s.handling = some b) (hdone : b.remaining = ∅) :
    Inv { s with
      currentToggle := b.message.newToggle
      handling := none
      pages := greet b s.pages } := by
  refine ⟨?_, ?_, ?_⟩
  · intro j hj hnone
    exact h.loaded j hj (Option.map_eq_none_iff.mp hnone)
  · intro b' hb'
    cases hb'
  · intro j q hq
    obtain ⟨p, hp, rfl⟩ := Option.map_eq_some_iff.mp hq
    have hj := h.tended j p hp
    have hgreeting (hg : LightPages.Greeting
        { s with
          currentToggle := b.message.newToggle
          handling := none
          pages := greet b s.pages } j { p with greeted := p.greeted || b.greets j }) :
        s.Greeting j p := by
      rcases hg with hg | ⟨b', hb', -⟩
      · rw [Bool.or_eq_true] at hg
        rcases hg with hg | hg
        · exact Or.inl hg
        · exact Or.inr ⟨b, hb, hg⟩
      · cases hb'
    refine ⟨hj.requests, fun ho => hj.isOpen (ho.imp_right (Or.imp_right hgreeting)),
      fun hc => hj.client (hc.imp_right hgreeting), fun hg => ?_⟩
    rcases hj.shown (hgreeting hg) with hc | ⟨b', hb', hmem⟩ | hshown
    · exact Or.inl hc
    · rw [hb] at hb'
      obtain rfl := Option.some.inj hb'
      rw [hdone] at hmem
      exact absurd hmem (Finset.notMem_empty j)
    · refine Or.inr (Or.inr ?_)
      rw [newest, hb] at hshown
      exact hshown

lemma Inv.step (h : s.Inv) {l : LightPageStep ι} (hs : s.step l = some s') : s'.Inv := by
  cases l with
  | load i =>
    simp only [LightPages.step] at hs
    split at hs
    · cases hs
    case h_2 hi =>
      obtain rfl := Option.some.inj hs
      exact h.setPage (Tended.load h hi)
  | register i visited =>
    simp only [LightPages.step] at hs
    split at hs
    · cases hs
    case h_2 p hi =>
      split at hs
      · cases hs
      · obtain rfl := Option.some.inj hs
        apply h.register
        rw [hi]
        exact Option.some_ne_none p
  | «open» i =>
    obtain ⟨p, q, hp, hq, rfl⟩ := onPage_eq hs
    exact h.setPage ((h.tended i p hp).onopen hq)
  | click i =>
    obtain ⟨p, q, hp, hq, rfl⟩ := onPage_eq hs
    obtain rfl := Option.some.inj hq
    exact h.setPage (h.tended i p hp).toggleLight
  | request i =>
    simp only [LightPages.step] at hs
    split at hs
    case isTrue hi =>
      obtain ⟨p, q, hp, hq, rfl⟩ := onPage_eq hs
      exact h.setPage ((h.tended i p hp).request hi hq)
    case isFalse => cases hs
  | receive i =>
    simp only [LightPages.step] at hs
    split at hs
    case h_1 m _ hm =>
      obtain ⟨p, hp, hm⟩ := Option.bind_eq_some_iff.mp hm
      obtain ⟨t, ht, rfl⟩ := Option.map_eq_some_iff.mp hs
      obtain ⟨p', q, hp', hq, rfl⟩ := onPage_eq ht
      rw [hp] at hp'
      obtain rfl := Option.some.inj hp'
      obtain rfl := Option.some.inj hq
      exact h.receive hp hm
    case h_2 => cases hs
  | write i =>
    simp only [LightPages.step] at hs
    split at hs
    · cases hs
    case h_2 b hb =>
      split at hs
      case isTrue =>
        obtain ⟨t, ht, rfl⟩ := Option.map_eq_some_iff.mp hs
        obtain ⟨p, q, hp, hq, rfl⟩ := onPage_eq ht
        obtain rfl := Option.some.inj hq
        exact h.write hp hb
      case isFalse => cases hs
  | assign =>
    simp only [LightPages.step] at hs
    split at hs
    · cases hs
    case h_2 b hb =>
      split at hs
      case isTrue hdone =>
        obtain rfl := Option.some.inj hs
        exact h.assign hb hdone
      case isFalse => cases hs
  | deliver i =>
    obtain ⟨p, q, hp, hq, rfl⟩ := onPage_eq hs
    exact h.setPage ((h.tended i p hp).onmessage hq)

lemma start_inv : (start : LightPages ι).Inv where
  loaded i hi := absurd hi (Finset.notMem_empty i)
  origin b hb := by cases hb
  tended i p hp := by cases hp

end Server

theorem quiescent_pages_agree {s : LightPages ι} (h : Reaches step free start s) (hq : s.Quiescent)
    (i : ι) (p : LightPage) (hp : s.pages i = some p) (hg : p.greeted = true) :
    p.text = s.currentToggle := by
  have hinv : s.Inv := h.invariant start_inv fun t l t' ht _ hs => ht.step hs
  obtain ⟨hup, hdown, hsend⟩ := hq.pages i p hp
  rcases (hinv.tended i p hp).shown (Or.inl hg) with (⟨v, hv⟩ | ⟨v, hv⟩) | ⟨b, hb, -⟩ | hshown
  · rw [hup] at hv
    cases hv
  · rw [hsend] at hv
    cases hv
  · rw [hq.handling] at hb
    cases hb
  · rw [LightPage.shown, hdown, newest, hq.handling] at hshown
    exact hshown

/-- A page is loaded and greeted, and its button is clicked; the other page is loaded before the server
has heard of it. -/
def meeting : List (LightPageStep Bool) :=
  [.load false, .register false false, .open false, .request false, .receive false, .write false,
    .assign, .deliver false, .click false, .load true, .register true false, .open true,
    .request false, .receive false, .write false, .write true, .assign, .deliver false,
    .deliver true, .request true, .receive true, .write true, .write false, .assign, .deliver true,
    .deliver false]

def dark : LightPage where
  text := ascii "Off"
  isOpen := true
  up := []
  down := []
  sending := none
  greeted := true

set_option maxRecDepth 4000 in
theorem quiescent_pages_agree_meeting : ∃ s : LightPages Bool,
    run step free start meeting = some s ∧ dark.text = s.currentToggle := by
  have hrun : (run step free (start : LightPages Bool) meeting).map
      (fun s => (s.handling, s.pages false, s.pages true)) = some (none, some dark, some dark) := by
    decide
  obtain ⟨s, hs, he⟩ := Option.map_eq_some_iff.mp hrun
  simp only [Prod.mk.injEq] at he
  have hquiet : s.Quiescent := by
    refine ⟨he.1, fun i p hp => ?_⟩
    cases i with
    | false =>
      rw [he.2.1] at hp
      obtain rfl := Option.some.inj hp
      exact ⟨rfl, rfl, rfl⟩
    | true =>
      rw [he.2.2] at hp
      obtain rfl := Option.some.inj hp
      exact ⟨rfl, rfl, rfl⟩
  exact ⟨s, hs, quiescent_pages_agree (reaches_of_run hs) hquiet true dark he.2.2 rfl⟩

end LightPages

end TeamspeakWebserver.Webserver
