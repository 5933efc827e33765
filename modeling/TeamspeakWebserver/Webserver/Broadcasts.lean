import TeamspeakWebserver.Webserver.Registry

/-! What the web clients get of the messages that `handleMessages` takes off its channels. -/

namespace TeamspeakWebserver.Webserver

open Labelled

variable {ι μ : Type} [DecidableEq ι]

/-- The registry, the messages taken off the channels and those written to each websocket. For each
client `first` counts the messages that were taken before it came, and a client in `lost` has stayed
although a write to it has failed. -/
structure Feed (ι μ : Type) where
  registry : Registry ι
  sent : List μ
  got : ι → List μ
  first : ι → ℕ
  lost : Finset ι

namespace Feed

def start : Feed ι μ := ⟨.start, [], fun _ => [], fun _ => 0, ∅⟩

def pending (f : Feed ι μ) (i : ι) : List μ :=
  match f.registry.sending with
  | some b => if i ∈ b.remaining then f.sent.getLast?.toList else []
  | none => []

/-- A client that connects gets the message that is being sent where the loop comes to it. -/
def connect (f : Feed ι μ) (r : Registry ι) (i : ι) : Feed ι μ :=
  let f' := { f with registry := r }
  { f' with first := Function.update f.first i (f.sent.length - (f'.pending i).length) }

def write (f : Feed ι μ) (r : Registry ι) (i : ι) (fails : Bool) : Feed ι μ :=
  if fails then
    { f with registry := r, lost := if i ∈ r.clients then insert i f.lost else f.lost }
  else { f with registry := r, got := Function.update f.got i (f.got i ++ f.sent.getLast?.toList) }

def step (tsconn : Bool) (unmarshal : Bytes → Option Bytes) (f : Feed ι μ) :
    RegistryStep ι × μ → Option (Feed ι μ)
  | (l, m) => (f.registry.step tsconn unmarshal l).map fun r =>
    match l with
    | .connect i _ => f.connect r i
    | .begin _ => { f with registry := r, sent := f.sent ++ [m] }
    | .write i fails => f.write r i fails
    | _ => { f with registry := r }

structure Heard (f : Feed ι μ) (i : ι) : Prop where
  range : f.first i ≤ f.sent.length
  ordered : (f.got i ++ f.pending i).Sublist (f.sent.drop (f.first i))
  unbroken : i ∉ f.lost → f.got i ++ f.pending i <+: f.sent.drop (f.first i)
  complete : i ∉ f.lost → i ∈ f.registry.clients →
    f.got i ++ f.pending i = f.sent.drop (f.first i)

structure Inv (f : Feed ι μ) : Prop where
  begun : f.registry.sending ≠ none → f.sent ≠ []
  recipients : ∀ b, f.registry.sending = some b → b.remaining ⊆ f.registry.clients
  absent : ∀ i, f.registry.handlers i = .absent → i ∉ f.registry.clients ∧ f.got i = []
  heard : ∀ i, f.Heard i

section Step

variable {f f' : Feed ι μ} {r : Registry ι} {i j : ι} {m : μ} {b : Sending ι}

lemma pending_none (h : f.registry.sending = none) (i : ι) : f.pending i = [] := by
  rw [pending, h]

lemma pending_mem (h : f.registry.sending = some b) (hi : i ∈ b.remaining) :
    f.pending i = f.sent.getLast?.toList := by
  rw [pending, h]
  exact if_pos hi

lemma pending_not_mem (h : f.registry.sending = some b) (hi : i ∉ b.remaining) : f.pending i = [] := by
  rw [pending, h]
  exact if_neg hi

lemma Heard.congr (h : f.Heard i) (hs : f'.sent = f.sent) (hg : f'.got i = f.got i)
    (hp : f'.pending i = f.pending i) (hf : f'.first i = f.first i) (hl : i ∉ f'.lost → i ∉ f.lost)
    (hc : i ∈ f'.registry.clients → i ∈ f.registry.clients) : f'.Heard i := by
  refine ⟨?_, ?_, fun hi => ?_, fun hi hi' => ?_⟩
  · rw [hs, hf]
    exact h.range
  · rw [hs, hg, hp, hf]
    exact h.ordered
  · rw [hs, hg, hp, hf]
    exact h.unbroken (hl hi)
  · rw [hs, hg, hp, hf]
    exact h.complete (hl hi) (hc hi')

lemma drop_last (ms : List μ) : ms.drop (ms.length - ms.getLast?.toList.length) = ms.getLast?.toList := by
  rcases List.eq_nil_or_concat ms with rfl | ⟨ms, m, rfl⟩
  · rfl
  · simp

lemma pending_visit (hi : i ≠ j) {visited : Bool}
    (hr : f'.registry.sending = f.registry.sending.map (Sending.visit j visited))
    (hsent : f'.sent = f.sent) : f'.pending i = f.pending i := by
  cases hs : f.registry.sending with
  | none =>
    rw [hs] at hr
    rw [pending_none hr, pending_none hs]
  | some b =>
    have hmem : i ∈ (b.visit j visited).remaining ↔ i ∈ b.remaining := by
      rw [Sending.visit]
      split
      · rw [Finset.mem_insert, or_iff_right hi]
      · rfl
    rw [hs] at hr
    by_cases hb : i ∈ b.remaining
    · rw [pending_mem hr (hmem.mpr hb), pending_mem hs hb, hsent]
    · rw [pending_not_mem hr (mt hmem.mp hb), pending_not_mem hs hb]

lemma pending_cases (f : Feed ι μ) (i : ι) : f.pending i = [] ∨ f.pending i = f.sent.getLast?.toList := by
  rw [pending]
  split
  · split
    · exact Or.inr rfl
    · exact Or.inl rfl
  · exact Or.inl rfl

lemma Inv.connect {visited : Bool} (h : f.Inv) (hi : f.registry.handlers i = .absent) :
    (f.connect { f.registry with
      clients := insert i f.registry.clients
      handlers := Function.update f.registry.handlers i .running
      sending := f.registry.sending.map (Sending.visit i visited) } i).Inv := by
  refine ⟨fun hs => h.begun (by simpa [Feed.connect] using hs), fun b hb => ?_, fun j hj => ?_,
    fun j => ?_⟩
  · obtain ⟨b', hb', rfl⟩ := Option.map_eq_some_iff.mp hb
    exact Registry.visit_subset (h.recipients b' hb')
  · have hne : j ≠ i := by
      rintro rfl
      simp [Feed.connect] at hj
    have habsent : f.registry.handlers j = .absent := by
      simpa [Feed.connect, Function.update_of_ne hne] using hj
    obtain ⟨hc, hg⟩ := h.absent j habsent
    exact ⟨fun hm => (Finset.mem_insert.mp hm).elim hne hc, hg⟩
  · by_cases hj : j = i
    · subst hj
      set f' := f.connect _ j with hf'
      have hgot : f'.got j = [] := (h.absent j hi).2
      have hfirst : f'.first j = f.sent.length - (f'.pending j).length := Function.update_self j _ _
      have hdrop : f'.pending j = f'.sent.drop (f'.first j) := by
        have hsent : f'.sent = f.sent := rfl
        rw [hfirst, hsent]
        rcases pending_cases f' j with hp | hp
        · rw [hp, List.length_nil, Nat.sub_zero, List.drop_length]
        · rw [hp, hsent, drop_last]
      refine ⟨?_, ?_, fun _ => ?_, fun _ _ => ?_⟩
      · rw [hfirst]
        exact Nat.sub_le _ _
      · rw [hgot, List.nil_append, hdrop]
      · rw [hgot, List.nil_append, hdrop]
      · rw [hgot, List.nil_append, hdrop]
    · refine (h.heard j).congr rfl rfl (pending_visit hj rfl rfl) ?_ id fun hm => ?_
      · exact Function.update_of_ne hj _ _
      · exact (Finset.mem_insert.mp hm).resolve_left hj

lemma Inv.begin (h : f.Inv) (hs : f.registry.sending = none) (chan : MessageChan) (m : μ) :
    Inv { f with
      registry := { f.registry with sending := some ⟨chan, f.registry.clients⟩ }
      sent := f.sent ++ [m] } := by
  refine ⟨fun _ => by simp, fun b hb => ?_, h.absent, fun i => ?_⟩
  · obtain rfl := Option.some.inj hb
    exact Finset.Subset.refl _
  · obtain ⟨hrange, hordered, hunbroken, hcomplete⟩ := h.heard i
    rw [pending_none hs, List.append_nil] at hordered hunbroken hcomplete
    have hdrop : (f.sent ++ [m]).drop (f.first i) = f.sent.drop (f.first i) ++ [m] :=
      List.drop_append_of_le_length hrange
    set f' : Feed ι μ := { f with
      registry := { f.registry with sending := some ⟨chan, f.registry.clients⟩ }
      sent := f.sent ++ [m] } with hf'
    by_cases hi : i ∈ f.registry.clients
    · have hp : f'.pending i = [m] := by
        rw [pending_mem (f := f') rfl hi]
        simp [hf']
      refine ⟨?_, ?_, fun hl => ?_, fun hl _ => ?_⟩
      · exact hrange.trans (by simp [hf'])
      · rw [hp]
        exact (hordered.append_right [m]).trans (by rw [← hdrop])
      · rw [hp]
        exact (congrArg (· ++ [m]) (hcomplete hl hi)).trans hdrop.symm ▸ List.prefix_rfl
      · rw [hp]
        exact (congrArg (· ++ [m]) (hcomplete hl hi)).trans hdrop.symm
    · have hp : f'.pending i = [] := pending_not_mem (f := f') rfl hi
      refine ⟨?_, ?_, fun hl => ?_, fun _ hi' => absurd hi' hi⟩
      · exact hrange.trans (by simp [hf'])
      · rw [hp, List.append_nil]
        exact hordered.trans (by rw [hf', hdrop]; exact List.sublist_append_left _ _)
      · rw [hp, List.append_nil]
        exact (hunbroken hl).trans (by rw [hf', hdrop]; exact List.prefix_append _ _)

lemma pending_erase (hi : i ≠ j) (hs : f.registry.sending = some b)
    (hr : f'.registry.sending = some { b with remaining := b.remaining.erase j })
    (hsent : f'.sent = f.sent) : f'.pending i = f.pending i := by
  by_cases hb : i ∈ b.remaining
  · rw [pending_mem hr (Finset.mem_erase.mpr ⟨hi, hb⟩), pending_mem hs hb, hsent]
  · rw [pending_not_mem hr (fun hm => hb (Finset.mem_of_mem_erase hm)), pending_not_mem hs hb]

def written (r : Registry ι) (b : Sending ι) (i : ι) (fails : Bool) : Registry ι :=
  let r' := { r with sending := some { b with remaining := b.remaining.erase i } }
  if fails && b.chan.checked then r'.drop i else r'

lemma written_sending (r : Registry ι) (b : Sending ι) (i : ι) (fails : Bool) :
    (written r b i fails).sending = some { b with remaining := b.remaining.erase i } := by
  rw [written]
  split <;> rfl

lemma written_handlers (r : Registry ι) (b : Sending ι) (i : ι) (fails : Bool) :
    (written r b i fails).handlers = r.handlers := by
  rw [written]
  split <;> rfl

lemma written_other (r : Registry ι) (b : Sending ι) (hi : i ≠ j) (fails : Bool) :
    i ∈ (written r b j fails).clients ↔ i ∈ r.clients := by
  rw [written]
  split
  · exact (Finset.mem_erase.trans (and_iff_right hi))
  · rfl

lemma written_subset (r : Registry ι) (b : Sending ι) (i : ι) (fails : Bool)
    (h : b.remaining ⊆ r.clients) : b.remaining.erase i ⊆ (written r b i fails).clients := by
  intro j hj
  obtain ⟨hne, hj⟩ := Finset.mem_erase.mp hj
  exact (written_other r b hne fails).mpr (h hj)

lemma Inv.write {fails : Bool} (h : f.Inv) (hs : f.registry.sending = some b) (hi : i ∈ b.remaining) :
    (f.write (written f.registry b i fails) i fails).Inv := by
  set f' := f.write (written f.registry b i fails) i fails with hf'
  have hreg : f'.registry = written f.registry b i fails := by
    rw [hf', Feed.write]
    split <;> rfl
  have hsent : f'.sent = f.sent := by
    rw [hf', Feed.write]
    split <;> rfl
  have hfirst : f'.first = f.first := by
    rw [hf', Feed.write]
    split <;> rfl
  have hsending : f'.registry.sending = some { b with remaining := b.remaining.erase i } := by
    rw [hreg, written_sending]
  have hother (j : ι) (hj : j ≠ i) : f'.got j = f.got j ∧ (j ∉ f'.lost → j ∉ f.lost) := by
    rw [hf', Feed.write]
    split
    · refine ⟨rfl, fun hl hm => hl ?_⟩
      dsimp only
      split
      · exact Finset.mem_insert_of_mem hm
      · exact hm
    · exact ⟨Function.update_of_ne hj _ _, id⟩
  refine ⟨fun _ => ?_, fun b' hb' => ?_, fun j hj => ?_, fun j => ?_⟩
  · rw [hsent]
    apply h.begun
    rw [hs]
    exact Option.some_ne_none b
  · rw [hsending] at hb'
    obtain rfl := Option.some.inj hb'
    rw [hreg]
    exact written_subset f.registry b i fails (h.recipients b hs)
  · rw [hreg, written_handlers] at hj
    obtain ⟨hc, hg⟩ := h.absent j hj
    have hne : j ≠ i := by
      rintro rfl
      exact hc (h.recipients b hs hi)
    rw [hreg, written_other _ _ hne, (hother j hne).1]
    exact ⟨hc, hg⟩
  · by_cases hj : j = i
    · subst hj
      have hnone : f'.pending j = [] := pending_not_mem hsending (Finset.notMem_erase j _)
      have hclients : j ∈ f.registry.clients := h.recipients b hs hi
      obtain ⟨hrange, hordered, hunbroken, hcomplete⟩ := h.heard j
      rw [pending_mem hs hi] at hordered hunbroken hcomplete
      cases fails with
      | false =>
        have hgot : f'.got j = f.got j ++ f.sent.getLast?.toList := Function.update_self j _ _
        refine ⟨?_, ?_, fun hl => ?_, fun hl _ => ?_⟩
        · rwa [hsent, hfirst]
        · rwa [hnone, List.append_nil, hgot, hsent, hfirst]
        · rw [hnone, List.append_nil, hgot, hsent, hfirst]
          exact hunbroken hl
        · rw [hnone, List.append_nil, hgot, hsent, hfirst]
          exact hcomplete hl hclients
      | true =>
        have hgot : f'.got j = f.got j := rfl
        have hlost : f'.lost = if j ∈ f'.registry.clients then insert j f.lost else f.lost := rfl
        refine ⟨?_, ?_, fun hl => ?_, fun hl hc => ?_⟩
        · rwa [hsent, hfirst]
        · rw [hnone, List.append_nil, hgot, hsent, hfirst]
          exact (List.sublist_append_left _ _).trans hordered
        · rw [hnone, List.append_nil, hgot, hsent, hfirst]
          refine (List.prefix_append _ _).trans (hunbroken fun hm => hl ?_)
          rw [hlost]
          split
          · exact Finset.mem_insert_of_mem hm
          · exact hm
        · rw [hlost, if_pos hc] at hl
          exact absurd (Finset.mem_insert_self j _) hl
    · refine (h.heard j).congr hsent (hother j hj).1 (pending_erase hj hs hsending hsent)
        (by rw [hfirst]) (hother j hj).2 fun hm => ?_
      rwa [hreg, written_other _ _ hj] at hm

lemma Inv.congr (h : f.Inv) (hc : r.clients = f.registry.clients)
    (hs : r.sending = f.registry.sending)
    (ha : ∀ i, r.handlers i = .absent → f.registry.handlers i = .absent) :
    Inv { f with registry := r } := by
  refine ⟨fun hn => ?_, fun b hb => ?_, fun i hi => ?_, fun i => ?_⟩
  · exact h.begun (by rwa [← hs])
  · rw [hc]
    exact h.recipients b (hs.symm.trans hb)
  · rw [hc]
    exact h.absent i (ha i hi)
  · refine (h.heard i).congr rfl rfl ?_ rfl id fun hm => by rwa [← hc]
    rw [pending, pending, hs]

lemma Inv.finish (h : f.Inv) (hs : f.registry.sending = some b) (hb : b.remaining = ∅) :
    Inv { f with registry := { f.registry with sending := none } } := by
  refine ⟨fun hn => absurd rfl hn, fun b' hb' => ?_, h.absent, fun i => ?_⟩
  · cases hb'
  refine (h.heard i).congr rfl rfl ?_ rfl id id
  rw [pending_none rfl, pending_not_mem hs]
  rw [hb]
  exact Finset.notMem_empty i

lemma Inv.step {tsconn : Bool} {unmarshal : Bytes → Option Bytes} {l : RegistryStep ι × μ} (h : f.Inv)
    (hs : f.step tsconn unmarshal l = some f') : f'.Inv := by
  obtain ⟨l, m⟩ := l
  obtain ⟨r, hr, rfl⟩ := Option.map_eq_some_iff.mp hs
  cases l with
  | connect i visited =>
    rw [Registry.step] at hr
    split at hr
    case isTrue hi =>
      rw [← Option.some.inj hr]
      exact h.connect hi
    case isFalse => cases hr
  | read i p =>
    change Inv { f with registry := r }
    rw [Registry.step] at hr
    split at hr
    case isTrue =>
      rw [← Option.some.inj hr]
      split
      · refine h.congr rfl rfl fun j hj => ?_
        simp only [Registry.leave, Function.update_apply] at hj
        split at hj
        · cases hj
        · exact hj
      · exact h
    case isFalse => cases hr
  | begin chan =>
    rw [Registry.step] at hr
    split at hr
    case h_1 => cases hr
    case h_2 hnone =>
      rw [← Option.some.inj hr]
      exact h.begin hnone chan m
  | write i fails =>
    rw [Registry.step] at hr
    split at hr
    case h_1 => cases hr
    case h_2 b hb =>
      split at hr
      case isTrue hi =>
        rw [← Option.some.inj hr]
        exact h.write hb hi.1
      case isFalse => cases hr
  | finish =>
    rw [Registry.step] at hr
    split at hr
    case h_1 => cases hr
    case h_2 b hb =>
      split at hr
      case isTrue he =>
        rw [← Option.some.inj hr]
        exact h.finish hb he
      case isFalse => cases hr

lemma start_inv : (start : Feed ι μ).Inv where
  begun hn := absurd rfl hn
  recipients _ hb := by cases hb
  absent i _ := ⟨Finset.notMem_empty i, rfl⟩
  heard _ := ⟨le_rfl, List.Sublist.refl _, fun _ => List.prefix_rfl, fun _ _ => rfl⟩

end Step

section Order

variable {tsconn : Bool} {unmarshal : Bytes → Option Bytes} {f : Feed ι μ} {i j : ι}

lemma heard_of_reaches (h : Reaches (step tsconn unmarshal) free start f) (i : ι) : f.Heard i := by
  have hinv : f.Inv := h.invariant start_inv fun _ _ _ ht _ hs => ht.step hs
  exact hinv.heard i

lemma suffix_total (ms : List μ) (a b : ℕ) : ms.drop a <:+ ms.drop b ∨ ms.drop b <:+ ms.drop a :=
  (Nat.le_total b a).imp (fun h => List.drop_suffix_drop_left ms h) fun h =>
    List.drop_suffix_drop_left ms h

theorem told_in_order (h : Reaches (step tsconn unmarshal) free (start : Feed ι μ) f) :
    (∀ i, (f.got i).Sublist (f.sent.drop (f.first i))) ∧
    (∀ i ∉ f.lost, f.got i <+: f.sent.drop (f.first i)) ∧
    (∀ i ∈ f.registry.clients, i ∉ f.lost → f.got i ++ f.pending i = f.sent.drop (f.first i)) ∧
    (f.registry.sending = none → ∀ i ∈ f.registry.clients, ∀ j ∈ f.registry.clients,
      i ∉ f.lost → j ∉ f.lost → f.got i <:+ f.got j ∨ f.got j <:+ f.got i) := by
  have hheard := heard_of_reaches h
  refine ⟨fun i => ?_, fun i hi => ?_, fun i hc hi => (hheard i).complete hi hc, ?_⟩
  · exact (List.sublist_append_left _ _).trans (hheard i).ordered
  · exact (List.prefix_append _ _).trans ((hheard i).unbroken hi)
  · intro hs i hi j hj hil hjl
    have hall (k : ι) (hk : k ∈ f.registry.clients) (hkl : k ∉ f.lost) :
        f.got k = f.sent.drop (f.first k) := by
      have hk' := (hheard k).complete hkl hk
      rwa [pending_none hs, List.append_nil] at hk'
    rw [hall i hi hil, hall j hj hjl]
    exact suffix_total f.sent _ _

def latecomer : List (RegistryStep ℕ × ℕ) :=
  [(.connect 0 false, 0), (.begin .clientList, 7), (.write 0 false, 0), (.finish, 0),
    (.begin .serverMsg, 8), (.connect 1 true, 0), (.write 1 false, 0), (.write 0 false, 0), (.finish, 0)]

theorem told_in_order_latecomer : ∃ f : Feed ℕ ℕ, f.got 0 = [7, 8] ∧ f.got 1 = [8] ∧
    f.got 1 <+: f.sent.drop (f.first 1) := by
  have hrun : (run (step true fun _ => none) free (start : Feed ℕ ℕ) latecomer).map
      (fun f => (f.got 0, f.got 1, decide (1 ∈ f.lost))) = some ([7, 8], [8], false) := by
    decide
  obtain ⟨f, hf, he⟩ := Option.map_eq_some_iff.mp hrun
  simp only [Prod.mk.injEq, decide_eq_false_iff_not] at he
  exact ⟨f, he.1, he.2.1, (told_in_order (reaches_of_run hf)).2.1 1 he.2.2⟩

end Order

end Feed

end TeamspeakWebserver.Webserver
