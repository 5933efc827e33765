import TeamspeakWebserver.Interruptible.Execution

/-! Assertions that survive the asynchronous events, and what they say of whole runs. -/

namespace TeamspeakWebserver.Interruptible

open Prog

variable {Op : Type} {Res : Op → Type} {σ ι ε α β γ : Type}

structure Rules {Op : Type} (Res : Op → Type) (σ ι ε : Type) where
  machine : Machine Res σ ι ε
  ok : Condition Op σ ι ε
  guarantee : Option Op → σ → Prop

namespace Rules

variable (R : Rules Res σ ι ε)

/-- `P` survives the events that can be delivered before the statement `l`, and has the guarantee
of that point. -/
structure Holds (l : Option Op) (P : σ → Prop) : Prop where
  stable : ∀ s e s', P s → R.ok l s (.async e) → R.machine.async s e = some s' → P s'
  guarantee : ∀ s, P s → R.guarantee l s

structure Atomic (op : Op) (P : σ → Prop) (Q : Res op → σ → Prop) : Prop where
  holds : R.Holds (some op) P
  exec : ∀ s i r s', P s → R.machine.ready s = true → R.ok (some op) s (.main i) →
    R.machine.exec op s i = some (r, s') → Q r s'

lemma Atomic.strengthen {R : Rules Res σ ι ε} {op : Op} {P : σ → Prop} {Q Q' : Res op → σ → Prop}
    (h : R.Atomic op P Q) (hQ : ∀ r s, Q r s → Q' r s) : R.Atomic op P Q' :=
  ⟨h.holds, fun s i r s' hs hr hok he => hQ r s' (h.exec s i r s' hs hr hok he)⟩

/-- Every run of the program from `P` keeps the guarantee, and what it answers satisfies `Q`. -/
def Valid : {α : Type} → (σ → Prop) → Prog Res α → (α → σ → Prop) → Prop
  | _, P, .ret a, Q => ∀ s, P s → Q a s
  | _, P, .act op k, Q => ∃ P' Q', (∀ s, P s → P' s) ∧ R.Atomic op P' Q' ∧
      ∀ r, Valid (Q' r) (k r) Q
  | _, P, .loop body c k, Q => ∃ I Q', (∀ s, P s → I c s) ∧ (∀ c, R.Holds none (I c)) ∧
      (∀ c, Valid (I c) (body c) (Sum.elim I Q')) ∧ ∀ b, Valid (Q' b) (k b) Q

variable {R}

lemma Valid.weaken {P A : σ → Prop} {p : Prog Res α} {Q : α → σ → Prop}
    (h : R.Valid A p Q) (hP : ∀ s, P s → A s) : R.Valid P p Q := by
  cases p with
  | ret a => exact fun s hs => h s (hP s hs)
  | act op k =>
    obtain ⟨P₀, Q₀, hp, ha, hk⟩ := h
    exact ⟨P₀, Q₀, fun s hs => hp s (hP s hs), ha, hk⟩
  | loop body c k =>
    obtain ⟨I, Q₀, hi, hI, hb, hk⟩ := h
    exact ⟨I, Q₀, fun s hs => hi s (hP s hs), hI, hb, hk⟩

lemma Valid.bind {P : σ → Prop} {p : Prog Res α} {Q : α → σ → Prop} {k : α → Prog Res β}
    {Q' : β → σ → Prop} (h : R.Valid P p Q) (hk : ∀ a, R.Valid (Q a) (k a) Q') :
    R.Valid P (p.bind k) Q' := by
  induction p generalizing P with
  | ret a => exact (hk a).weaken h
  | act op f ih =>
    obtain ⟨P₀, Q₀, hp, ha, hf⟩ := h
    exact ⟨P₀, Q₀, hp, ha, fun r => ih r (hf r) hk⟩
  | loop body c f _ ih =>
    obtain ⟨I, Q₀, hi, hI, hb, hf⟩ := h
    exact ⟨I, Q₀, hi, hI, hb, fun b => ih b (hf b) hk⟩

lemma Valid.strengthen {P : σ → Prop} {p : Prog Res α} {Q Q' : α → σ → Prop}
    (h : R.Valid P p Q) (hQ : ∀ a s, Q a s → Q' a s) : R.Valid P p Q' := by
  induction p generalizing P with
  | ret a => exact fun s hs => hQ a s (h s hs)
  | act op f ih =>
    obtain ⟨P₀, Q₀, hp, ha, hf⟩ := h
    exact ⟨P₀, Q₀, hp, ha, fun r => ih r (hf r) hQ⟩
  | loop body c f _ ih =>
    obtain ⟨I, Q₀, hi, hI, hb, hf⟩ := h
    exact ⟨I, Q₀, hi, hI, hb, fun b => ih b (hf b) hQ⟩

lemma Valid.ret {P : σ → Prop} {a : α} {Q : α → σ → Prop} (h : ∀ s, P s → Q a s) :
    R.Valid P (.ret a) Q := h

lemma Valid.act {op : Op} {k : Res op → Prog Res α} {P : σ → Prop} {B : Res op → σ → Prop}
    {Q : α → σ → Prop} (h : R.Atomic op P B) (hk : ∀ r, R.Valid (B r) (k r) Q) :
    R.Valid P (.act op k) Q := ⟨P, B, fun _ hs => hs, h, hk⟩

lemma Valid.call {op : Op} {P : σ → Prop} {Q : Res op → σ → Prop} (h : R.Atomic op P Q) :
    R.Valid P (call op) Q := .act h fun _ _ hs => hs

lemma Valid.iterate {I : γ → σ → Prop} {Q : β → σ → Prop} {body : γ → Prog Res (γ ⊕ β)}
    (hI : ∀ c, R.Holds none (I c)) (hb : ∀ c, R.Valid (I c) (body c) (Sum.elim I Q)) (c : γ) :
    R.Valid (I c) (Prog.iterate body c) Q := ⟨I, Q, fun _ hs => hs, hI, hb, fun _ _ hs => hs⟩

lemma Valid.each {J : σ → Prop} {f : α → Prog Res Unit} {as : List α}
    (h : ∀ a ∈ as, R.Valid J (f a) fun _ => J) : R.Valid J (Prog.each f as) fun _ => J := by
  induction as with
  | nil => exact fun _ hs => hs
  | cons a as ih =>
    exact (h a (by simp)).bind fun _ => ih fun b hb => h b (by simp [hb])

lemma Valid.absurd {P : σ → Prop} (hP : ∀ s, ¬ P s) {p : Prog Res α} {Q : α → σ → Prop} :
    R.Valid P p Q := by
  induction p generalizing P with
  | ret a => exact fun s hs => (hP s hs).elim
  | act op k ih =>
    refine ⟨P, fun _ _ => False, fun _ hs => hs, ⟨⟨?_, ?_⟩, ?_⟩, fun r => ih r fun _ h => h⟩
    · exact fun s _ _ hs => (hP s hs).elim
    · exact fun s hs => (hP s hs).elim
    · exact fun s _ _ _ hs => (hP s hs).elim
  | loop body c k ihb ihk =>
    refine ⟨fun _ _ => False, fun _ _ => False, hP, fun _ => ⟨?_, ?_⟩, fun c => ?_,
      fun b => ihk b fun _ h => h⟩
    · exact fun _ _ _ h => h.elim
    · exact fun _ h => h.elim
    · exact ihb c fun _ h => h

lemma Valid.of_fact {P : σ → Prop} {a : Prop} {p : Prog Res α} {Q : α → σ → Prop}
    (h : a → R.Valid P p Q) : R.Valid (fun s => P s ∧ a) p Q := by
  by_cases ha : a
  · exact (h ha).weaken fun s hs => hs.1
  · exact .absurd fun s hs => ha hs.2

def Keeps (R : Rules Res σ ι ε) (J : σ → Prop) (op : Op) : Prop := R.Atomic op J fun _ => J

lemma Valid.of_uses {J : σ → Prop} (hJ : R.Holds none J) {p : Prog Res α}
    (h : p.Uses (R.Keeps J)) : R.Valid J p fun _ => J := by
  induction p with
  | ret a => exact fun _ hs => hs
  | act op k ih => exact .act h.1 fun r => ih r (h.2 r)
  | loop body c k ihb ihk =>
    refine ⟨fun _ => J, fun _ => J, fun _ hs => hs, fun _ => hJ, fun c => ?_, fun b => ihk b (h.2 b)⟩
    exact (ihb c (h.1 c)).strengthen fun r s hs => by cases r <;> exact hs

def Sound (R : Rules Res σ ι ε) (Q : α → σ → Prop) (c : Config Res σ α) : Prop :=
  ∃ P, P c.st ∧ R.Valid P c.prog Q

lemma Sound.guarantee {Q : α → σ → Prop} (hQ : ∀ a, R.Holds none (Q a)) {c : Config Res σ α}
    (h : R.Sound Q c) : R.guarantee c.prog.next c.st := by
  obtain ⟨p, s⟩ := c
  obtain ⟨P, hP, hv⟩ := h
  cases p with
  | ret a => exact (hQ a).guarantee s (hv s hP)
  | act op k =>
    obtain ⟨P', Q', hp, ha, _⟩ := hv
    exact ha.holds.guarantee s (hp s hP)
  | loop body c k =>
    obtain ⟨I, Q', hi, hI, _, _⟩ := hv
    exact (hI c).guarantee s (hi s hP)

lemma Sound.async {Q : α → σ → Prop} (hQ : ∀ a, R.Holds none (Q a)) {p : Prog Res α} {s s' : σ}
    {e : ε} (h : R.Sound Q ⟨p, s⟩) (hok : R.ok p.next s (.async e))
    (he : R.machine.async s e = some s') : R.Sound Q ⟨p, s'⟩ := by
  obtain ⟨P, hP, hv⟩ := h
  cases p with
  | ret a => exact ⟨Q a, (hQ a).stable s e s' (hv s hP) hok he, fun _ ht => ht⟩
  | act op k =>
    obtain ⟨P', Q', hp, ha, hk⟩ := hv
    exact ⟨P', ha.holds.stable s e s' (hp s hP) hok he, P', Q', fun _ ht => ht, ha, hk⟩
  | loop body c k =>
    obtain ⟨I, Q', hi, hI, hb, hk⟩ := hv
    exact ⟨I c, (hI c).stable s e s' (hi s hP) hok he, I, Q', fun _ ht => ht, hI, hb, hk⟩

lemma Sound.step {Q : α → σ → Prop} (hQ : ∀ a, R.Holds none (Q a)) {c d : Config Res σ α}
    {i : Input ι ε} (h : R.Sound Q c) (hok : R.ok c.prog.next c.st i)
    (hs : R.machine.step c i = some d) : R.Sound Q d := by
  obtain ⟨p, s⟩ := c
  cases i with
  | async e =>
    obtain ⟨s', he, rfl⟩ := Option.map_eq_some_iff.mp hs
    exact h.async hQ hok he
  | main i =>
    rw [Machine.step] at hs
    split at hs
    case isFalse => cases hs
    case isTrue hr =>
      obtain ⟨P, hP, hv⟩ := h
      cases p with
      | ret a => cases hs
      | act op k =>
        obtain ⟨⟨r, s'⟩, he, rfl⟩ := Option.map_eq_some_iff.mp hs
        obtain ⟨P', Q', hp, ha, hk⟩ := hv
        exact ⟨Q' r, ha.exec s i r s' (hp s hP) hr hok he, hk r⟩
      | loop body c k =>
        obtain rfl := Option.some.inj hs
        obtain ⟨I, Q', hi, hI, hb, hk⟩ := hv
        refine ⟨I c, hi s hP, (hb c).bind fun r => ?_⟩
        cases r with
        | inl c' => exact ⟨I, Q', fun _ ht => ht, hI, hb, hk⟩
        | inr b => exact hk b

lemma Valid.sound {P : σ → Prop} {p : Prog Res α} {Q : α → σ → Prop} (h : R.Valid P p Q)
    (hQ : ∀ a, R.Holds none (Q a)) {s : σ} (hs : P s) {c : Config Res σ α}
    (hr : R.machine.Reaches R.ok ⟨p, s⟩ c) : R.Sound Q c := by
  induction hr with
  | refl => exact ⟨P, hs, h⟩
  | tail i _ hi he ih => exact ih.step hQ hi he

theorem Valid.guarantee {P : σ → Prop} {p : Prog Res α} {Q : α → σ → Prop} (h : R.Valid P p Q)
    (hQ : ∀ a, R.Holds none (Q a)) {s : σ} (hs : P s) {c : Config Res σ α}
    (hr : R.machine.Reaches R.ok ⟨p, s⟩ c) : R.guarantee c.prog.next c.st :=
  (h.sound hQ hs hr).guarantee hQ

theorem Valid.answers {P : σ → Prop} {p : Prog Res α} {Q : α → σ → Prop} (h : R.Valid P p Q)
    (hQ : ∀ a, R.Holds none (Q a)) {s s' : σ} (hs : P s) {a : α}
    (hr : R.machine.Reaches R.ok ⟨p, s⟩ ⟨.ret a, s'⟩) : Q a s' := by
  obtain ⟨P', hP, hv⟩ := h.sound hQ hs hr
  exact hv s' hP

end Rules

end TeamspeakWebserver.Interruptible
