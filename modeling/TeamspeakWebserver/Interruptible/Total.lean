import TeamspeakWebserver.Interruptible.Logic

/-! Programs that come to their end within a number of steps of the main thread, whatever events
fall between them. -/

namespace TeamspeakWebserver.Interruptible

open Prog

variable {Op : Type} {Res : Op → Type} {σ ι ε α β γ : Type}

def Input.isMain : Input ι ε → Bool
  | .main _ => true
  | .async _ => false

def mainSteps (tr : List (Option Op × σ × Input ι ε)) : ℕ := tr.countP fun x => x.2.2.isMain

/-- From `c` the program ends in `Q` after at most `n` steps of the main thread, and before that it
can always go on once no event has to be delivered first. -/
structure Machine.Returns (M : Machine Res σ ι ε) (Q : α → σ → Prop) (n : ℕ)
    (c : Config Res σ α) : Prop where
  bounded : ∀ tr d, M.Runs c tr d → mainSteps tr ≤ n
  goes_on : ∀ tr d, M.Runs c tr d →
    (∃ a, d.prog = .ret a ∧ Q a d.st) ∨ (M.ready d.st = true → ∃ i e, M.step d (.main i) = some e)

namespace Rules

variable (R : Rules Res σ ι ε)

def Goes (op : Op) (s : σ) : Prop :=
  R.machine.ready s = true → ∃ i, (R.machine.exec op s i).isSome = true

/-- Every run of the program from `P` comes to its end in `Q` after at most `n` steps. A loop is
unrolled once a step. -/
def Takes (Q : α → σ → Prop) : ℕ → (σ → Prop) → Prog Res α → Prop
  | _, P, .ret a => ∀ s, P s → Q a s
  | n + 1, P, .act op k => ∃ P' Q', (∀ s, P s → P' s) ∧ (∀ s, P' s → R.Goes op s) ∧
      R.Atomic op P' Q' ∧ ∀ r, Takes Q n (Q' r) (k r)
  | n + 1, P, .loop body c k => ∃ P', (∀ s, P s → P' s) ∧ R.Holds none P' ∧
      Takes Q n P' ((body c).bind (Sum.elim (fun b => .loop body b k) k))
  | 0, P, _ => ∀ s, ¬ P s

variable {R}

namespace Takes

variable {Q : α → σ → Prop} {P A : σ → Prop} {n m : ℕ}

lemma weaken {p : Prog Res α} (h : R.Takes Q n A p) (hP : ∀ s, P s → A s) : R.Takes Q n P p := by
  cases p with
  | ret a =>
    cases n <;> exact fun s hs => h s (hP s hs)
  | act op k =>
    cases n with
    | zero => exact fun s hs => h s (hP s hs)
    | succ n =>
      obtain ⟨P₀, Q₀, hp, ha⟩ := h
      exact ⟨P₀, Q₀, fun s hs => hp s (hP s hs), ha⟩
  | loop body c k =>
    cases n with
    | zero => exact fun s hs => h s (hP s hs)
    | succ n =>
      obtain ⟨P₀, hp, ha⟩ := h
      exact ⟨P₀, fun s hs => hp s (hP s hs), ha⟩

lemma absurd (hP : ∀ s, ¬ P s) {p : Prog Res α} : R.Takes Q n P p := by
  have hf {s : σ} {a : Prop} (hs : P s) : a := (hP s hs).elim
  induction n generalizing P p with
  | zero => cases p <;> exact fun s hs => hf hs
  | succ n ih =>
    cases p with
    | ret a => exact fun s hs => hf hs
    | act op k =>
      exact ⟨P, fun _ => P, fun _ hs => hs, fun _ hs => hf hs,
        ⟨⟨fun _ _ _ hs => hf hs, fun _ hs => hf hs⟩, fun _ _ _ _ hs => hf hs⟩, fun r => ih hP hf⟩
    | loop body c k =>
      exact ⟨P, fun _ hs => hs, ⟨fun _ _ _ hs => hf hs, fun _ hs => hf hs⟩, ih hP hf⟩

lemma mono {p : Prog Res α} (h : R.Takes Q n P p) (hm : n ≤ m) : R.Takes Q m P p := by
  induction n generalizing m P p with
  | zero =>
    cases p with
    | ret a => cases m <;> exact h
    | act op k => exact absurd h
    | loop body c k => exact absurd h
  | succ n ih =>
    obtain ⟨m, rfl⟩ : ∃ l, m = l + 1 := ⟨m - 1, by omega⟩
    cases p with
    | ret a => exact h
    | act op k =>
      obtain ⟨P₀, Q₀, hp, hg, ha, hk⟩ := h
      exact ⟨P₀, Q₀, hp, hg, ha, fun r => ih (hk r) (by omega)⟩
    | loop body c k =>
      obtain ⟨P₀, hp, hI, hk⟩ := h
      exact ⟨P₀, hp, hI, ih hk (by omega)⟩

lemma act {op : Op} {k : Res op → Prog Res α} {B : Res op → σ → Prop} (h : R.Atomic op P B)
    (hgo : ∀ s, P s → R.Goes op s) (hk : ∀ r, R.Takes Q n (B r) (k r)) :
    R.Takes Q (n + 1) P (.act op k) := ⟨P, B, fun _ hs => hs, hgo, h, hk⟩

lemma bind {p : Prog Res α} {k : α → Prog Res β} {Q' : β → σ → Prop} (h : R.Takes Q n P p)
    (hk : ∀ a, R.Takes Q' m (Q a) (k a)) : R.Takes Q' (n + m) P (p.bind k) := by
  induction n generalizing P p with
  | zero =>
    rw [Nat.zero_add]
    cases p with
    | ret a => exact (hk a).weaken h
    | act op f => exact absurd h
    | loop body c f => exact absurd h
  | succ n ih =>
    cases p with
    | ret a => exact ((hk a).weaken h).mono (by omega)
    | act op f =>
      obtain ⟨P₀, Q₀, hp, hg, ha, hf⟩ := h
      rw [Nat.add_right_comm]
      exact ⟨P₀, Q₀, hp, hg, ha, fun r => ih (hf r)⟩
    | loop body c f =>
      obtain ⟨P₀, hp, hI, hf⟩ := h
      rw [Nat.add_right_comm]
      refine ⟨P₀, hp, hI, ?_⟩
      have hb := ih hf
      rw [Prog.bind_assoc] at hb
      convert hb using 2
      funext r
      cases r <;> rfl

lemma of_fact {a : Prop} {p : Prog Res α} (h : a → R.Takes Q n P p) :
    R.Takes Q n (fun s => P s ∧ a) p := by
  by_cases ha : a
  · exact (h ha).weaken fun s hs => hs.1
  · exact absurd fun s hs => ha hs.2

/-- A loop whose turns, of at most `t` steps, use up the measure `v`. -/
lemma iterate {I : ℕ → γ → σ → Prop} {Q : β → σ → Prop} {body : γ → Prog Res (γ ⊕ β)} {t : ℕ}
    (hzero : ∀ c s, ¬ I 0 c s)
    (hI : ∀ v c, R.Holds none (I v c))
    (hbody : ∀ v c, R.Takes (Sum.elim (I v) Q) t (I (v + 1) c) (body c)) (v : ℕ) (c : γ) :
    R.Takes Q (v * (t + 1)) (I v c) (iterate body c) := by
  induction v generalizing c with
  | zero => exact absurd (hzero c)
  | succ v ih =>
    rw [Nat.succ_mul, ← Nat.add_assoc]
    refine ⟨I (v + 1) c, fun _ hs => hs, hI _ c, ?_⟩
    rw [Nat.add_comm]
    refine bind (hbody v c) fun r => ?_
    cases r with
    | inl c' => exact ih c'
    | inr b => cases v * (t + 1) <;> exact fun _ hs => hs

end Takes

def Timed (R : Rules Res σ ι ε) (Q : α → σ → Prop) (n : ℕ) (c : Config Res σ α) : Prop :=
  ∃ P, P c.st ∧ R.Takes Q n P c.prog

section Timed

variable {Q : α → σ → Prop} {n : ℕ} {c d : Config Res σ α} (hQ : ∀ a, R.Holds none (Q a))
  (hok : ∀ l s i, R.ok l s i)

include hQ hok in
lemma Timed.async (h : R.Timed Q n c) {e : ε} (hs : R.machine.step c (.async e) = some d) :
    R.Timed Q n d := by
  obtain ⟨p, s⟩ := c
  obtain ⟨s', he, rfl⟩ := Option.map_eq_some_iff.mp hs
  obtain ⟨P, hP, hv⟩ := h
  cases p with
  | ret a =>
    have hq : Q a s := by cases n <;> exact hv s hP
    exact ⟨Q a, (hQ a).stable s e s' hq (hok _ _ _) he, by cases n <;> exact fun _ ht => ht⟩
  | act op k =>
    cases n with
    | zero => exact (hv s hP).elim
    | succ n =>
      obtain ⟨P', Q', hp, hg, ha, hk⟩ := hv
      exact ⟨P', ha.holds.stable s e s' (hp s hP) (hok _ _ _) he, P', Q', fun _ ht => ht, hg, ha, hk⟩
  | loop body c k =>
    cases n with
    | zero => exact (hv s hP).elim
    | succ n =>
      obtain ⟨P', hp, hI, hk⟩ := hv
      exact ⟨P', hI.stable s e s' (hp s hP) (hok _ _ _) he, P', fun _ ht => ht, hI, hk⟩

include hok in
lemma Timed.main (h : R.Timed Q n c) {i : ι} (hs : R.machine.step c (.main i) = some d) :
    ∃ m, n = m + 1 ∧ R.Timed Q m d := by
  obtain ⟨p, s⟩ := c
  obtain ⟨P, hP, hv⟩ := h
  rw [Machine.step] at hs
  split at hs
  case isFalse => cases hs
  case isTrue hr =>
    cases p with
    | ret a => cases hs
    | act op k =>
      obtain ⟨⟨r, s'⟩, he, rfl⟩ := Option.map_eq_some_iff.mp hs
      cases n with
      | zero => exact (hv s hP).elim
      | succ n =>
        obtain ⟨P', Q', hp, hg, ha, hk⟩ := hv
        exact ⟨n, rfl, Q' r, ha.exec s i r s' (hp s hP) hr (hok _ _ _) he, hk r⟩
    | loop body c k =>
      obtain rfl := Option.some.inj hs
      cases n with
      | zero => exact (hv s hP).elim
      | succ n =>
        obtain ⟨P', hp, hI, hk⟩ := hv
        exact ⟨n, rfl, P', hp s hP, hk⟩

lemma Timed.goes_on [Nonempty ι] (h : R.Timed Q n c) :
    (∃ a, c.prog = .ret a ∧ Q a c.st) ∨
      (R.machine.ready c.st = true → ∃ i e, R.machine.step c (.main i) = some e) := by
  obtain ⟨p, s⟩ := c
  obtain ⟨P, hP, hv⟩ := h
  cases p with
  | ret a =>
    have hq : Q a s := by cases n <;> exact hv s hP
    exact Or.inl ⟨a, rfl, hq⟩
  | act op k =>
    cases n with
    | zero => exact (hv s hP).elim
    | succ n =>
      obtain ⟨P', Q', hp, hg, ha, hk⟩ := hv
      refine Or.inr fun hr => ?_
      obtain ⟨i, hi⟩ := hg s (hp s hP) hr
      obtain ⟨x, hx⟩ := Option.isSome_iff_exists.mp hi
      exact ⟨i, _, by rw [Machine.step, if_pos hr]; simp only [hx]; rfl⟩
  | loop body c k =>
    cases n with
    | zero => exact (hv s hP).elim
    | succ n =>
      obtain ⟨P', hp, hI, hk⟩ := hv
      exact Or.inr fun hr => ⟨Classical.arbitrary ι, _, by rw [Machine.step, if_pos hr]⟩

end Timed

end Rules

end TeamspeakWebserver.Interruptible
