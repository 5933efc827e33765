import Mathlib.Tactic

/-! Programs run one statement at a time, so that an asynchronous event can fall between any two
of their statements. -/

namespace TeamspeakWebserver.Interruptible

inductive Prog {Op : Type} (Res : Op → Type) : Type → Type 1 where
  | ret {α : Type} (a : α) : Prog Res α
  | act {α : Type} (op : Op) (k : Res op → Prog Res α) : Prog Res α
  | loop {α β γ : Type} (body : γ → Prog Res (γ ⊕ β)) (c : γ) (k : β → Prog Res α) : Prog Res α

namespace Prog

variable {Op : Type} {Res : Op → Type} {α β γ : Type}

def bind : Prog Res α → (α → Prog Res β) → Prog Res β
  | ret a, k => k a
  | act op f, k => act op fun r => (f r).bind k
  | loop body c f, k => loop body c fun b => (f b).bind k

instance : Monad (Prog Res) where
  pure := ret
  bind := bind

def call (op : Op) : Prog Res (Res op) := act op ret

/-- Run `body` until it answers `.inr`, carrying the value it answers with `.inl`. -/
def iterate (body : γ → Prog Res (γ ⊕ β)) (c : γ) : Prog Res β := loop body c ret

def each (f : α → Prog Res Unit) : List α → Prog Res Unit
  | [] => ret ()
  | a :: as => (f a).bind fun _ => each f as

def next : Prog Res α → Option Op
  | ret _ => none
  | act op _ => some op
  | loop _ _ _ => none

lemma bind_assoc {δ : Type} (p : Prog Res α) (f : α → Prog Res β) (g : β → Prog Res δ) :
    (p.bind f).bind g = p.bind fun a => (f a).bind g := by
  induction p with
  | ret a => rfl
  | act op k ih =>
    simp only [bind]
    congr 1
    funext r
    exact ih r f
  | loop body c k _ ih =>
    simp only [bind]
    congr 1
    funext b
    exact ih b f

def Uses (A : Op → Prop) : {α : Type} → Prog Res α → Prop
  | _, ret _ => True
  | _, act op k => A op ∧ ∀ r, (k r).Uses A
  | _, loop body _ k => (∀ c, (body c).Uses A) ∧ ∀ b, (k b).Uses A

lemma Uses.bind {A : Op → Prop} {p : Prog Res α} {k : α → Prog Res β}
    (hp : p.Uses A) (hk : ∀ a, (k a).Uses A) : (p.bind k).Uses A := by
  induction p with
  | ret a => exact hk a
  | act op f ih => exact ⟨hp.1, fun r => ih r (hp.2 r) hk⟩
  | loop body c f _ ih => exact ⟨hp.1, fun b => ih b (hp.2 b) hk⟩

lemma Uses.mono {A B : Op → Prop} (h : ∀ op, A op → B op) {p : Prog Res α} (hp : p.Uses A) :
    p.Uses B := by
  induction p with
  | ret a => trivial
  | act op f ih => exact ⟨h op hp.1, fun r => ih r (hp.2 r)⟩
  | loop body c f ihb ih => exact ⟨fun c => ihb c (hp.1 c), fun b => ih b (hp.2 b)⟩

def Within : ℕ → Prog Res α → Prop
  | _, ret _ => True
  | n + 1, act _ k => ∀ r, (k r).Within n
  | _, _ => False

lemma Within.mono {n m : ℕ} {p : Prog Res α} (h : p.Within n) (hm : n ≤ m) : p.Within m := by
  induction n generalizing p m with
  | zero =>
    cases p with
    | ret a => cases m <;> trivial
    | act op k => exact h.elim
    | loop body c k => exact h.elim
  | succ n ih =>
    obtain ⟨m, rfl⟩ : ∃ l, m = l + 1 := ⟨m - 1, by omega⟩
    cases p with
    | ret a => trivial
    | act op k => exact fun r => ih (h r) (by omega)
    | loop body c k => exact h.elim

lemma Within.bind {n m : ℕ} {p : Prog Res α} {k : α → Prog Res β} (hp : p.Within n)
    (hk : ∀ a, (k a).Within m) : (p.bind k).Within (n + m) := by
  induction n generalizing p with
  | zero =>
    cases p with
    | ret a => exact (hk a).mono (by omega)
    | act op f => exact hp.elim
    | loop body c f => exact hp.elim
  | succ n ih =>
    cases p with
    | ret a => exact (hk a).mono (by omega)
    | act op f =>
      rw [Nat.add_right_comm]
      exact fun r => ih (hp r)
    | loop body c f => exact hp.elim

end Prog

end TeamspeakWebserver.Interruptible
