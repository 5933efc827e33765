import TeamspeakWebserver.Interruptible.Logic

/-! A machine together with what it acts on, where that goes on by itself between the statements. -/

namespace TeamspeakWebserver.Interruptible

open Prog

variable {Op : Type} {Res : Op → Type} {σ ι ε α δ κ : Type}

def Input.left : Input (ι × κ) ε → Input ι ε
  | .main i => .main i.1
  | .async e => .async e

namespace Machine

/-- The surroundings `react` to each statement and its answer, with a choice `κ` of their own, and
`none` is a statement that they do not let go on. -/
def within (M : Machine Res σ ι ε) (react : Op → ι → κ → δ → Option δ) :
    Machine Res (σ × δ) (ι × κ) ε where
  exec op s i := (M.exec op s.1 i.1).bind fun x => (react op i.1 i.2 s.2).map fun d => (x.1, x.2, d)
  async s e := (M.async s.1 e).map fun t => (t, s.2)
  ready s := M.ready s.1

variable {M : Machine Res σ ι ε} {react : Op → ι → κ → δ → Option δ}

lemma within_exec {op : Op} {s s' : σ × δ} {i : ι × κ} {r : Res op} :
    (M.within react).exec op s i = some (r, s') ↔
      M.exec op s.1 i.1 = some (r, s'.1) ∧ react op i.1 i.2 s.2 = some s'.2 := by
  simp only [within, Option.bind_eq_some_iff, Option.map_eq_some_iff, Prod.mk.injEq]
  constructor
  · rintro ⟨⟨r', t⟩, he, d, hd, rfl, rfl⟩
    exact ⟨he, hd⟩
  · rintro ⟨he, hd⟩
    exact ⟨_, he, _, hd, rfl, rfl⟩

lemma within_step {c d : Config Res (σ × δ) α} {i : Input (ι × κ) ε}
    (h : (M.within react).step c i = some d) :
    M.step ⟨c.prog, c.st.1⟩ i.left = some ⟨d.prog, d.st.1⟩ := by
  obtain ⟨p, s⟩ := c
  cases i with
  | async e =>
    obtain ⟨s', he, rfl⟩ := Option.map_eq_some_iff.mp h
    obtain ⟨t, ht, rfl⟩ := Option.map_eq_some_iff.mp he
    simp only [Input.left, step, ht]
    rfl
  | main i =>
    rw [step] at h
    split at h
    case isFalse => cases h
    case isTrue hr =>
      have hr' : M.ready s.1 = true := hr
      simp only [Input.left, step, hr', if_true]
      cases p with
      | ret b => cases h
      | act op k =>
        obtain ⟨⟨r, s'⟩, he, rfl⟩ := Option.map_eq_some_iff.mp h
        simp only [(within_exec.mp he).1]
        rfl
      | loop body b k =>
        obtain rfl := Option.some.inj h
        rfl

lemma Reaches.inner {ok : Condition Op (σ × δ) (ι × κ) ε} {c d : Config Res (σ × δ) α}
    (h : (M.within react).Reaches ok c d) :
    M.Reaches (fun _ _ _ => True) ⟨c.prog, c.st.1⟩ ⟨d.prog, d.st.1⟩ := by
  induction h with
  | refl => exact .refl
  | tail i _ _ hs ih => exact ih.tail i.left trivial (within_step hs)

end Machine

namespace Rules

variable {M : Machine Res σ ι ε} {react : Op → ι → κ → δ → Option δ}
  {ok : Condition Op (σ × δ) (ι × κ) ε} {G : Option Op → σ × δ → Prop} {P : δ → Prop}

lemma within_holds {l : Option Op} (hG : ∀ s, P s.2 → G l s) :
    (Rules.mk (M.within react) ok G).Holds l fun s => P s.2 where
  stable s e s' hs _ he := by
    obtain ⟨t, -, rfl⟩ := Option.map_eq_some_iff.mp he
    exact hs
  guarantee := hG

lemma within_atomic {op : Op} {Q : Res op → δ → Prop} (hG : ∀ s, P s.2 → G (some op) s)
    (hx : ∀ s d i k r s' d', P d → ok (some op) (s, d) (.main (i, k)) →
      M.exec op s i = some (r, s') → react op i k d = some d' → Q r d') :
    (Rules.mk (M.within react) ok G).Atomic op (fun s => P s.2) fun r s => Q r s.2 :=
  ⟨within_holds hG, fun s i r s' hs _ hok he =>
    hx s.1 s.2 i.1 i.2 r s'.1 s'.2 hs hok (Machine.within_exec.mp he).1 (Machine.within_exec.mp he).2⟩

end Rules

end TeamspeakWebserver.Interruptible
