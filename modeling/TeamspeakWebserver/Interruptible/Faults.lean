import TeamspeakWebserver.Interruptible.Execution

/-! Runs of a program whose language leaves open what some of its steps do. -/

namespace TeamspeakWebserver.Interruptible

variable {Op : Type} {Res : Op → Type} {σ ι ε α : Type}

namespace Machine

/-- The runs of the machine, where a step outside of `defined` can have any of the effects that
`damage` allows. -/
inductive Strays (M : Machine Res σ ι ε) (defined : Condition Op σ ι ε)
    (damage : Config Res σ α → Input ι ε → Config Res σ α → Prop) (ok : Condition Op σ ι ε)
    (c : Config Res σ α) : Config Res σ α → Prop
  | refl : Strays M defined damage ok c c
  | tail {d e : Config Res σ α} (i : Input ι ε) : Strays M defined damage ok c d →
      ok d.prog.next d.st i → defined d.prog.next d.st i → M.step d i = some e →
      Strays M defined damage ok c e
  | fault {d e : Config Res σ α} (i : Input ι ε) : Strays M defined damage ok c d →
      ok d.prog.next d.st i → ¬ defined d.prog.next d.st i → damage d i e →
      Strays M defined damage ok c e

variable {M : Machine Res σ ι ε} {defined ok ok' : Condition Op σ ι ε}
  {damage : Config Res σ α → Input ι ε → Config Res σ α → Prop} {c d e : Config Res σ α}

lemma Strays.trans (h : M.Strays defined damage ok c d) (h' : M.Strays defined damage ok d e) :
    M.Strays defined damage ok c e := by
  induction h' with
  | refl => exact h
  | tail i _ hi hd hs ih => exact ih.tail i hi hd hs
  | fault i _ hi hn hx ih => exact ih.fault i hi hn hx

/-- As long as all steps are defined, the runs are those of the machine. -/
lemma Strays.reaches (h : M.Strays defined damage defined c d) : M.Reaches defined c d := by
  induction h with
  | refl => exact .refl
  | tail i _ hi _ hs ih => exact ih.tail i hi hs
  | fault i _ hi hn => exact absurd hi hn

lemma Reaches.strays (hok : ∀ l s i, ok' l s i → ok l s i ∧ defined l s i)
    (h : M.Reaches ok' c d) : M.Strays defined damage ok c d := by
  induction h with
  | refl => exact .refl
  | tail i _ hi hs ih => exact ih.tail i (hok _ _ _ hi).1 (hok _ _ _ hi).2 hs

end Machine

end TeamspeakWebserver.Interruptible
