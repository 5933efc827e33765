import TeamspeakWebserver.Interruptible.Surroundings

/-! What the answers along a run add up to, as surroundings that only look on. -/

namespace TeamspeakWebserver.Interruptible

open Prog

variable {Op : Type} {Res : Op → Type} {σ ι ε α δ : Type} (see : Op → ι → δ → δ)

/-- What is seen of the answered statements of a run, told newest first, from `x` on. -/
def observed : List (Option Op × σ × Input ι ε) → δ → δ
  | [], x => x
  | (some op, _, .main i) :: tr, x => see op i (observed tr x)
  | (none, _, .main _) :: tr, x => observed tr x
  | (_, _, .async _) :: tr, x => observed tr x

def onlook (op : Op) (i : ι) (_ : Unit) (x : δ) : Option δ := some (see op i x)

namespace Machine

variable {see} {M : Machine Res σ ι ε}

lemma onlook_step {c d : Config Res σ α} {i : Input ι ε} (h : M.step c i = some d) (x : δ) :
    ∃ j, (M.within (onlook see)).step ⟨c.prog, c.st, x⟩ j =
      some ⟨d.prog, d.st, observed see [(c.prog.next, c.st, i)] x⟩ := by
  obtain ⟨p, s⟩ := c
  cases i with
  | async e =>
    obtain ⟨t, ht, rfl⟩ := Option.map_eq_some_iff.mp h
    refine ⟨.async e, ?_⟩
    simp only [step, within, ht]
    cases p <;> rfl
  | main i =>
    refine ⟨.main (i, ()), ?_⟩
    rw [step] at h ⊢
    split at h
    case isFalse => cases h
    case isTrue hr =>
      rw [if_pos (show (M.within (onlook see)).ready (s, x) = true from hr)]
      cases p with
      | ret a => cases h
      | act op k =>
        obtain ⟨⟨r, t⟩, ht, rfl⟩ := Option.map_eq_some_iff.mp h
        simp only [within, ht]
        rfl
      | loop body b k =>
        obtain rfl := Option.some.inj h
        rfl

lemma Runs.onlook {c d : Config Res σ α} {tr : List (Option Op × σ × Input ι ε)} (h : M.Runs c tr d)
    (x : δ) : (M.within (onlook see)).Reaches (fun _ _ _ => True) ⟨c.prog, c.st, x⟩
      ⟨d.prog, d.st, observed see tr x⟩ := by
  induction h with
  | nil => exact .refl
  | @cons tr d e i _ hs ih =>
    obtain ⟨j, hj⟩ := onlook_step hs (observed see tr x)
    have hseen : observed see [(d.prog.next, d.st, i)] (observed see tr x) =
        observed see ((d.prog.next, d.st, i) :: tr) x := by
      cases i with
      | async e => cases d.prog.next <;> rfl
      | main i => cases d.prog.next <;> rfl
    rw [hseen] at hj
    exact ih.tail j trivial hj

end Machine

namespace Rules

variable {see} {M : Machine Res σ ι ε} {P : δ → Prop}

variable (M see) in
abbrev onlooker : Rules Res (σ × δ) (ι × Unit) ε :=
  ⟨M.within (onlook see), fun _ _ _ => True, fun _ _ => True⟩

lemma onlooker_holds (l : Option Op) : (onlooker see M).Holds l fun s => P s.2 :=
  within_holds fun _ _ => trivial

lemma onlooker_atomic {op : Op} {Q : Res op → δ → Prop}
    (hx : ∀ s x i r s', P x → M.exec op s i = some (r, s') → Q r (see op i x)) :
    (onlooker see M).Atomic op (fun s => P s.2) fun r s => Q r s.2 := by
  refine within_atomic (fun _ _ => trivial) fun s x i k r s' x' hp _ he hr => ?_
  obtain rfl := Option.some.inj hr
  exact hx s x i r s' hp he

theorem observed_of_runs {p : Prog Res α} {Q : α → δ → Prop}
    (h : (onlooker see M).Valid (fun s => P s.2) p fun a s => Q a s.2) {x : δ} (hx : P x) {s s' : σ}
    {tr : List (Option Op × σ × Input ι ε)} {a : α} (hr : M.Runs ⟨p, s⟩ tr ⟨.ret a, s'⟩) :
    Q a (observed see tr x) :=
  h.answers (fun _ => onlooker_holds none) hx (hr.onlook x)

end Rules

end TeamspeakWebserver.Interruptible
