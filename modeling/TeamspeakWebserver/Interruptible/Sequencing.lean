import TeamspeakWebserver.Interruptible.Total

/-! A run of a program that is put together from parts goes through the parts one after the other,
and takes as many steps as they do. -/

namespace TeamspeakWebserver.Interruptible

open Prog

variable {Op : Type} {Res : Op → Type} {σ ι ε α β γ δ : Type}

def Prog.isRet : Prog Res α → Bool
  | .ret _ => true
  | _ => false

lemma Prog.next_bind {p : Prog Res α} (hp : p.isRet = false) (k : α → Prog Res β) :
    (p.bind k).next = p.next := by
  cases p with
  | ret a => cases hp
  | act op f => rfl
  | loop body c f => rfl

abbrev Prog.turn (body : γ → Prog Res (γ ⊕ β)) (k : β → Prog Res α) (c : γ) : Prog Res α :=
  (body c).bind (Sum.elim (fun c' => .loop body c' k) k)

lemma Prog.turn_bind (body : γ → Prog Res (γ ⊕ β)) (f : β → Prog Res α) (k : α → Prog Res δ) (c : γ) :
    turn body (fun b => (f b).bind k) c = (turn body f c).bind k := by
  rw [turn, turn, bind_assoc]
  congr 1
  funext r
  cases r <;> rfl

namespace Machine

variable {M : Machine Res σ ι ε}

lemma Runs.trans {c d e : Config Res σ α} {tr tr' : List (Option Op × σ × Input ι ε)}
    (h : M.Runs c tr d) (h' : M.Runs d tr' e) : M.Runs c (tr' ++ tr) e := by
  induction h' with
  | nil => exact h
  | cons i _ hs ih => exact ih.cons i hs

lemma step_bind {p : Prog Res α} (hp : p.isRet = false) {k : α → Prog Res β} {s : σ} {i : Input ι ε}
    {d : Config Res σ β} (h : M.step ⟨p.bind k, s⟩ i = some d) :
    ∃ p', M.step ⟨p, s⟩ i = some ⟨p', d.st⟩ ∧ d.prog = p'.bind k := by
  cases i with
  | async e =>
    obtain ⟨s', he, rfl⟩ := Option.map_eq_some_iff.mp h
    exact ⟨p, by simp only [step, he, Option.map_some], rfl⟩
  | main i =>
    rw [step] at h ⊢
    split at h
    case isFalse => cases h
    case isTrue hr =>
      simp only [if_pos hr]
      cases p with
      | ret a => cases hp
      | act op f =>
        obtain ⟨⟨r, s'⟩, he, rfl⟩ := Option.map_eq_some_iff.mp h
        exact ⟨f r, by simp only [he, Option.map_some], rfl⟩
      | loop body c f =>
        obtain rfl := Option.some.inj h
        exact ⟨turn body f c, rfl, turn_bind body f k c⟩

lemma Runs.of_bind {p : Prog Res α} {k : α → Prog Res β} {s : σ}
    {tr : List (Option Op × σ × Input ι ε)} {d : Config Res σ β} (h : M.Runs ⟨p.bind k, s⟩ tr d) :
    (∃ p', p'.isRet = false ∧ d.prog = p'.bind k ∧ M.Runs ⟨p, s⟩ tr ⟨p', d.st⟩) ∨
      ∃ a s' tr₁ tr₂, tr = tr₂ ++ tr₁ ∧ M.Runs ⟨p, s⟩ tr₁ ⟨.ret a, s'⟩ ∧ M.Runs ⟨k a, s'⟩ tr₂ d := by
  have hsplit {p' : Prog Res α} {t : σ} {tr : List (Option Op × σ × Input ι ε)}
      (hr : M.Runs ⟨p, s⟩ tr ⟨p', t⟩) {d : Config Res σ β} (hd : d = ⟨p'.bind k, t⟩) :
      (∃ p', p'.isRet = false ∧ d.prog = p'.bind k ∧ M.Runs ⟨p, s⟩ tr ⟨p', d.st⟩) ∨
        ∃ a s' tr₁ tr₂, tr = tr₂ ++ tr₁ ∧ M.Runs ⟨p, s⟩ tr₁ ⟨.ret a, s'⟩ ∧
          M.Runs ⟨k a, s'⟩ tr₂ d := by
    subst hd
    cases p' with
    | ret a => exact Or.inr ⟨a, t, tr, [], rfl, hr, .nil⟩
    | act op f => exact Or.inl ⟨_, rfl, rfl, hr⟩
    | loop body c f => exact Or.inl ⟨_, rfl, rfl, hr⟩
  induction h with
  | nil => exact hsplit .nil rfl
  | @cons tr d e i _ hs ih =>
    obtain ⟨q, t⟩ := d
    rcases ih with ⟨p', hp', hd, hr⟩ | ⟨a, s', tr₁, tr₂, rfl, hr₁, hr₂⟩
    · obtain rfl : q = p'.bind k := hd
      obtain ⟨p'', hs', he⟩ := step_bind hp' hs
      rw [next_bind hp']
      exact hsplit (hr.cons i hs') (by rw [← he])
    · exact Or.inr ⟨a, s', tr₁, _ :: tr₂, rfl, hr₁, hr₂.cons i hs⟩

lemma step_before {c d : Config Res σ α} {i : Input ι ε} (h : M.step c i = some d)
    (k : α → Prog Res β) : M.step ⟨c.prog.bind k, c.st⟩ i = some ⟨d.prog.bind k, d.st⟩ := by
  obtain ⟨p, s⟩ := c
  cases i with
  | async e =>
    obtain ⟨s', he, rfl⟩ := Option.map_eq_some_iff.mp h
    simp only [step, he, Option.map_some]
  | main i =>
    rw [step] at h ⊢
    split at h
    case isFalse => cases h
    case isTrue hr =>
      simp only [if_pos hr]
      cases p with
      | ret a => cases h
      | act op f =>
        obtain ⟨⟨r, s'⟩, he, rfl⟩ := Option.map_eq_some_iff.mp h
        simp only [Prog.bind, he, Option.map_some]
      | loop body c f =>
        obtain rfl := Option.some.inj h
        simp only [Prog.bind, Option.some.injEq, Config.mk.injEq, and_true]
        exact turn_bind body f k c

lemma Reaches.bind {c d : Config Res σ α} (h : M.Reaches (fun _ _ _ => True) c d)
    (k : α → Prog Res β) :
    M.Reaches (fun _ _ _ => True) ⟨c.prog.bind k, c.st⟩ ⟨d.prog.bind k, d.st⟩ := by
  induction h with
  | refl => exact .refl
  | tail i _ _ hs ih => exact ih.tail i trivial (step_before hs k)

def Bounded (M : Machine Res σ ι ε) (n : ℕ) (c : Config Res σ α) : Prop :=
  ∀ tr d, M.Runs c tr d → mainSteps tr ≤ n

lemma mainSteps_append (tr tr' : List (Option Op × σ × Input ι ε)) :
    mainSteps (tr ++ tr') = mainSteps tr + mainSteps tr' := List.countP_append

lemma Bounded.mono {n m : ℕ} {c : Config Res σ α} (h : M.Bounded n c) (hm : n ≤ m) : M.Bounded m c :=
  fun tr d hr => (h tr d hr).trans hm

/-- Before its first main step a run is at the same statement, and that step has one less behind
it. -/
lemma Bounded.of_steps {n : ℕ} {c : Config Res σ α}
    (h : ∀ tr d i e, M.Runs c tr d → mainSteps tr = 0 → M.step d (.main i) = some e → M.Bounded n e) :
    M.Bounded (n + 1) c := by
  have hrun (tr : List (Option Op × σ × Input ι ε)) (d : Config Res σ α) (hr : M.Runs c tr d) :
      mainSteps tr = 0 ∨ ∃ tr' e, mainSteps tr = mainSteps tr' + 1 ∧ M.Runs e tr' d ∧
        M.Bounded n e := by
    induction hr with
    | nil => exact Or.inl rfl
    | @cons tr d e i hr hs ih =>
      rcases ih with hzero | ⟨tr', e', hm, hr', hb⟩
      · cases i with
        | async x => exact Or.inl hzero
        | main x =>
          refine Or.inr ⟨[], e, ?_, .nil, h tr d x e hr hzero hs⟩
          simp only [mainSteps, List.countP_cons, Input.isMain, if_true] at hzero ⊢
          rw [hzero]
          rfl
      · refine Or.inr ⟨_ :: tr', e', ?_, hr'.cons i hs, hb⟩
        simp only [mainSteps, List.countP_cons] at hm ⊢
        omega
  intro tr d hr
  rcases hrun tr d hr with hzero | ⟨tr', e, hm, hr', hb⟩
  · omega
  · have := hb _ _ hr'
    omega

lemma Bounded.bind {n m : ℕ} {p : Prog Res α} {s : σ} {k : α → Prog Res β}
    (hp : M.Bounded n ⟨p, s⟩)
    (hk : ∀ a s' tr, M.Runs ⟨p, s⟩ tr ⟨.ret a, s'⟩ → M.Bounded m ⟨k a, s'⟩) :
    M.Bounded (n + m) ⟨p.bind k, s⟩ := by
  intro tr d h
  rcases h.of_bind with ⟨p', -, -, hr⟩ | ⟨a, s', tr₁, tr₂, rfl, hr₁, hr₂⟩
  · have := hp _ _ hr
    omega
  · have h₁ := hp _ _ hr₁
    have h₂ := hk a s' tr₁ hr₁ _ _ hr₂
    rw [mainSteps_append]
    omega

end Machine

namespace Rules

variable (R : Rules Res σ ι ε)

def Lasts (n : ℕ) (P : σ → Prop) (p : Prog Res α) : Prop := ∀ s, P s → R.machine.Bounded n ⟨p, s⟩

variable {R} {P A : σ → Prop} {n m : ℕ}

lemma Lasts.weaken {p : Prog Res α} (h : R.Lasts n A p) (hP : ∀ s, P s → A s) : R.Lasts n P p :=
  fun s hs => h s (hP s hs)

lemma Lasts.mono {p : Prog Res α} (h : R.Lasts n P p) (hm : n ≤ m) : R.Lasts m P p :=
  fun s hs => (h s hs).mono hm

variable (hok : ∀ l s i, R.ok l s i)
include hok

/-- What holds at a statement still holds when the events before it have been delivered. -/
lemma Holds.quiet {c d : Config Res σ α} {tr : List (Option Op × σ × Input ι ε)}
    (h : R.Holds c.prog.next P) (hP : P c.st) (hr : R.machine.Runs c tr d) (hm : mainSteps tr = 0) :
    d.prog = c.prog ∧ P d.st := by
  induction hr with
  | nil => exact ⟨rfl, hP⟩
  | @cons tr d e i _ hs ih =>
    cases i with
    | main x => simp [mainSteps, Input.isMain] at hm
    | async x =>
      obtain ⟨hq, hd⟩ := ih (by simpa [mainSteps, Input.isMain] using hm)
      obtain ⟨t, ht, rfl⟩ := Option.map_eq_some_iff.mp hs
      exact ⟨hq, h.stable _ x t hd (hok _ _ _) ht⟩

lemma Lasts.act {op : Op} {k : Res op → Prog Res α} {Q : Res op → σ → Prop} (h : R.Atomic op P Q)
    (hk : ∀ r, R.Lasts n (Q r) (k r)) : R.Lasts (n + 1) P (.act op k) := by
  refine fun s hs => .of_steps fun tr d i e hr hm he => ?_
  obtain ⟨q, t⟩ := d
  obtain ⟨hq, hd⟩ := Holds.quiet hok (c := ⟨.act op k, s⟩) h.holds hs hr hm
  obtain rfl : q = .act op k := hq
  rw [Machine.step] at he
  split at he
  case isFalse => cases he
  case isTrue hready =>
    obtain ⟨⟨r, t'⟩, hx, rfl⟩ := Option.map_eq_some_iff.mp he
    exact hk r t' (h.exec t i r t' hd hready (hok _ _ _) hx)

lemma Lasts.bind {p : Prog Res α} {k : α → Prog Res β} {Q : α → σ → Prop} (h : R.Lasts n P p)
    (hv : R.Valid P p Q) (hQ : ∀ a, R.Holds none (Q a)) (hk : ∀ a, R.Lasts m (Q a) (k a)) :
    R.Lasts (n + m) P (p.bind k) := by
  refine fun s hs => (h s hs).bind fun a s' tr hr => hk a s' (hv.answers hQ hs ?_)
  exact hr.reaches.mono fun _ _ _ _ => hok _ _ _

lemma Lasts.loop {body : γ → Prog Res (γ ⊕ β)} {c : γ} {k : β → Prog Res α} {Q : β → σ → Prop}
    (hP : R.Holds none P) (h : R.Lasts n P (body c))
    (hv : R.Valid P (body c) (Sum.elim (fun _ _ => False) Q)) (hQ : ∀ b, R.Holds none (Q b))
    (hk : ∀ b, R.Lasts m (Q b) (k b)) : R.Lasts (n + m + 1) P (.loop body c k) := by
  refine fun s hs => .of_steps fun tr d i e hr hm he => ?_
  obtain ⟨q, t⟩ := d
  obtain ⟨hq, hd⟩ := Holds.quiet hok (c := ⟨.loop body c k, s⟩) hP hs hr hm
  obtain rfl : q = .loop body c k := hq
  rw [Machine.step] at he
  split at he
  case isFalse => cases he
  case isTrue =>
    obtain rfl := Option.some.inj he
    refine h.bind hok hv (fun r => ?_) (fun r => ?_) t hd
    · cases r with
      | inl c' => exact ⟨fun _ _ _ hf => hf.elim, fun _ hf => hf.elim⟩
      | inr b => exact hQ b
    · cases r with
      | inl c' => exact fun _ hf => hf.elim
      | inr b => exact hk b

end Rules

end TeamspeakWebserver.Interruptible
