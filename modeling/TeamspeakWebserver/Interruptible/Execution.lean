import TeamspeakWebserver.Interruptible.Program

/-! One main thread, preempted by asynchronous events. -/

namespace TeamspeakWebserver.Interruptible

open Prog

variable {Op : Type} {Res : Op → Type} {σ ι ε α : Type}

/-- What one statement and one event do to the shared state. The answer `ι` is what the world
outside the program chose for the statement, and `none` is a choice the world cannot make.
A state that is not `ready` has an event to deliver before the main thread goes on. -/
structure Machine {Op : Type} (Res : Op → Type) (σ ι ε : Type) where
  exec : (op : Op) → σ → ι → Option (Res op × σ)
  async : σ → ε → Option σ
  ready : σ → Bool

inductive Input (ι ε : Type) where
  | main (i : ι)
  | async (e : ε)
deriving DecidableEq

structure Config {Op : Type} (Res : Op → Type) (σ α : Type) where
  prog : Prog Res α
  st : σ

abbrev Condition (Op σ ι ε : Type) := Option Op → σ → Input ι ε → Prop

namespace Machine

variable (M : Machine Res σ ι ε)

def step (c : Config Res σ α) : Input ι ε → Option (Config Res σ α)
  | .async e => (M.async c.st e).map fun s => ⟨c.prog, s⟩
  | .main i =>
    if M.ready c.st then
      match c.prog with
      | .ret _ => none
      | .act op k => (M.exec op c.st i).map fun x => ⟨k x.1, x.2⟩
      | .loop body b k => some ⟨(body b).bind (Sum.elim (fun b' => .loop body b' k) k), c.st⟩
    else none

/-- The run told by its notable steps: `is` says which statement each of them finds next, and
`quiet` is the answer to all the others. A step that breaks `ok` is refused. -/
def follow [DecidableEq Op] (ok : Condition Op σ ι ε) [∀ l s i, Decidable (ok l s i)] (quiet : ι) :
    ℕ → Config Res σ α → List (Op × Input ι ε) → Option (Config Res σ α)
  | _, c, [] => some c
  | 0, _, _ :: _ => none
  | n + 1, c, (op, i) :: is =>
    if c.prog.next = some op then
      if ok c.prog.next c.st i then (M.step c i).bind fun d => follow ok quiet n d is else none
    else
      if ok c.prog.next c.st (.main quiet) then
        (M.step c (.main quiet)).bind fun d => follow ok quiet n d ((op, i) :: is)
      else none

inductive Reaches (ok : Condition Op σ ι ε) (c : Config Res σ α) : Config Res σ α → Prop
  | refl : Reaches ok c c
  | tail {d e : Config Res σ α} (i : Input ι ε) : Reaches ok c d → ok d.prog.next d.st i →
      M.step d i = some e → Reaches ok c e

/-- A run with its steps, newest first: the statement that is next, the state and the input. -/
inductive Runs (c : Config Res σ α) : List (Option Op × σ × Input ι ε) → Config Res σ α → Prop
  | nil : Runs c [] c
  | cons {tr : List (Option Op × σ × Input ι ε)} {d e : Config Res σ α} (i : Input ι ε) :
      Runs c tr d → M.step d i = some e → Runs c ((d.prog.next, d.st, i) :: tr) e

variable {M}

lemma Runs.reaches {c d : Config Res σ α} {tr : List (Option Op × σ × Input ι ε)}
    (h : M.Runs c tr d) : M.Reaches (fun _ _ _ => True) c d := by
  induction h with
  | nil => exact .refl
  | cons i _ hs ih => exact ih.tail i trivial hs

lemma Reaches.mono {ok ok' : Condition Op σ ι ε} (h : ∀ l s i, ok l s i → ok' l s i)
    {c d : Config Res σ α} (hr : M.Reaches ok c d) : M.Reaches ok' c d := by
  induction hr with
  | refl => exact .refl
  | tail i _ hi hs ih => exact ih.tail i (h _ _ _ hi) hs

lemma Reaches.strengthen {ok ok' : Condition Op σ ι ε} {c d : Config Res σ α}
    (hr : M.Reaches ok c d) (h : ∀ d, M.Reaches ok c d → ∀ i, ok d.prog.next d.st i →
      ok' d.prog.next d.st i) : M.Reaches ok' c d := by
  induction hr with
  | refl => exact .refl
  | tail i hd hi hs ih => exact ih.tail i (h _ hd i hi) hs

lemma Reaches.trans {ok : Condition Op σ ι ε} {c d e : Config Res σ α}
    (h : M.Reaches ok c d) (h' : M.Reaches ok d e) : M.Reaches ok c e := by
  induction h' with
  | refl => exact h
  | tail i _ hi hs ih => exact ih.tail i hi hs

lemma step_cases {c d : Config Res σ α} {i : Input ι ε} (h : M.step c i = some d) :
    (∃ e, i = .async e ∧ M.async c.st e = some d.st ∧ d.prog = c.prog) ∨
    (∃ a, i = .main a ∧ M.ready c.st = true ∧
      ((∃ op r, c.prog.next = some op ∧ M.exec op c.st a = some (r, d.st)) ∨
        (c.prog.next = none ∧ d.st = c.st))) := by
  obtain ⟨p, s⟩ := c
  cases i with
  | async e =>
    obtain ⟨s', he, rfl⟩ := Option.map_eq_some_iff.mp h
    exact Or.inl ⟨e, rfl, he, rfl⟩
  | main a =>
    rw [step] at h
    split at h
    case isFalse => cases h
    case isTrue hr =>
      refine Or.inr ⟨a, rfl, hr, ?_⟩
      cases p with
      | ret b => cases h
      | act op k =>
        obtain ⟨⟨r, s'⟩, he, rfl⟩ := Option.map_eq_some_iff.mp h
        exact Or.inl ⟨op, r, rfl, he⟩
      | loop body b k =>
        obtain rfl := Option.some.inj h
        exact Or.inr ⟨rfl, rfl⟩

lemma Reaches.keeps {ok : Condition Op σ ι ε} {c d : Config Res σ α} (hr : M.Reaches ok c d)
    {J : σ → Prop} (hexec : ∀ op s a r s', J s → M.exec op s a = some (r, s') → J s')
    (hasync : ∀ s e s', J s → M.async s e = some s' → J s') (hc : J c.st) : J d.st := by
  induction hr with
  | refl => exact hc
  | tail i _ _ hs ih =>
    rcases step_cases hs with ⟨e, -, he, -⟩ | ⟨a, -, -, ⟨op, r, -, he⟩ | ⟨-, he⟩⟩
    · exact hasync _ e _ ih he
    · exact hexec op _ a r _ ih he
    · rw [he]
      exact ih

lemma reaches_of_follow [DecidableEq Op] {ok : Condition Op σ ι ε} [∀ l s i, Decidable (ok l s i)]
    {quiet : ι} {n : ℕ} {is : List (Op × Input ι ε)} {c d : Config Res σ α}
    (h : M.follow ok quiet n c is = some d) : M.Reaches ok c d := by
  have hstep {c e : Config Res σ α} {i : Input ι ε} (hi : ok c.prog.next c.st i)
      (he : M.step c i = some e) : M.Reaches ok c e := Reaches.refl.tail i hi he
  induction n generalizing c is with
  | zero =>
    cases is with
    | nil =>
      obtain rfl := Option.some.inj h
      exact .refl
    | cons p is => cases h
  | succ n ih =>
    cases is with
    | nil =>
      obtain rfl := Option.some.inj h
      exact .refl
    | cons p is =>
      rw [follow] at h
      split at h
      all_goals
        split at h
        case isTrue hi =>
          obtain ⟨e, he, hd⟩ := Option.bind_eq_some_iff.mp h
          exact (hstep hi he).trans (ih hd)
        case isFalse => cases h

end Machine

end TeamspeakWebserver.Interruptible
