import TeamspeakWebserver.Text.Split

/-! Tokens of a stream that comes in pieces, after the contract of `bufio.Scanner` in Go. -/

namespace TeamspeakWebserver.Text

structure Cut (α : Type*) where
  advance : ℕ
  token : Option (List α)
  err : Bool

abbrev SplitFunc (α : Type*) := List α → Bool → Cut α

/-- The data that has been read and not been split, and what the reads are still to bring. The last
one, which may bring nothing, comes with the end of the stream. -/
structure Scanner (α : Type*) where
  data : List α
  reads : List (List α)
  last : List α
  atEOF : Bool

namespace Scanner

variable {α : Type*}

def new (reads : List (List α)) (last : List α) : Scanner α := ⟨[], reads, last, false⟩

def read (limit : ℕ) (s : Scanner α) : Option (Scanner α) :=
  if s.atEOF || limit ≤ s.data.length then none
  else match s.reads with
    | [] => some { s with data := s.data ++ s.last, atEOF := true }
    | r :: reads => some { s with data := s.data ++ r, reads }

def step (split : SplitFunc α) (limit : ℕ) (s : Scanner α) : Option (Option (List α) × Scanner α) :=
  if s.data.isEmpty && !s.atEOF then (s.read limit).map fun s => (none, s)
  else
    let cut := split s.data s.atEOF
    if cut.err || s.data.length < cut.advance then none
    else
      let s := { s with data := s.data.drop cut.advance }
      match cut.token with
      | some token => some (some token, s)
      | none => (s.read limit).map fun s => (none, s)

/-- The tokens up to where the scanner stops, if that takes less than `n` steps. -/
def tokens (split : SplitFunc α) (limit : ℕ) : ℕ → Scanner α → Option (List (List α))
  | 0, _ => none
  | n + 1, s => match s.step split limit with
    | none => some []
    | some (token, s) => (tokens split limit n s).map fun ts => token.toList ++ ts

section Runs

variable {split : SplitFunc α} {limit n : ℕ} {s s' : Scanner α} {ts : List (List α)} {token : Option (List α)}

lemma tokens_step (h : s.step split limit = some (token, s')) (hts : tokens split limit n s' = some ts) :
    tokens split limit (n + 1) s = some (token.toList ++ ts) := by
  simp only [tokens, h, hts, Option.map_some]

lemma tokens_stop (h : s.step split limit = none) : tokens split limit (n + 1) s = some [] := by
  simp only [tokens, h]

lemma tokens_mono (h : tokens split limit n s = some ts) (k : ℕ) :
    tokens split limit (n + k) s = some ts := by
  induction n generalizing s ts with
  | zero => cases h
  | succ n ih =>
    rw [Nat.succ_add]
    rw [tokens] at h ⊢
    split at h
    · exact h
    · obtain ⟨rest, hrest, rfl⟩ := Option.map_eq_some_iff.mp h
      rw [ih hrest, Option.map_some]

end Runs

end Scanner

section Separator

variable {α : Type*} [DecidableEq α] {sep pat p q s data rest : List α} {a : α} {limit : ℕ}

def cutAt (sep : List α) : SplitFunc α := fun data atEOF =>
  if atEOF && data.isEmpty then ⟨0, none, false⟩
  else match find sep data with
    | some i => ⟨i + sep.length, some (data.take i), false⟩
    | none => if atEOF then ⟨data.length, some data, false⟩ else ⟨0, none, false⟩

def records (sep s : List α) : List (List α) :=
  if (split sep s).getLast? = some [] then (split sep s).dropLast else split sep s

def Fits (sep : List α) (limit : ℕ) (s : List α) : Prop :=
  (∀ p ∈ (split sep s).dropLast, p.length + sep.length ≤ limit) ∧
    ∀ p ∈ (split sep s).getLast?, p.length < limit

lemma split_ne_nil (sep s : List α) : split sep s ≠ [] := by
  rw [split]
  cases s.length with
  | zero => exact List.cons_ne_nil _ _
  | succ n =>
    rw [pieces]
    split <;> exact List.cons_ne_nil _ _

lemma records_of_absent (h : ¬ sep <:+: s) : records sep s = if s = [] then [] else [s] := by
  rw [records, split_of_absent h, List.getLast?_singleton]
  by_cases hs : s = []
  · rw [if_pos (congrArg some hs), if_pos hs]
    rfl
  · rw [if_neg (fun he => hs (Option.some.inj he)), if_neg hs]

lemma records_first (ha : a ∉ pat) (hp : ¬ a :: pat <:+: p) :
    records (a :: pat) (p ++ (a :: pat ++ q)) = p :: records (a :: pat) q := by
  have hne := split_ne_nil (a :: pat) q
  rw [records, records, split_first ha hp, List.getLast?_cons_of_ne_nil hne, List.dropLast_cons_of_ne_nil hne]
  split <;> rfl

lemma fits_of_absent (h : ¬ sep <:+: s) : Fits sep limit s ↔ s.length < limit := by
  rw [Fits, split_of_absent h]
  simp

lemma fits_first (ha : a ∉ pat) (hp : ¬ a :: pat <:+: p) : Fits (a :: pat) limit (p ++ (a :: pat ++ q)) ↔
    p.length + (a :: pat).length ≤ limit ∧ Fits (a :: pat) limit q := by
  have hne := split_ne_nil (a :: pat) q
  rw [Fits, Fits, split_first ha hp, List.getLast?_cons_of_ne_nil hne, List.dropLast_cons_of_ne_nil hne,
    List.forall_mem_cons, and_assoc]

/-- Data without a separator leaves room, since the first piece is not over in it. -/
lemma Fits.room (ha : a ∉ pat) (h : Fits (a :: pat) limit (data ++ rest)) (hdata : ¬ a :: pat <:+: data) :
    data.length < limit := by
  by_cases hs : a :: pat <:+: data ++ rest
  · obtain ⟨i, hi⟩ := Option.isSome_iff_exists.mp (find_isSome.mpr hs)
    obtain ⟨p, q, hpq, hp, -⟩ := (find_first ha).mp hi
    rw [hpq, fits_first ha hp] at h
    by_contra hlong
    apply hdata
    rw [← List.append_assoc] at hpq
    have hprefix : p ++ a :: pat <+: data := by
      apply prefix_of_append hpq.symm
      rw [List.length_append]
      omega
    exact (List.suffix_append p (a :: pat)).isInfix.trans hprefix.isInfix
  · rw [fits_of_absent hs, List.length_append] at h
    omega

end Separator

section Cutting

open Scanner

variable {α : Type*} [DecidableEq α] {pat p q data last r : List α} {reads : List (List α)} {a : α}
  {limit : ℕ} {atEOF : Bool}

lemma step_token (ha : a ∉ pat) (hp : ¬ a :: pat <:+: p) :
    step (cutAt (a :: pat)) limit ⟨p ++ (a :: pat ++ q), reads, last, atEOF⟩ =
      some (some p, ⟨q, reads, last, atEOF⟩) := by
  have hne : (p ++ (a :: pat ++ q)).isEmpty = false := by simp
  have hle : ¬ (p ++ (a :: pat ++ q)).length < p.length + (a :: pat).length := by
    rw [List.length_append, List.length_append]
    omega
  simp only [step, cutAt, hne, find_unbordered ha hp, Bool.false_and, Bool.and_false, Bool.false_or,
    decide_eq_true_eq, hle, if_false, Bool.false_eq_true, List.take_left, ← List.drop_drop, List.drop_left]

lemma step_more (hdata : ¬ a :: pat <:+: data) : step (cutAt (a :: pat)) limit ⟨data, reads, last, false⟩ =
    (Scanner.read limit ⟨data, reads, last, false⟩).map fun s => (none, s) := by
  simp only [step, cutAt, find_of_absent hdata, Bool.false_and, Bool.false_eq_true, if_false,
    Bool.not_false, Bool.and_true, Nat.not_lt_zero, decide_false, Bool.or_self, List.drop_zero, ite_self]

lemma tokens_atEOF (ha : a ∉ pat) (data : List α) : ∃ n,
    tokens (cutAt (a :: pat)) limit n ⟨data, reads, last, true⟩ = some (records (a :: pat) data) := by
  induction data using induction_on_split ha with
  | none data hdata =>
    have hstop : step (cutAt (a :: pat)) limit ⟨[], reads, last, true⟩ = none := by
      simp [step, cutAt, Scanner.read]
    rw [records_of_absent hdata]
    by_cases hne : data = []
    · rw [if_pos hne, hne]
      exact ⟨1, tokens_stop hstop⟩
    · have hempty : data.isEmpty = false := List.isEmpty_eq_false_iff.mpr hne
      have hlast : step (cutAt (a :: pat)) limit ⟨data, reads, last, true⟩ =
          some (some data, ⟨[], reads, last, true⟩) := by
        simp [step, cutAt, find_of_absent hdata, hempty]
      rw [if_neg hne]
      exact ⟨2, tokens_step hlast (tokens_stop hstop)⟩
  | first p q hp ih =>
    obtain ⟨n, hn⟩ := ih
    rw [records_first ha hp]
    exact ⟨n + 1, tokens_step (step_token ha hp) hn⟩

lemma tokens_data (ha : a ∉ pat) {rest : List α}
    (hwait : ∀ data, ¬ a :: pat <:+: data → Fits (a :: pat) limit (data ++ rest) → ∃ n,
      tokens (cutAt (a :: pat)) limit n ⟨data, reads, last, atEOF⟩ = some (records (a :: pat) (data ++ rest)))
    (data : List α) (hfits : Fits (a :: pat) limit (data ++ rest)) : ∃ n,
      tokens (cutAt (a :: pat)) limit n ⟨data, reads, last, atEOF⟩ = some (records (a :: pat) (data ++ rest)) := by
  induction data using induction_on_split ha with
  | none data hdata => exact hwait data hdata hfits
  | first p q hp ih =>
    rw [List.append_assoc, List.append_assoc] at hfits ⊢
    rw [fits_first ha hp] at hfits
    rw [records_first ha hp]
    obtain ⟨n, hn⟩ := ih hfits.2
    exact ⟨n + 1, tokens_step (step_token ha hp) hn⟩

lemma tokens_cutAt (ha : a ∉ pat) (data : List α)
    (hfits : Fits (a :: pat) limit (data ++ (reads.flatten ++ last))) : ∃ n,
    tokens (cutAt (a :: pat)) limit n ⟨data, reads, last, false⟩ =
      some (records (a :: pat) (data ++ (reads.flatten ++ last))) := by
  induction reads generalizing data with
  | nil =>
    apply tokens_data ha _ data hfits
    intro data hdata hfits
    have hroom := Nat.not_le_of_lt (hfits.room ha hdata)
    have hstep : step (cutAt (a :: pat)) limit ⟨data, [], last, false⟩ =
        some (none, ⟨data ++ last, [], last, true⟩) := by
      rw [step_more hdata]
      simp [Scanner.read, hroom]
    obtain ⟨n, hn⟩ : ∃ n, tokens (cutAt (a :: pat)) limit n ⟨data ++ last, [], last, true⟩ = _ :=
      tokens_atEOF ha (data ++ last)
    exact ⟨n + 1, tokens_step hstep hn⟩
  | cons r reads ih =>
    apply tokens_data ha _ data hfits
    intro data hdata hfits
    have hroom := Nat.not_le_of_lt (hfits.room ha hdata)
    have hstep : step (cutAt (a :: pat)) limit ⟨data, r :: reads, last, false⟩ =
        some (none, ⟨data ++ r, reads, last, false⟩) := by
      rw [step_more hdata]
      simp [Scanner.read, hroom]
    rw [List.flatten_cons, List.append_assoc, ← List.append_assoc data] at hfits ⊢
    obtain ⟨n, hn⟩ := ih (data ++ r) hfits
    exact ⟨n + 1, tokens_step hstep hn⟩

end Cutting

end TeamspeakWebserver.Text
