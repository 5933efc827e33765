import Mathlib.Data.List.DropRight
import Mathlib.Tactic

/-! Strings and numbers of Python, and the exceptions that come of reading them. -/

namespace TeamspeakWebserver.Python

abbrev Str := List Char

inductive Exn where
  | indexError
  | keyError
  | valueError
deriving DecidableEq

def Returns {α : Type} (x : Except Exn α) : Prop := ∃ a, x = .ok a

/-- The tables of Unicode that strings go by, and the most digits that `int` reads, where that is not
zero. -/
structure Interpreter where
  lower : Str → Str
  isSpace : Char → Bool
  isNumeric : Char → Bool
  decimal : Char → Option ℕ
  maxStrDigits : ℕ
  numeric_of_decimal : ∀ c, (decimal c).isSome = true → isNumeric c = true
  not_space_of_numeric : ∀ c, isNumeric c = true → isSpace c = false
  sign_not_numeric : isNumeric '+' = false ∧ isNumeric '-' = false
  underscore_not_numeric : isNumeric '_' = false

def item {α : Type} (xs : List α) (i : ℕ) : Except Exn α :=
  match xs[i]? with
  | some x => .ok x
  | none => .error .indexError

def randint (lo hi : ℤ) (draw : ℕ) : Except Exn ℤ :=
  if hi < lo then .error .valueError else .ok (lo + draw % (hi - lo + 1))

def str (z : ℤ) : Str :=
  if z < 0 then '-' :: Nat.toDigits 10 z.natAbs else Nat.toDigits 10 z.natAbs

def isLineBoundary (c : Char) : Bool :=
  (10 ≤ c.toNat ∧ c.toNat ≤ 13) ∨ (28 ≤ c.toNat ∧ c.toNat ≤ 30) ∨ c.toNat = 0x85 ∨ c.toNat = 0x2028 ∨
    c.toNat = 0x2029

/-- `cr` is a carriage return just before, which makes one boundary with a newline behind it. -/
def splitlinesFrom (cr : Bool) (line : Str) : Str → List Str
  | [] => if line = [] then [] else [line]
  | c :: cs => if cr && c == '\n' then splitlinesFrom false [] cs
    else if isLineBoundary c then line :: splitlinesFrom (c == '\r') [] cs
    else splitlinesFrom false (line ++ [c]) cs

def splitlines (s : Str) : List Str := splitlinesFrom false [] s

section Returns

variable {α β : Type} {x : Except Exn α} {f : α → Except Exn β} {xs : List α} {i : ℕ} {a : α}

lemma returns_ok (a : α) : Returns (.ok a) := ⟨a, rfl⟩

lemma not_returns_error (e : Exn) : ¬ Returns (.error e : Except Exn α) := by
  rintro ⟨a, ha⟩
  cases ha

lemma returns_bind_iff : Returns (x >>= f) ↔ ∃ a, x = .ok a ∧ Returns (f a) := by
  cases x with
  | error e => exact iff_of_false (not_returns_error e) fun ⟨a, ha, _⟩ => by cases ha
  | ok a =>
    constructor
    · exact fun h => ⟨a, rfl, h⟩
    · rintro ⟨b, hb, h⟩
      cases hb
      exact h

lemma item_eq_ok_iff : item xs i = .ok a ↔ xs[i]? = some a := by
  rw [item]
  cases xs[i]? with
  | none => simp
  | some b => simp

lemma randint_returns {lo hi : ℤ} (h : lo ≤ hi) (draw : ℕ) :
    ∃ r, randint lo hi draw = .ok r ∧ lo ≤ r ∧ r ≤ hi := by
  refine ⟨lo + draw % (hi - lo + 1), if_neg (by omega), ?_, ?_⟩
  · have := Int.emod_nonneg draw (show hi - lo + 1 ≠ 0 by omega)
    omega
  · have := Int.emod_lt_of_pos draw (show 0 < hi - lo + 1 by omega)
    omega

end Returns

section Format

inductive Place where
  | text
  | opened
  | closed
  | name (s : Str)

def field (args : List (Str × Str)) (name : Str) : Except Exn Str :=
  if name = [] then .error .indexError
  else match args.lookup name with
    | some v => .ok v
    | none => .error .keyError

/-- `str.format`, for fields that are plain names. -/
def formatFrom (args : List (Str × Str)) : Place → Str → Except Exn Str
  | .text, [] => .ok []
  | _, [] => .error .valueError
  | .text, c :: cs => if c = '\x7b' then formatFrom args .opened cs
    else if c = '\x7d' then formatFrom args .closed cs
    else do return c :: (← formatFrom args .text cs)
  | .opened, c :: cs => if c = '\x7b' then do return c :: (← formatFrom args .text cs)
    else if c = '\x7d' then do return (← field args []) ++ (← formatFrom args .text cs)
    else formatFrom args (.name [c]) cs
  | .closed, c :: cs => if c = '\x7d' then do return c :: (← formatFrom args .text cs)
    else .error .valueError
  | .name s, c :: cs => if c = '\x7d' then do return (← field args s) ++ (← formatFrom args .text cs)
    else formatFrom args (.name (s ++ [c])) cs

def format (args : List (Str × Str)) (template : Str) : Except Exn Str :=
  formatFrom args .text template

def Plain (s : Str) : Prop := ∀ c ∈ s, c ≠ '\x7b' ∧ c ≠ '\x7d'

variable {args : List (Str × Str)} {s t name u v : Str}

lemma plain_append : Plain (s ++ t) ↔ Plain s ∧ Plain t := List.forall_mem_append

lemma returns_format_text (h : Plain t) (hs : Returns (format args s)) :
    Returns (format args (t ++ s)) := by
  induction t with
  | nil => exact hs
  | cons c t ih =>
    have hc := h c List.mem_cons_self
    obtain ⟨v, hv⟩ := ih fun d hd => h d (List.mem_cons_of_mem c hd)
    refine ⟨c :: v, ?_⟩
    rw [format] at hv
    rw [format, List.cons_append, formatFrom, if_neg hc.1, if_neg hc.2, hv]
    rfl

lemma returns_format_name (hname : '\x7d' ∉ name) (hne : t ++ name ≠ [])
    (hv : args.lookup (t ++ name) = some v) (hs : Returns (format args s)) :
    Returns (formatFrom args (.name t) (name ++ '\x7d' :: s)) := by
  induction name generalizing t with
  | nil =>
    obtain ⟨u, hu⟩ := hs
    rw [List.append_nil] at hne hv
    refine ⟨v ++ u, ?_⟩
    rw [format] at hu
    rw [List.nil_append, formatFrom, if_pos rfl, field, if_neg hne, hv, hu]
    rfl
  | cons c name ih =>
    rw [List.mem_cons, not_or] at hname
    rw [List.cons_append, formatFrom, if_neg (Ne.symm hname.1)]
    apply ih hname.2
    · rw [List.append_assoc]
      exact hne
    · rw [List.append_assoc]
      exact hv

lemma returns_format_field (c : Char) (name : Str) (hc : c ≠ '\x7b' ∧ c ≠ '\x7d') (hname : '\x7d' ∉ name)
    (hv : args.lookup (c :: name) = some v) (hs : Returns (format args s)) :
    Returns (format args ('\x7b' :: c :: name ++ '\x7d' :: s)) := by
  have h := returns_format_name (t := [c]) hname (List.cons_ne_nil c name) hv hs
  rw [format, List.cons_append, formatFrom, if_pos rfl, List.cons_append, formatFrom, if_neg hc.1,
    if_neg hc.2]
  exact h

lemma format_text (h : Plain t) (hs : format args s = .ok u) : format args (t ++ s) = .ok (t ++ u) := by
  induction t with
  | nil => exact hs
  | cons c t ih =>
    have hc := h c List.mem_cons_self
    have htail := ih fun d hd => h d (List.mem_cons_of_mem c hd)
    rw [format] at htail
    rw [format, List.cons_append, formatFrom, if_neg hc.1, if_neg hc.2, htail]
    rfl

lemma format_name (hname : '\x7d' ∉ name) (hne : t ++ name ≠ []) (hv : args.lookup (t ++ name) = some v)
    (hs : format args s = .ok u) : formatFrom args (.name t) (name ++ '\x7d' :: s) = .ok (v ++ u) := by
  induction name generalizing t with
  | nil =>
    rw [List.append_nil] at hne hv
    rw [format] at hs
    rw [List.nil_append, formatFrom, if_pos rfl, field, if_neg hne, hv, hs]
    rfl
  | cons c name ih =>
    rw [List.mem_cons, not_or] at hname
    rw [List.cons_append, formatFrom, if_neg (Ne.symm hname.1)]
    apply ih hname.2
    · rw [List.append_assoc]
      exact hne
    · rw [List.append_assoc]
      exact hv

lemma format_field (c : Char) (name : Str) (hc : c ≠ '\x7b' ∧ c ≠ '\x7d') (hname : '\x7d' ∉ name)
    (hv : args.lookup (c :: name) = some v) (hs : format args s = .ok u) :
    format args ('\x7b' :: c :: name ++ '\x7d' :: s) = .ok (v ++ u) := by
  have h : formatFrom args (.name [c]) (name ++ '\x7d' :: s) = .ok (v ++ u) :=
    format_name hname (List.cons_ne_nil c name) hv hs
  rw [format, List.cons_append, formatFrom, if_pos rfl, List.cons_append, formatFrom, if_neg hc.1,
    if_neg hc.2]
  exact h

lemma plain_str (z : ℤ) : Plain (str z) := by
  have hdigit : Plain (Nat.toDigits 10 z.natAbs) := by
    intro c hc
    have h := Nat.isDigit_of_mem_toDigits (by decide) (by decide) hc
    constructor
    · rintro rfl
      exact absurd h (by decide)
    · rintro rfl
      exact absurd h (by decide)
  rw [str]
  split
  · intro c hc
    rcases List.mem_cons.mp hc with rfl | hc
    · decide
    · exact hdigit c hc
  · exact hdigit

end Format

namespace Interpreter

variable (py : Interpreter)

def isnumeric (s : Str) : Bool := !s.isEmpty && s.all py.isNumeric

def strip (s : Str) : Str := (s.dropWhile py.isSpace).rdropWhile py.isSpace

def digits : Str → Option (List ℕ)
  | [] => none
  | [c] => (py.decimal c).map fun d => [d]
  | c :: c' :: cs => (py.decimal c).bind fun d =>
      (if c' = '_' then digits cs else digits (c' :: cs)).map (d :: ·)

def natural (s : Str) : Except Exn ℤ :=
  match py.digits s with
  | none => .error .valueError
  | some ds => if py.maxStrDigits ≠ 0 ∧ py.maxStrDigits < ds.length then .error .valueError
    else .ok (Nat.ofDigits 10 ds.reverse)

def int (s : Str) : Except Exn ℤ :=
  let s := py.strip s
  if s.head? = some '+' then py.natural s.tail
  else if s.head? = some '-' then (py.natural s.tail).map (- ·)
  else py.natural s

def Numeral (s : Str) : Prop :=
  (∀ c ∈ s, (py.decimal c).isSome = true) ∧ (py.maxStrDigits = 0 ∨ s.length ≤ py.maxStrDigits)

section Dates

/-- What a pattern reads at the start of a string, and what it leaves, in the order it is tried. -/
abbrev Reading := Str → List (ℕ × Str)

def between (lo hi c : Char) : Option ℕ := if lo ≤ c ∧ c ≤ hi then some (c.toNat - 48) else none

def one (p : Char → Option ℕ) : Reading
  | [] => []
  | c :: s => ((p c).map fun a => (a, s)).toList

def two (p q : Char → Option ℕ) : Reading := fun s =>
  (one p s).flatMap fun (a, s) => (one q s).map fun (b, s) => (10 * a + b, s)

def readMonth : Reading := fun s =>
  two (between '1' '1') (between '0' '2') s ++ two (between '0' '0') (between '1' '9') s ++
    one (between '1' '9') s

def readDay : Reading := fun s =>
  two (between '3' '3') (between '0' '1') s ++ two (between '1' '2') py.decimal s ++
    two (between '0' '0') (between '1' '9') s ++ one (between '1' '9') s ++
    two (fun c => if c = ' ' then some 0 else none) (between '1' '9') s

def readYear : Reading := fun s =>
  (two py.decimal py.decimal s).flatMap fun (a, s) =>
    (two py.decimal py.decimal s).map fun (b, s) => (100 * a + b, s)

def readDash : Reading := one fun c => if c = '-' then some 0 else none

/-- The year, the month and the day in the first reading of `%m-%d-%Y`, and what is behind it. -/
def readDate (s : Str) : Option (ℕ × ℕ × ℕ × Str) :=
  ((readMonth s).flatMap fun (month, s) => (readDash s).flatMap fun (_, s) =>
    (py.readDay s).flatMap fun (day, s) => (readDash s).flatMap fun (_, s) =>
      (py.readYear s).map fun (year, s) => (year, month, day, s)).head?

end Dates

section Int

variable {py} {s : Str}

lemma isnumeric_iff : py.isnumeric s = true ↔ s ≠ [] ∧ ∀ c ∈ s, py.isNumeric c = true := by
  simp [isnumeric]

lemma strip_of_numeric (h : ∀ c ∈ s, py.isNumeric c = true) : py.strip s = s := by
  have hspace (c : Char) (hc : c ∈ s) : ¬ py.isSpace c = true := by
    rw [py.not_space_of_numeric c (h c hc)]
    exact Bool.false_ne_true
  have hfront : s.dropWhile py.isSpace = s :=
    List.dropWhile_eq_self_iff.mpr fun _ => hspace _ (List.getElem_mem _)
  rw [strip, hfront, List.rdropWhile_eq_self_iff]
  exact fun hl => hspace _ (List.getLast_mem hl)

lemma digits_of_numeric (hne : s ≠ []) (h : ∀ c ∈ s, py.isNumeric c = true) : py.digits s =
    if s.all fun c => (py.decimal c).isSome then some (s.map fun c => (py.decimal c).getD 0)
    else none := by
  fun_induction py.digits s with
  | case1 => exact absurd rfl hne
  | case2 c => cases hc : py.decimal c <;> simp [hc]
  | case3 c c' cs ihUnderscore ih =>
    have hc' : c' ≠ '_' := by
      rintro rfl
      have hnum := h '_' (List.mem_cons_of_mem c List.mem_cons_self)
      rw [py.underscore_not_numeric] at hnum
      cases hnum
    rw [if_neg hc', ih (List.cons_ne_nil c' cs) fun d hd => h d (List.mem_cons_of_mem c hd),
      List.all_cons (a := c), List.map_cons (a := c)]
    cases py.decimal c with
    | none => rfl
    | some d =>
      rw [Option.isSome_some, Bool.true_and, Option.bind_some, Option.getD_some]
      split
      · rfl
      · rfl

lemma returns_natural_iff (h : py.isnumeric s = true) : Returns (py.natural s) ↔ py.Numeral s := by
  obtain ⟨hne, hnum⟩ := isnumeric_iff.mp h
  rw [natural, digits_of_numeric hne hnum, Numeral, ← List.all_eq_true]
  by_cases hall : (s.all fun c => (py.decimal c).isSome) = true
  · rw [if_pos hall]
    simp only [List.length_map]
    by_cases hlen : py.maxStrDigits ≠ 0 ∧ py.maxStrDigits < s.length
    · rw [if_pos hlen]
      refine iff_of_false (fun ⟨z, hz⟩ => by cases hz) fun hn => ?_
      exact hn.2.elim hlen.1 (Nat.not_le_of_lt hlen.2)
    · rw [if_neg hlen]
      exact iff_of_true ⟨_, rfl⟩ ⟨hall, by omega⟩
  · rw [if_neg hall]
    exact iff_of_false (fun ⟨z, hz⟩ => by cases hz) fun hn => hall hn.1

lemma int_of_isnumeric (h : py.isnumeric s = true) : py.int s = py.natural s := by
  obtain ⟨hne, hnum⟩ := isnumeric_iff.mp h
  have hhead (c : Char) (hc : py.isNumeric c = false) : s.head? ≠ some c := by
    intro hs
    rw [hnum c (List.mem_of_mem_head? hs)] at hc
    cases hc
  rw [int, strip_of_numeric hnum, if_neg (hhead _ py.sign_not_numeric.1),
    if_neg (hhead _ py.sign_not_numeric.2)]

lemma returns_int_iff (h : py.isnumeric s = true) : Returns (py.int s) ↔ py.Numeral s := by
  rw [int_of_isnumeric h, returns_natural_iff h]

end Int

end Interpreter

end TeamspeakWebserver.Python
