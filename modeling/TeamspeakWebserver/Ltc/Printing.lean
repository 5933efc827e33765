import TeamspeakWebserver.Ltc.Report

/-! The options of `ltc.cpp`, and what it prints. -/

namespace TeamspeakWebserver.Ltc.Cpp

open Text

structure ProgArgs where
  timeConstraint : ℤ
  tailCount : UInt32
  headCount : UInt32
  timeInSeconds : Bool
deriving DecidableEq

/-- What `getopt` finds, with its `optarg`. -/
inductive Flag where
  | d (optarg : Bytes)
  | s
  | h (optarg : Bytes)
  | t (optarg : Bytes)
  | other

def isSpace (b : UInt8) : Bool := b = 32 || 9 ≤ b && b ≤ 13

/-- `strtol` in base 10. `none` is an input without a number, at which `endptr` stays. -/
def strtol (input : Bytes) : Option ℤ :=
  let s := input.dropWhile isSpace
  let minus := s.head? = some 45
  let ds := (if minus ∨ s.head? = some 43 then s.tail else s).takeWhile isDigit
  let n : ℤ := if minus then -value ds else value ds
  if ds = [] then none else some (max (-2 ^ 63) (min (2 ^ 63 - 1) n))

/-! In the functions that follow `none` stands for `exit(1)`. -/

def getArgVal (input : Bytes) : Option ℤ :=
  (strtol input).filter fun val => -2 ^ 31 < val ∧ val < 2 ^ 31 - 1

section Args

variable (strptime : Bytes → Bytes → Option Tm) (mktime : Tm → ℤ)

def setFlag (args : ProgArgs) : Flag → Option ProgArgs
  | .d optarg => (strptime optarg (ascii "%m-%d-%Y")).map fun tm =>
      { args with timeConstraint := mktime tm }
  | .s => some { args with timeInSeconds := true }
  | .h optarg =>
    if args.tailCount ≠ 0 then none
    else (getArgVal optarg).map fun val => { args with headCount := UInt32.ofInt val }
  | .t optarg =>
    if args.headCount ≠ 0 then none
    else (getArgVal optarg).map fun val => { args with tailCount := UInt32.ofInt val }
  | .other => some args

def parseArgs (flags : List Flag) : Option ProgArgs :=
  flags.foldlM (setFlag strptime mktime)
    { timeConstraint := 0, tailCount := 0, headCount := 0, timeInSeconds := false }

end Args

/-- The quotients are stored in an `unsigned long`, so what is left of the seconds is computed there
too and brought back into a `time_t`. -/
def clock (secs : Int64) : UInt64 × UInt64 × UInt64 × Int64 :=
  let days := (secs / 86400).toUInt64
  let secs := (secs.toUInt64 - days * 86400).toInt64
  let hrs := (secs / 3600).toUInt64
  let secs := (secs.toUInt64 - hrs * 3600).toInt64
  let mins := (secs / 60).toUInt64
  let secs := (secs.toUInt64 - mins * 60).toInt64
  (days, hrs, mins, secs)

def showClock (t : UInt64 × UInt64 × UInt64 × Int64) : Bytes :=
  decimal t.1.toNat ++ (ascii "d " ++ (decimal t.2.1.toNat ++ (ascii "h " ++
    (decimal t.2.2.1.toNat ++ (ascii "m " ++ (Rust.showInt t.2.2.2.toInt ++ ascii "s"))))))

def showTime (timeInSeconds : Bool) (secs : Int64) : Bytes :=
  if timeInSeconds then Rust.showInt secs.toInt else showClock (clock secs)

def printClientTime (timeInSeconds : Bool) (c : Client ℤ) : Bytes :=
  showTime timeInSeconds c.seconds ++ 9 :: (c.name ++ [10])

/-- The loops that count `head_count` or `tail_count` down. -/
def printCounted (timeInSeconds : Bool) : UInt32 → List (Client ℤ) → Bytes
  | _, [] => []
  | count, c :: cs =>
    if count = 0 then []
    else printClientTime timeInSeconds c ++ printCounted timeInSeconds (count - 1) cs

def printClientTimes (args : ProgArgs) (clientVec : List (Client ℤ)) : Bytes :=
  if args.headCount ≠ 0 then printCounted args.timeInSeconds args.headCount clientVec
  else if args.tailCount ≠ 0 then
    printCounted args.timeInSeconds args.tailCount clientVec.reverse
  else clientVec.reverse.flatMap (printClientTime args.timeInSeconds)

/-- `sort` with `std::greater`, which need not be stable. -/
def SortsClients (clients clientVec : List (Client ℤ)) : Prop :=
  clientVec.Perm clients ∧ clientVec.Pairwise fun a b => b.seconds ≤ a.seconds

/-- What `process_action_on_line` writes on the standard output. -/
def complaint (line : Bytes) : Bytes :=
  match parseLine line with
  | none => []
  | some (_, _, id) =>
    if id = 1 then []
    else if id ≤ 0 then ascii "Failed to parse id! Line: " ++ (line ++ [10])
    else []

def complaints (order : List (ℤ × LogFile)) : Bytes :=
  order.flatMap fun log => log.2.lines.flatMap complaint

/-- `std::getline` keeps a carriage return. -/
def lines (content : Bytes) : List Bytes :=
  let pieces := content.splitOn 10
  pieces.dropLast ++ (pieces.getLast?.filter (· ≠ [])).toList

def openFile (file : Bytes × Bytes) : LogFile := { name := file.1, lines := lines file.2 }

/-- A run of `main` behind its options, in which the logs are taken in this order and the clients are
sorted into this one. The order of `client_map` is arbitrary. -/
def Runs (strptime : Bytes → Bytes → Option Tm) (args : ProgArgs) (dir : Bytes)
    (entries : List LogFile) (order : List (ℤ × LogFile)) (clientVec : List (Client ℤ)) : Prop :=
  ∃ logs clients, compileLogs strptime dir entries = some logs ∧ Sorted logs order ∧
    Rust.Enumerates (parseFiles strptime args.timeConstraint order noClients) clients ∧
    SortsClients clients clientVec

def stdout (args : ProgArgs) (order : List (ℤ × LogFile)) (clientVec : List (Client ℤ)) : Bytes :=
  complaints order ++ printClientTimes args clientVec

section Clock

variable {a k : Int64}

lemma remainder (hk : 1 < k.toInt) : (a - a / k * k).toInt = a.toInt.tmod k.toInt := by
  have hne : k ≠ -1 := by
    rintro rfl
    exact absurd hk (by decide)
  have hmod := Int64.toInt_mod a k
  rw [Int64.toInt_sub, Int64.toInt_mul, Int64.toInt_div_of_ne_right a k hne, Int.sub_bmod_bmod,
    mul_comm, ← Int.tmod_def, ← hmod, Int64.toInt_bmod]

lemma quotient (hk : 1 < k.toInt) (ha : 0 ≤ a.toInt) :
    ((a / k).toUInt64.toNat : ℤ) = a.toInt / k.toInt := by
  have hne : k ≠ -1 := by
    rintro rfl
    exact absurd hk (by decide)
  have hdiv := Int64.toInt_div_of_ne_right a k hne
  rw [Int.tdiv_eq_ediv_of_nonneg ha] at hdiv
  have hpos : 0 ≤ a.toInt / k.toInt := Int.ediv_nonneg ha (by omega)
  have hle : (0 : Int64) ≤ a / k := by
    rw [Int64.le_iff_toInt_le, hdiv]
    exact hpos
  rw [Int64.toNat_toUInt64_of_le hle, Int64.toNatClampNeg, hdiv, Int.toNat_of_nonneg hpos]

/-- The detour through `unsigned long` loses nothing. -/
lemma clock_eq (secs : Int64) : clock secs =
    let r₁ := secs - secs / 86400 * 86400
    let r₂ := r₁ - r₁ / 3600 * 3600
    ((secs / 86400).toUInt64, (r₁ / 3600).toUInt64, (r₂ / 60).toUInt64, r₂ - r₂ / 60 * 60) := by
  simp only [clock, UInt64.toInt64_sub, UInt64.toInt64_mul, Int64.toInt64_toUInt64,
    UInt64.toInt64_ofNat]

lemma clock_nonneg {secs : Int64} (h : 0 ≤ secs.toInt) :
    ((clock secs).1.toNat : ℤ) = secs.toInt / 86400 ∧
    ((clock secs).2.1.toNat : ℤ) = secs.toInt % 86400 / 3600 ∧
    ((clock secs).2.2.1.toNat : ℤ) = secs.toInt % 3600 / 60 ∧
    (clock secs).2.2.2.toInt = secs.toInt % 60 := by
  have hday : (86400 : Int64).toInt = 86400 := by decide
  have hhour : (3600 : Int64).toInt = 3600 := by decide
  have hmin : (60 : Int64).toInt = 60 := by decide
  let r₁ : Int64 := secs - secs / 86400 * 86400
  let r₂ : Int64 := r₁ - r₁ / 3600 * 3600
  have h₁ : r₁.toInt = secs.toInt % 86400 := by
    rw [remainder (by decide), hday, Int.tmod_eq_emod_of_nonneg h]
  have h₁' : 0 ≤ r₁.toInt := by omega
  have h₂ : r₂.toInt = secs.toInt % 3600 := by
    rw [remainder (by decide), hhour, Int.tmod_eq_emod_of_nonneg h₁', h₁]
    omega
  have h₂' : 0 ≤ r₂.toInt := by omega
  rw [clock_eq]
  refine ⟨?_, ?_, ?_, ?_⟩
  · rw [← hday, ← quotient (by decide) h]
  · rw [← hhour, ← h₁, ← quotient (by decide) h₁']
  · rw [← hmin, ← h₂, ← quotient (by decide) h₂']
  · change (r₂ - r₂ / 60 * 60).toInt = _
    rw [remainder (by decide), hmin, Int.tmod_eq_emod_of_nonneg h₂', h₂]
    omega

lemma clock_injective : Function.Injective clock := by
  intro secs secs' h
  have hsum (a b k : UInt64) : a = b * k + (a - b * k) := by grind
  have hparts (s : Int64) : s.toUInt64 = (clock s).1 * 86400 + ((clock s).2.1 * 3600 +
      ((clock s).2.2.1 * 60 + (clock s).2.2.2.toUInt64)) := by
    simp only [clock, UInt64.toUInt64_toInt64, ← hsum]
  have heq : secs.toUInt64 = secs'.toUInt64 := by rw [hparts secs, h, ← hparts secs']
  exact congrArg UInt64.toInt64 heq

end Clock

section Read

variable {m n : ℕ} {b : UInt8} {p q : Bytes}

lemma decimal_cons_inj (hb : isDigit b = false) (h : decimal m ++ b :: p = decimal n ++ b :: q) :
    m = n ∧ p = q := by
  have htake (k : ℕ) (r : Bytes) : (decimal k ++ b :: r).takeWhile isDigit = decimal k := by
    rw [List.takeWhile_append_of_pos (isDigit_decimal k), List.takeWhile_cons_of_neg (by simp [hb]),
      List.append_nil]
  have hmn : decimal m = decimal n := by rw [← htake m p, h, htake]
  refine ⟨?_, ?_⟩
  · rw [← value_decimal m, hmn, value_decimal]
  · rw [hmn] at h
    exact (List.cons.inj (List.append_cancel_left h)).2

lemma showInt_cons_inj {m n : ℤ} (hb : isDigit b = false)
    (h : Rust.showInt m ++ b :: p = Rust.showInt n ++ b :: q) : m = n ∧ p = q := by
  have hhead (k : ℕ) (r r' : Bytes) : decimal k ++ r ≠ 45 :: r' := by
    intro he
    cases hd : decimal k with
    | nil => exact decimal_ne_nil k hd
    | cons d ds =>
      have hdigit := isDigit_decimal k d (hd ▸ List.mem_cons_self)
      rw [hd, List.cons_append] at he
      rw [(List.cons.inj he).1] at hdigit
      cases hdigit
  rw [Rust.showInt, Rust.showInt] at h
  split at h
  case isTrue hm =>
    split at h
    case isTrue hn =>
      obtain ⟨hmn, hpq⟩ := decimal_cons_inj hb (List.cons.inj h).2
      exact ⟨by omega, hpq⟩
    case isFalse => exact absurd h.symm (hhead _ _ _)
  case isFalse hm =>
    split at h
    case isTrue => exact absurd h (hhead _ _ _)
    case isFalse hn =>
      obtain ⟨hmn, hpq⟩ := decimal_cons_inj hb h
      exact ⟨by omega, hpq⟩

lemma showClock_cons_inj {t t' : UInt64 × UInt64 × UInt64 × Int64}
    (h : showClock t ++ b :: p = showClock t' ++ b :: q) : t = t' ∧ p = q := by
  have hd : ascii "d " = 100 :: [32] := by decide
  have hh : ascii "h " = 104 :: [32] := by decide
  have hm : ascii "m " = 109 :: [32] := by decide
  have hs : ascii "s" = 115 :: [] := by decide
  simp only [showClock, hd, hh, hm, hs, List.append_assoc, List.cons_append, List.nil_append] at h
  obtain ⟨h₁, h⟩ := decimal_cons_inj (by decide) h
  obtain ⟨h₂, h⟩ := decimal_cons_inj (by decide) (List.cons.inj h).2
  obtain ⟨h₃, h⟩ := decimal_cons_inj (by decide) (List.cons.inj h).2
  obtain ⟨h₄, h⟩ := showInt_cons_inj (by decide) (List.cons.inj h).2
  refine ⟨?_, (List.cons.inj h).2⟩
  exact Prod.ext (UInt64.toNat_inj.mp h₁) (Prod.ext (UInt64.toNat_inj.mp h₂)
    (Prod.ext (UInt64.toNat_inj.mp h₃) (Int64.toInt_inj.mp h₄)))

lemma showTime_cons_inj {inSeconds : Bool} {secs secs' : Int64}
    (h : showTime inSeconds secs ++ 9 :: p = showTime inSeconds secs' ++ 9 :: q) :
    secs = secs' ∧ p = q := by
  rw [showTime, showTime] at h
  split at h
  · obtain ⟨hs, hpq⟩ := showInt_cons_inj (by decide) h
    exact ⟨Int64.toInt_inj.mp hs, hpq⟩
  · obtain ⟨hs, hpq⟩ := showClock_cons_inj h
    exact ⟨clock_injective hs, hpq⟩

end Read

section Names

variable {map : ClientMap ℤ} {P : Bytes → Prop}

lemma named_logConn (h : Rust.Named P map) {name : Bytes} (hn : P name) (id : UInt32) (t : ℤ) :
    Rust.Named P (logConn map name id t) := by
  rw [logConn]
  cases hc : map id with
  | none => exact h.insert hn
  | some client =>
    have hold := h id client hc
    apply h.insert
    rw [clientLogConn]
    dsimp only
    split
    · split
      · exact hn
      · exact hold
    · exact hold

lemma named_logDisconn (h : Rust.Named P map) (id : UInt32) (t : ℤ) :
    Rust.Named P (logDisconn map id t) := by
  rw [logDisconn]
  cases hc : map id with
  | none => exact h
  | some client =>
    have hold := h id client hc
    apply h.insert
    rw [clientLogDisconn]
    dsimp only
    split
    · split
      · exact hold
      · exact hold
    · exact hold

lemma named_resetClients (h : Rust.Named P map) : Rust.Named P (resetClients map) := by
  intro id c hm
  obtain ⟨c', hc', rfl⟩ := Option.mem_map.mp hm
  exact h id c' hc'

lemma name_subset {line name : Bytes} {action : ClientAction} {id : ℤ}
    (h : parseLine line = some (action, name, id)) : name ⊆ line := by
  have hread (a : ClientAction) (pos : ℕ) (h : readClient line a pos = some (action, name, id)) :
      name ⊆ line := by
    obtain ⟨n, hn, h⟩ := Option.bind_eq_some_iff.mp h
    obtain ⟨i, -, hi⟩ := Option.map_eq_some_iff.mp h
    obtain ⟨-, rfl, -⟩ : a = action ∧ n = name ∧ i = id := by simpa using hi
    obtain ⟨nameEnd, -, rfl⟩ := Option.map_eq_some_iff.mp hn
    intro b hb
    have hview := List.drop_subset _ _ (List.take_subset _ _ hb)
    exact List.drop_subset _ _ ((List.takeWhile_sublist _).subset hview)
  rw [parseLine] at h
  split at h
  · exact hread _ _ h
  · obtain ⟨pos, -, h⟩ := Option.bind_eq_some_iff.mp h
    exact hread _ pos h

lemma named_processActionOnLine {strptime : Bytes → Bytes → Option Tm} {timeConstraint : ℤ}
    (h : Rust.Named P map) {line : Bytes} (hP : ∀ name ⊆ line, P name) :
    Rust.Named P (processActionOnLine strptime timeConstraint map line) := by
  rw [processActionOnLine]
  split
  · exact h
  case h_2 action name id hparse =>
    dsimp only
    split
    · exact h
    · split
      · exact h
      · split
        · exact h
        · cases action with
          | connect => exact named_logConn h (hP name (name_subset hparse)) _ _
          | disconnect => exact named_logDisconn h _ _

lemma named_parseFiles {strptime : Bytes → Bytes → Option Tm} {timeConstraint : ℤ}
    {order : List (ℤ × LogFile)} (h : Rust.Named P map)
    (hP : ∀ log ∈ order, ∀ line ∈ log.2.lines, ∀ name ⊆ line, P name) :
    Rust.Named P (parseFiles strptime timeConstraint order map) := by
  refine List.foldlRecOn order _ h fun db hdb log hlog => named_resetClients ?_
  exact List.foldlRecOn log.2.lines _ hdb fun db hdb line hline =>
    named_processActionOnLine hdb (hP log hlog line hline)

lemma lineFeed_not_mem {content line : Bytes} (h : line ∈ lines content) : 10 ∉ line := by
  rcases List.mem_append.mp h with h | h
  · exact not_mem_of_splitOn (List.dropLast_subset _ h)
  · obtain ⟨hl, -⟩ := Option.filter_eq_some_iff.mp (Option.mem_toList.mp h)
    exact not_mem_of_splitOn (List.mem_of_getLast? hl)

variable {strptime : Bytes → Bytes → Option Tm} {args : ProgArgs} {dir : Bytes}
  {files : List (Bytes × Bytes)} {order : List (ℤ × LogFile)} {clientVec : List (Client ℤ)}

lemma Runs.opened (h : Runs strptime args dir (files.map openFile) order clientVec) :
    ∀ log ∈ order, ∀ line ∈ log.2.lines, 10 ∉ line := by
  obtain ⟨logs, clients, hlogs, hsorted, -⟩ := h
  intro log hlog line hline
  have hread : some log ∈ logs.map some := List.mem_map_of_mem (hsorted.1.subset hlog)
  rw [← Rust.mapM_eq_some.mp hlogs] at hread
  obtain ⟨file, hfile, hcreated⟩ := List.mem_map.mp hread
  obtain ⟨time, -, rfl⟩ := Option.map_eq_some_iff.mp hcreated
  obtain ⟨raw, -, rfl⟩ := List.mem_map.mp (List.mem_of_mem_filter hfile)
  exact lineFeed_not_mem hline

lemma Runs.names (h : Runs strptime args dir (files.map openFile) order clientVec) :
    ∀ c ∈ clientVec, 10 ∉ c.name := by
  have hopened := h.opened
  obtain ⟨logs, clients, -, -, henum, hperm, -⟩ := h
  have hempty : Rust.Named (10 ∉ ·) noClients := fun id c hc => by cases hc
  have hnamed : Rust.Named (10 ∉ ·)
      (parseFiles strptime args.timeConstraint order noClients) :=
    named_parseFiles hempty fun log hlog line hline _ hname hm =>
      hopened log hlog line hline (hname hm)
  exact fun c hc => henum.named hnamed c (hperm.subset hc)

end Names

end TeamspeakWebserver.Ltc.Cpp
