import TeamspeakWebserver.Ltc.Calendar
import TeamspeakWebserver.Python.Builtins

/-! `bot.py`: what the bot does with a message of the server chat. -/

namespace TeamspeakWebserver.Bot

open Python

inductive Value where
  | int (n : ℤ)
  | str (s : Str)
deriving DecidableEq

structure Event where
  invokerid : Value
  invokername : Str
  msg : Str

structure Completed where
  returncode : ℤ
  stdout : Str

/-- The draws of the generator in turn, and what `ltc` does with a date. -/
structure Surroundings where
  draw : ℕ → ℕ
  ltc : Str → Completed

/-- What the bot calls, all of it on `tsconn` in the end. -/
inductive Call where
  | globalMsg (gmsg : Str)
  | startFileFinder (file user : Str) (userid : Value)
deriving DecidableEq

structure Globals where
  py : Interpreter
  sayings : Str → Option (List Str)

def rollUsage : Str :=
  "Roll Usage: !roll \x7b# of dice\x7dd\x7b# of sides on die\x7d".toList

def ltcUsage : Str := "Usage: !ltc -d MM-DD-YYYY".toList

def findUsage : Str := "Usage: !find [hint]".toList

def output : Str := "\x7buser\x7d rolled \x7bdice\x7d for \x7btotal\x7d!".toList

def outputArgs (user dice : Str) (total : ℤ) : List (Str × Str) :=
  [("user".toList, user), ("dice".toList, dice), ("total".toList, str total)]

def strptime (py : Interpreter) (s : Str) : Except Exn (ℕ × ℕ × ℕ) :=
  match py.readDate s with
  | none => .error .valueError
  | some (year, month, day, rest) =>
    if rest ≠ [] ∨ year = 0 ∨ Ltc.daysInMonth (Ltc.isLeap year) month < day then .error .valueError
    else .ok (year, month, day)

def rolls (w : Surroundings) (numDie : ℕ) (dieVal : ℤ) : ℕ → Str → ℤ → Except Exn (Str × ℤ)
  | 0, sumString, total => .ok (sumString, total)
  | left + 1, sumString, total => do
    let i := numDie - (left + 1)
    let r ← randint 1 dieVal (w.draw i)
    let sumString := sumString ++ str r
    let sumString := if i ≠ numDie - 1 then sumString ++ " + ".toList else sumString
    rolls w numDie dieVal left sumString (total + r)

namespace Globals

variable (bot : Globals) (w : Surroundings)

def say (person : Str) : Except Exn (List Call) :=
  match bot.sayings person with
  | some (line :: lines) => do
    let i ← randint 0 lines.length (w.draw 0)
    return [.globalMsg (← item (line :: lines) i.toNat)]
  | _ => .ok [.globalMsg ("Cannot find sayings for ".toList ++ person)]

def throwDice (dice user : Str) (numDie dieVal : ℤ) : Except Exn (List Call) :=
  if numDie < 1 then .ok [.globalMsg "Throw atleast 1 die!".toList]
  else if 1000 < numDie then .ok [.globalMsg "Too many dice!".toList]
  else if dieVal < 1 then .ok [.globalMsg "The universe has imploded!".toList]
  else if 100 < dieVal then .ok [.globalMsg "That die is too large!".toList]
  else do
    let (sumString, total) ← rolls w numDie.toNat dieVal numDie.toNat [] 0
    let output := output ++ (" (".toList ++ sumString ++ ")".toList)
    return [.globalMsg (← format (outputArgs user dice total) output)]

def rollDice (dice user : Str) : Except Exn (List Call) :=
  match dice.splitOn 'd' with
  | [number, sides] =>
    if !bot.py.isnumeric number || !bot.py.isnumeric sides then .ok [.globalMsg rollUsage]
    else do throwDice w dice user (← bot.py.int number) (← bot.py.int sides)
  | _ => .ok [.globalMsg rollUsage]

def doLtc (tokens : List Str) : Except Exn (List Call) :=
  match tokens with
  | [option, date] =>
    if option ≠ "-d".toList then .ok [.globalMsg ltcUsage]
    else match strptime bot.py date with
      | .error .valueError => .ok [.globalMsg ltcUsage]
      | .error e => .error e
      | .ok _ =>
        let p := w.ltc date
        if p.returncode ≠ 0 then .ok [.globalMsg ltcUsage]
        else .ok ((splitlines p.stdout).map .globalMsg)
  | _ => .ok [.globalMsg ltcUsage]

def tokenized (e : Event) : List Str := (bot.py.lower e.msg).splitOn ' '

def obey (e : Event) (tokenized : List Str) (command : Str) : Except Exn (List Call) :=
  if command = "!find".toList ∨ command = "!get".toList then
    if tokenized.length = 2 then do
      return [.startFileFinder (← item tokenized 1) e.invokername e.invokerid]
    else .ok [.globalMsg findUsage]
  else if command = "!roll".toList then do bot.rollDice w (← item tokenized 1) e.invokername
  else if command = "!say".toList then do bot.say w (← item tokenized 1)
  else if command = "!ltc".toList then bot.doLtc w (tokenized.drop 1)
  else .ok []

/-- One turn of the loop in `start`, from the event that has come. -/
def process (e : Event) : Except Exn (List Call) :=
  if e.invokerid = .int 0 then .ok []
  else do bot.obey w e (bot.tokenized e) (← item (bot.tokenized e) 0)

def start : List (Surroundings × Event) → Except Exn (List Call)
  | [] => .ok []
  | (w, e) :: rest => do
    let calls ← bot.process w e
    return calls ++ (← start rest)

def Rollable (dice : Str) : Prop :=
  ∀ number sides, dice.splitOn 'd' = [number, sides] → bot.py.isnumeric number = true →
    bot.py.isnumeric sides = true → bot.py.Numeral number ∧ bot.py.Numeral sides

def Tolerable (tokens : List Str) : Prop :=
  (tokens[0]? = some "!roll".toList → ∃ dice, tokens[1]? = some dice ∧ bot.Rollable dice) ∧
    (tokens[0]? = some "!say".toList → ∃ person, tokens[1]? = some person)

section Returns

variable {bot : Globals} {w : Surroundings}

lemma rolls_returns {numDie : ℕ} {dieVal : ℤ} (hd : 1 ≤ dieVal) (left : ℕ) {sumString : Str}
    (hs : Plain sumString) (total : ℤ) :
    ∃ s t, rolls w numDie dieVal left sumString total = .ok (s, t) ∧ Plain s := by
  induction left generalizing sumString total with
  | zero => exact ⟨sumString, total, rfl, hs⟩
  | succ left ih =>
    obtain ⟨r, hr, -⟩ := randint_returns hd (w.draw (numDie - (left + 1)))
    have hr' : Plain (sumString ++ str r) := plain_append.mpr ⟨hs, plain_str r⟩
    have hplus : Plain " + ".toList := by simp [Plain]
    rw [rolls, hr]
    apply ih
    split
    · exact plain_append.mpr ⟨hr', hplus⟩
    · exact hr'

lemma say_returns (person : Str) : Returns (bot.say w person) := by
  rw [say]
  split
  case h_1 line lines hs =>
    obtain ⟨i, hi, h0, hle⟩ := randint_returns (Int.natCast_nonneg lines.length) (w.draw 0)
    have hlt : i.toNat < (line :: lines).length := by
      rw [List.length_cons]
      omega
    rw [hi]
    have hitem := item_eq_ok_iff.mpr (List.getElem?_eq_getElem hlt)
    exact returns_bind_iff.mpr ⟨i, rfl, returns_bind_iff.mpr ⟨_, hitem, returns_ok _⟩⟩
  case h_2 => exact returns_ok _

lemma output_eq : output = '\x7b' :: 'u' :: ['s', 'e', 'r'] ++ '\x7d' :: (" rolled ".toList ++
    ('\x7b' :: 'd' :: ['i', 'c', 'e'] ++ '\x7d' :: (" for ".toList ++
      ('\x7b' :: 't' :: ['o', 't', 'a', 'l'] ++ '\x7d' :: ['!'])))) := by
  decide

lemma lookup_outputArgs (user dice : Str) (total : ℤ) :
    (outputArgs user dice total).lookup ['u', 's', 'e', 'r'] = some user ∧
      (outputArgs user dice total).lookup ['d', 'i', 'c', 'e'] = some dice ∧
      (outputArgs user dice total).lookup ['t', 'o', 't', 'a', 'l'] = some (str total) := by
  simp [outputArgs, List.lookup_cons]

lemma format_output_returns (user dice : Str) (total : ℤ) {s : Str} (hs : Plain s) :
    Returns (format (outputArgs user dice total) (output ++ s)) := by
  have hfor : Plain " for ".toList := by simp [Plain]
  have hrolled : Plain " rolled ".toList := by simp [Plain]
  have hs' : Plain ('!' :: s) := List.forall_mem_cons.mpr ⟨by decide, hs⟩
  have hend : Returns (format (outputArgs user dice total) []) := returns_ok []
  obtain ⟨hu, hd, ht⟩ := lookup_outputArgs user dice total
  have htotal := returns_format_field 't' ['o', 't', 'a', 'l'] (by decide) (by decide) ht
    (returns_format_text hs' hend)
  have hdice := returns_format_field 'd' ['i', 'c', 'e'] (by decide) (by decide) hd
    (returns_format_text hfor htotal)
  have huser := returns_format_field 'u' ['s', 'e', 'r'] (by decide) (by decide) hu
    (returns_format_text hrolled hdice)
  rw [output_eq]
  simpa only [List.append_assoc, List.cons_append, List.nil_append, List.append_nil] using huser

lemma throwDice_returns (dice user : Str) (numDie dieVal : ℤ) :
    Returns (throwDice w dice user numDie dieVal) := by
  rw [throwDice]
  split_ifs with hfew hmany hflat hlarge
  · exact returns_ok _
  · exact returns_ok _
  · exact returns_ok _
  · exact returns_ok _
  · obtain ⟨s, t, hrolls, hs⟩ : ∃ s t, rolls w numDie.toNat dieVal numDie.toNat [] 0 = .ok (s, t) ∧
        Plain s := rolls_returns (not_lt.mp hflat) numDie.toNat (List.forall_mem_nil _) 0
    have hsum : Plain (" (".toList ++ s ++ ")".toList) := by
      simp only [plain_append]
      exact ⟨⟨by simp [Plain], hs⟩, by simp [Plain]⟩
    obtain ⟨msg, hmsg⟩ := format_output_returns user dice t hsum
    rw [hrolls]
    exact returns_bind_iff.mpr ⟨(s, t), rfl, returns_bind_iff.mpr ⟨msg, hmsg, returns_ok _⟩⟩

lemma rollDice_returns_iff (dice user : Str) :
    Returns (bot.rollDice w dice user) ↔ bot.Rollable dice := by
  rw [rollDice]
  split
  case h_1 number sides hsplit =>
    have hrollable : bot.Rollable dice ↔ (bot.py.isnumeric number = true →
        bot.py.isnumeric sides = true → bot.py.Numeral number ∧ bot.py.Numeral sides) := by
      constructor
      · exact fun h => h number sides hsplit
      · intro h number' sides' hsplit'
        rw [hsplit] at hsplit'
        cases hsplit'
        exact h
    rw [hrollable]
    by_cases hn : bot.py.isnumeric number = true
    · by_cases hs : bot.py.isnumeric sides = true
      · rw [if_neg (by rw [hn, hs]; decide)]
        simp only [hn, hs, true_implies]
        rw [← Interpreter.returns_int_iff hn, ← Interpreter.returns_int_iff hs, returns_bind_iff]
        constructor
        · rintro ⟨n, hint, h⟩
          obtain ⟨d, hint', -⟩ := returns_bind_iff.mp h
          exact ⟨⟨n, hint⟩, d, hint'⟩
        · rintro ⟨⟨n, hint⟩, d, hint'⟩
          exact ⟨n, hint, returns_bind_iff.mpr ⟨d, hint', throwDice_returns dice user n d⟩⟩
      · rw [if_pos (by simp [hs])]
        exact iff_of_true (returns_ok _) fun _ h => absurd h hs
    · rw [if_pos (by simp [hn])]
      exact iff_of_true (returns_ok _) fun h => absurd h hn
  case h_2 hsplit =>
    refine iff_of_true (returns_ok _) fun number sides h => ?_
    exact absurd h (hsplit number sides)

lemma strptime_error {s : Str} {e : Exn} (h : strptime bot.py s = .error e) : e = .valueError := by
  rw [strptime] at h
  split at h
  · cases h
    rfl
  · split at h
    · cases h
      rfl
    · cases h

lemma doLtc_returns (tokens : List Str) : Returns (bot.doLtc w tokens) := by
  unfold doLtc
  split
  case h_1 option date =>
    split
    · exact returns_ok _
    · split
      case h_1 => exact returns_ok _
      case h_2 e hne he => exact absurd (strptime_error he) hne
      case h_3 =>
        dsimp only
        split
        · exact returns_ok _
        · exact returns_ok _
  case h_2 => exact returns_ok _

lemma tokenized_zero (bot : Globals) (e : Event) :
    ∃ command, (bot.tokenized e)[0]? = some command := by
  have hne : bot.tokenized e ≠ [] := List.splitOn_ne_nil ' ' _
  obtain ⟨command, rest, he⟩ := List.exists_cons_of_ne_nil hne
  exact ⟨command, by rw [he]; rfl⟩

lemma returns_item_bind_iff {tokens : List Str} {i : ℕ} {f : Str → Except Exn (List Call)} :
    Returns (item tokens i >>= f) ↔ ∃ t, tokens[i]? = some t ∧ Returns (f t) := by
  simp only [returns_bind_iff, item_eq_ok_iff]

lemma obey_returns_iff (e : Event) (tokens : List Str) (command : Str) :
    Returns (bot.obey w e tokens command) ↔
      (command = "!roll".toList → ∃ dice, tokens[1]? = some dice ∧ bot.Rollable dice) ∧
        (command = "!say".toList → ∃ person, tokens[1]? = some person) := by
  rw [obey]
  by_cases hfind : command = "!find".toList ∨ command = "!get".toList
  · have hnot : command ≠ "!roll".toList ∧ command ≠ "!say".toList := by
      rcases hfind with rfl | rfl
      · decide
      · decide
    refine iff_of_true ?_ ⟨fun h => absurd h hnot.1, fun h => absurd h hnot.2⟩
    rw [if_pos hfind]
    split
    · exact returns_item_bind_iff.mpr ⟨_, List.getElem?_eq_getElem (by omega), returns_ok _⟩
    · exact returns_ok _
  · rw [if_neg hfind]
    by_cases hroll : command = "!roll".toList
    · have hsay : command ≠ "!say".toList := by
        rw [hroll]
        decide
      rw [if_pos hroll, returns_item_bind_iff]
      simp only [rollDice_returns_iff]
      exact ⟨fun h => ⟨fun _ => h, fun hs => absurd hs hsay⟩, fun h => h.1 hroll⟩
    · rw [if_neg hroll]
      by_cases hsay : command = "!say".toList
      · rw [if_pos hsay, returns_item_bind_iff]
        constructor
        · rintro ⟨person, hperson, -⟩
          exact ⟨fun h => absurd h hroll, fun _ => ⟨person, hperson⟩⟩
        · rintro ⟨-, h⟩
          obtain ⟨person, hperson⟩ := h hsay
          exact ⟨person, hperson, say_returns person⟩
      · refine iff_of_true ?_ ⟨fun h => absurd h hroll, fun h => absurd h hsay⟩
        rw [if_neg hsay]
        split
        · exact doLtc_returns _
        · exact returns_ok _

lemma process_returns_iff (e : Event) :
    Returns (bot.process w e) ↔ e.invokerid = .int 0 ∨ bot.Tolerable (bot.tokenized e) := by
  rw [process]
  split_ifs with hserver
  · exact iff_of_true (returns_ok _) (Or.inl hserver)
  · obtain ⟨command, hcommand⟩ := tokenized_zero bot e
    rw [or_iff_right hserver, Tolerable, hcommand, returns_item_bind_iff, hcommand]
    simp only [Option.some.injEq, exists_eq_left', obey_returns_iff]

end Returns

theorem start_returns_iff (events : List (Surroundings × Event)) : Returns (bot.start events) ↔
    ∀ p ∈ events, p.2.invokerid = .int 0 ∨ bot.Tolerable (bot.tokenized p.2) := by
  induction events with
  | nil => exact iff_of_true (returns_ok _) (List.forall_mem_nil _)
  | cons p rest ih =>
    obtain ⟨w, e⟩ := p
    rw [start, List.forall_mem_cons, ← ih, ← process_returns_iff (w := w)]
    constructor
    · intro h
      obtain ⟨calls, hcalls, hrest⟩ := returns_bind_iff.mp h
      obtain ⟨others, hothers, -⟩ := returns_bind_iff.mp hrest
      exact ⟨⟨calls, hcalls⟩, others, hothers⟩
    · rintro ⟨⟨calls, hcalls⟩, others, hothers⟩
      exact returns_bind_iff.mpr ⟨calls, hcalls, returns_bind_iff.mpr ⟨others, hothers, returns_ok _⟩⟩

def latin : Interpreter where
  lower := List.map Char.toLower
  isSpace c := (9 ≤ c.toNat ∧ c.toNat ≤ 13) ∨ (28 ≤ c.toNat ∧ c.toNat ≤ 32) ∨ c.toNat = 133 ∨
    c.toNat = 160
  isNumeric c := (48 ≤ c.toNat ∧ c.toNat ≤ 57) ∨ c.toNat ∈ [178, 179, 185, 188, 189, 190]
  decimal c := if 48 ≤ c.toNat ∧ c.toNat ≤ 57 then some (c.toNat - 48) else none
  maxStrDigits := 4300
  numeric_of_decimal c h := by
    split at h
    case isTrue hc => exact decide_eq_true (Or.inl hc)
    case isFalse => cases h
  not_space_of_numeric c h := by
    simp only [decide_eq_true_eq, decide_eq_false_iff_not, List.mem_cons, List.not_mem_nil,
      or_false] at h ⊢
    omega
  sign_not_numeric := by decide
  underscore_not_numeric := by decide

def message (msg : Str) : Event := ⟨.int 7, "somebody".toList, msg⟩

def still : Surroundings := ⟨fun _ => 0, fun _ => ⟨0, []⟩⟩

theorem roll_raises : ¬ ∀ (bot : Globals) (events : List (Surroundings × Event)),
    Returns (bot.start events) := by
  intro h
  have hraised : start ⟨latin, fun _ => none⟩ [(still, message "!roll".toList)] =
      .error .indexError := by
    rfl
  have hreturns := h ⟨latin, fun _ => none⟩ [(still, message "!roll".toList)]
  rw [hraised] at hreturns
  exact not_returns_error _ hreturns

/-- The square of two is numeric, and no digit. -/
example : process ⟨latin, fun _ => none⟩ still (message "!roll \u00b2d6".toList) =
    .error .valueError := by
  rfl

end Globals

end TeamspeakWebserver.Bot
