import TeamspeakWebserver.Bot.FileFinder
import TeamspeakWebserver.Text.Split

/-! The conversation that `bot.py` leads in the server chat, as the users of the chat see it. -/

namespace TeamspeakWebserver.Bot

open Python

namespace Globals

def findCommands : List Str := ["!find".toList, "!get".toList]

def commands : List Str := findCommands ++ ["!roll".toList, "!say".toList, "!ltc".toList]

/-- The numbers in front of the `d` and behind it. -/
def Asks (bot : Globals) (dice : Str) (numDie dieVal : ℤ) : Prop :=
  ∃ number sides, dice.splitOn 'd' = [number, sides] ∧ bot.py.isnumeric number = true ∧
    bot.py.isnumeric sides = true ∧ bot.py.int number = .ok numDie ∧ bot.py.int sides = .ok dieVal

def sumString (rs : List ℤ) : Str := ((rs.map str).intersperse " + ".toList).flatten

def announcement (user dice : Str) (rs : List ℤ) : Str :=
  user ++ (" rolled ".toList ++ (dice ++ (" for ".toList ++ (str rs.sum ++
    ("! (".toList ++ (sumString rs ++ ")".toList))))))

inductive Rolls (bot : Globals) (user dice : Str) : Str → Prop
  | usage (h : ¬ ∃ number sides, dice.splitOn 'd' = [number, sides] ∧ bot.py.isnumeric number = true ∧
      bot.py.isnumeric sides = true) : Rolls bot user dice rollUsage
  | few {n m : ℤ} (h : bot.Asks dice n m) (hn : n < 1) :
      Rolls bot user dice "Throw atleast 1 die!".toList
  | many {n m : ℤ} (h : bot.Asks dice n m) (hn : 1000 < n) : Rolls bot user dice "Too many dice!".toList
  | flat {n m : ℤ} (h : bot.Asks dice n m) (hn : 1 ≤ n ∧ n ≤ 1000) (hm : m < 1) :
      Rolls bot user dice "The universe has imploded!".toList
  | large {n m : ℤ} (h : bot.Asks dice n m) (hn : 1 ≤ n ∧ n ≤ 1000) (hm : 100 < m) :
      Rolls bot user dice "That die is too large!".toList
  | thrown {n m : ℤ} {rs : List ℤ} (h : bot.Asks dice n m) (hn : 1 ≤ n ∧ n ≤ 1000)
      (hm : 1 ≤ m ∧ m ≤ 100) (hlen : (rs.length : ℤ) = n) (hrs : ∀ r ∈ rs, 1 ≤ r ∧ r ≤ m) :
      Rolls bot user dice (announcement user dice rs)

inductive Obeys (extract : Str → List Str → List (Str × ℕ)) (bot : Globals) (names : CidMap) (w : World)
    (e : Event) : List Str → List Message → Prop
  | find {command file : Str} (h : command ∈ findCommands) :
      Obeys extract bot names w e [command, file]
        (Call.reply extract names w (.startFileFinder file e.invokername e.invokerid))
  | findUsage {command : Str} {args : List Str} (h : command ∈ findCommands) (hlen : args.length ≠ 1) :
      Obeys extract bot names w e (command :: args) [.globalMsg Bot.findUsage]
  | roll {dice msg : Str} {args : List Str} (h : bot.Rolls e.invokername dice msg) :
      Obeys extract bot names w e ("!roll".toList :: dice :: args) [.globalMsg msg]
  | say {person line : Str} {args lines : List Str} (h : bot.sayings person = some lines)
      (hline : line ∈ lines) :
      Obeys extract bot names w e ("!say".toList :: person :: args) [.globalMsg line]
  | unknown {person : Str} {args : List Str} (h : ∀ line lines, bot.sayings person ≠ some (line :: lines)) :
      Obeys extract bot names w e ("!say".toList :: person :: args)
        [.globalMsg ("Cannot find sayings for ".toList ++ person)]
  | ltc {date : Str} (h : Returns (strptime bot.py date)) (hp : (w.surroundings.ltc date).returncode = 0) :
      Obeys extract bot names w e ["!ltc".toList, "-d".toList, date]
        ((splitlines (w.surroundings.ltc date).stdout).map .globalMsg)
  | ltcUsage {args : List Str} (h : ¬ ∃ date, args = ["-d".toList, date] ∧
      Returns (strptime bot.py date) ∧ (w.surroundings.ltc date).returncode = 0) :
      Obeys extract bot names w e ("!ltc".toList :: args) [.globalMsg Bot.ltcUsage]
  | silent {command : Str} {args : List Str} (h : command ∉ commands) :
      Obeys extract bot names w e (command :: args) []

def Answers (extract : Str → List Str → List (Str × ℕ)) (bot : Globals) (names : CidMap)
    (p : World × Event) (ms : List Message) : Prop :=
  if p.2.invokerid = .int 0 then ms = []
  else Obeys extract bot names p.1 p.2 (bot.tokenized p.2) ms

section Format

variable {s : Str}

/-- What a user or the dice are called is put in as it is, braces and all. -/
lemma format_output (user dice : Str) (total : ℤ) (hs : Plain s) :
    format (outputArgs user dice total) (output ++ s) =
      .ok (user ++ (" rolled ".toList ++ (dice ++ (" for ".toList ++ (str total ++ ('!' :: s)))))) := by
  have hfor : Plain " for ".toList := by simp [Plain]
  have hrolled : Plain " rolled ".toList := by simp [Plain]
  have hs' : Plain ('!' :: s) := List.forall_mem_cons.mpr ⟨by decide, hs⟩
  have hend : format (outputArgs user dice total) [] = .ok [] := rfl
  obtain ⟨hu, hd, ht⟩ := lookup_outputArgs user dice total
  have hrest := format_text hs' hend
  rw [List.append_nil] at hrest
  have htotal := format_field 't' ['o', 't', 'a', 'l'] (by decide) (by decide) ht hrest
  have hdice := format_field 'd' ['i', 'c', 'e'] (by decide) (by decide) hd (format_text hfor htotal)
  have huser := format_field 'u' ['s', 'e', 'r'] (by decide) (by decide) hu (format_text hrolled hdice)
  rw [output_eq]
  simpa only [List.append_assoc, List.cons_append, List.nil_append, List.append_nil] using huser

end Format

section Dice

variable {bot : Globals} {w : Surroundings} {user dice : Str} {r : ℤ} {rs rs' : List ℤ}

lemma sumString_cons (r : ℤ) (rs : List ℤ) :
    sumString (r :: rs) = str r ++ (if rs = [] then [] else " + ".toList ++ sumString rs) := by
  cases rs with
  | nil => simp [sumString]
  | cons r' rs => simp [sumString]

lemma plain_sumString (rs : List ℤ) : Plain (sumString rs) := by
  induction rs with
  | nil => exact List.forall_mem_nil _
  | cons r rs ih =>
    have hplus : Plain " + ".toList := by simp [Plain]
    rw [sumString_cons, plain_append]
    refine ⟨plain_str r, ?_⟩
    split
    · exact List.forall_mem_nil _
    · exact plain_append.mpr ⟨hplus, ih⟩

lemma rolls_ok {numDie : ℕ} {dieVal : ℤ} (hd : 1 ≤ dieVal) (left : ℕ) (hleft : left ≤ numDie) (s : Str)
    (total : ℤ) : ∃ rs : List ℤ, rs.length = left ∧ (∀ r ∈ rs, 1 ≤ r ∧ r ≤ dieVal) ∧
      rolls w numDie dieVal left s total = .ok (s ++ sumString rs, total + rs.sum) := by
  induction left generalizing s total with
  | zero => exact ⟨[], rfl, List.forall_mem_nil _, by simp [rolls, sumString]⟩
  | succ left ih =>
    obtain ⟨r, hr, hrange⟩ := randint_returns hd (w.draw (numDie - (left + 1)))
    obtain ⟨rs, hlen, hrs, hrest⟩ := ih (by omega)
      (if numDie - (left + 1) ≠ numDie - 1 then s ++ str r ++ " + ".toList else s ++ str r) (total + r)
    refine ⟨r :: rs, by rw [List.length_cons, hlen], List.forall_mem_cons.mpr ⟨hrange, hrs⟩, ?_⟩
    have hlast : numDie - (left + 1) ≠ numDie - 1 ↔ rs ≠ [] := by
      rw [← List.length_pos_iff, hlen]
      omega
    rw [rolls, hr]
    refine hrest.trans ?_
    rw [sumString_cons, List.sum_cons, add_assoc]
    by_cases hnil : rs = []
    · rw [if_neg (mt hlast.mp (not_not.mpr hnil)), if_pos hnil, hnil]
      simp [sumString]
    · rw [if_pos (hlast.mpr hnil), if_neg hnil]
      simp only [List.append_assoc]

lemma throwDice_rolls {numDie dieVal : ℤ} (h : bot.Asks dice numDie dieVal) :
    ∃ msg, throwDice w dice user numDie dieVal = .ok [.globalMsg msg] ∧ bot.Rolls user dice msg := by
  rw [throwDice]
  split_ifs with hfew hmany hflat hlarge
  · exact ⟨_, rfl, .few h hfew⟩
  · exact ⟨_, rfl, .many h hmany⟩
  · exact ⟨_, rfl, .flat h ⟨not_lt.mp hfew, not_lt.mp hmany⟩ hflat⟩
  · exact ⟨_, rfl, .large h ⟨not_lt.mp hfew, not_lt.mp hmany⟩ hlarge⟩
  · obtain ⟨rs, hlen, hrs, hrolls⟩ := rolls_ok (w := w) (not_lt.mp hflat) numDie.toNat le_rfl [] 0
    have hsum : Plain (" (".toList ++ sumString rs ++ ")".toList) := by
      simp only [plain_append]
      exact ⟨⟨by simp [Plain], plain_sumString rs⟩, by simp [Plain]⟩
    have hlen' : (rs.length : ℤ) = numDie := by
      rw [hlen]
      omega
    rw [List.nil_append, zero_add] at hrolls
    refine ⟨announcement user dice rs, ?_, .thrown h ⟨not_lt.mp hfew, not_lt.mp hmany⟩
      ⟨not_lt.mp hflat, not_lt.mp hlarge⟩ hlen' hrs⟩
    simp only [bind, Except.bind, hrolls, format_output user dice rs.sum hsum]
    rfl

lemma rollDice_rolls {calls : List Call} (h : bot.rollDice w dice user = .ok calls) :
    ∃ msg, calls = [.globalMsg msg] ∧ bot.Rolls user dice msg := by
  rw [rollDice] at h
  split at h
  case h_1 number sides hsplit =>
    split at h
    case isTrue hnumeric =>
      refine ⟨rollUsage, (Except.ok.inj h).symm, .usage ?_⟩
      rintro ⟨number', sides', hsplit', hn, hs⟩
      rw [hsplit] at hsplit'
      cases hsplit'
      rw [hn, hs] at hnumeric
      exact absurd hnumeric (by decide)
    case isFalse hnumeric =>
      rw [Bool.or_eq_true, Bool.not_eq_true', Bool.not_eq_true', not_or, Bool.not_eq_false,
        Bool.not_eq_false] at hnumeric
      have hreturns : Returns (bot.rollDice w dice user) := by
        rw [rollDice, hsplit]
        simp only [hnumeric.1, hnumeric.2]
        exact ⟨calls, h⟩
      obtain ⟨hnum, hsides⟩ := (rollDice_returns_iff dice user).mp hreturns number sides hsplit
        hnumeric.1 hnumeric.2
      obtain ⟨n, hn⟩ := (Interpreter.returns_int_iff hnumeric.1).mpr hnum
      obtain ⟨m, hm⟩ := (Interpreter.returns_int_iff hnumeric.2).mpr hsides
      have hasks : bot.Asks dice n m := ⟨number, sides, hsplit, hnumeric.1, hnumeric.2, hn, hm⟩
      obtain ⟨msg, hmsg, hrolls⟩ :
          ∃ msg, throwDice w dice user n m = .ok [.globalMsg msg] ∧ bot.Rolls user dice msg :=
        throwDice_rolls hasks
      simp only [hn, hm, bind, Except.bind, hmsg] at h
      exact ⟨msg, (Except.ok.inj h).symm, hrolls⟩
  case h_2 hsplit =>
    refine ⟨rollUsage, (Except.ok.inj h).symm, .usage ?_⟩
    rintro ⟨number, sides, hsplit', -⟩
    exact hsplit number sides hsplit'

lemma str_eq_toDigits (h : 1 ≤ r) : str r = Nat.toDigits 10 r.natAbs := if_neg (by omega)

lemma str_inj {r' : ℤ} (h : 1 ≤ r) (h' : 1 ≤ r') (he : str r = str r') : r = r' := by
  rw [str_eq_toDigits h, str_eq_toDigits h'] at he
  have hn := congrArg (fun cs => Nat.ofDigitChars 10 cs 0) he
  simp only [Nat.ofDigitChars_toDigits (b := 10) (by decide) (by decide)] at hn
  omega

lemma not_mem_str {c : Char} (hc : c.isDigit = false) (h : 1 ≤ r) : c ∉ str r := by
  rw [str_eq_toDigits h]
  intro hm
  rw [Nat.isDigit_of_mem_toDigits (by decide) (by decide) hm] at hc
  cases hc

lemma sumString_inj (h : ∀ r ∈ rs, 1 ≤ r) (h' : ∀ r ∈ rs', 1 ≤ r)
    (he : sumString rs ++ ")".toList = sumString rs' ++ ")".toList) : rs = rs' := by
  have hne (r : ℤ) (rest : Str) (hr : 1 ≤ r) : ")".toList ≠ str r ++ rest := by
    intro he
    obtain ⟨c, cs, hc⟩ := List.exists_cons_of_ne_nil (Nat.toDigits_ne_nil (n := r.natAbs) (b := 10))
    have hparen : ')' ∉ str r := not_mem_str (by decide) hr
    rw [str_eq_toDigits hr, hc] at hparen he
    exact hparen ((List.cons.inj he).1 ▸ List.mem_cons_self)
  induction rs generalizing rs' with
  | nil =>
    cases rs' with
    | nil => rfl
    | cons r' rs' =>
      rw [sumString_cons, List.append_assoc] at he
      exact absurd he (hne r' _ (h' r' List.mem_cons_self))
  | cons r rs ih =>
    obtain ⟨hr, hrs⟩ := List.forall_mem_cons.mp h
    cases rs' with
    | nil =>
      rw [sumString_cons, List.append_assoc] at he
      exact absurd he.symm (hne r _ hr)
    | cons r' rs' =>
      obtain ⟨hr', hrs'⟩ := List.forall_mem_cons.mp h'
      -- one number ends where a sign or the bracket stands
      rw [sumString_cons, sumString_cons, List.append_assoc, List.append_assoc] at he
      by_cases hnil : rs = []
      · by_cases hnil' : rs' = []
        · rw [if_pos hnil, if_pos hnil'] at he
          rw [hnil, hnil', str_inj hr hr' (List.append_cancel_right he)]
        · rw [if_pos hnil, if_neg hnil'] at he
          have hsplit := congrArg (List.contains · ' ') he
          have hspace : ' ' ∉ str r := not_mem_str (by decide) hr
          simp [hspace] at hsplit
      · by_cases hnil' : rs' = []
        · rw [if_neg hnil, if_pos hnil'] at he
          have hsplit := congrArg (List.contains · ' ') he
          have hspace : ' ' ∉ str r' := not_mem_str (by decide) hr'
          simp [hspace] at hsplit
        · rw [if_neg hnil, if_neg hnil'] at he
          have hplus : " + ".toList = ' ' :: "+ ".toList := by decide
          simp only [hplus, List.cons_append, List.append_assoc] at he
          obtain ⟨hstr, hrest⟩ := Text.append_cons_inj (not_mem_str (by decide) hr)
            (not_mem_str (by decide) hr') he
          rw [str_inj hr hr' hstr, ih hrs hrs' (List.append_cancel_left hrest)]

lemma announcement_inj (h : ∀ r ∈ rs, 1 ≤ r) (h' : ∀ r ∈ rs', 1 ≤ r)
    (he : announcement user dice rs = announcement user dice rs') : rs = rs' := by
  have hpos (rs : List ℤ) (h : ∀ r ∈ rs, 1 ≤ r) : '!' ∉ str rs.sum := by
    have h0 : 0 ≤ rs.sum := List.sum_nonneg fun r hr => by have := h r hr; omega
    rw [str, if_neg (by omega)]
    intro hm
    exact absurd (Nat.isDigit_of_mem_toDigits (by decide) (by decide) hm) (by decide)
  have htail := List.append_cancel_left (List.append_cancel_left (List.append_cancel_left
    (List.append_cancel_left he)))
  have hmark : "! (".toList = '!' :: " (".toList := by decide
  rw [hmark] at htail
  obtain ⟨-, hrest⟩ := Text.append_cons_inj (hpos rs h) (hpos rs' h') htail
  exact sumString_inj h h' (List.append_cancel_left hrest)

end Dice

section Turn

variable {extract : Str → List Str → List (Str × ℕ)} {bot : Globals} {names : CidMap} {w : World}
  {e : Event} {calls : List Call}

lemma say_obeys {person : Str} {args : List Str} (h : bot.say w.surroundings person = .ok calls) :
    Obeys extract bot names w e ("!say".toList :: person :: args)
      (calls.flatMap (Call.reply extract names w)) := by
  rw [say] at h
  split at h
  case h_1 line lines hs =>
    obtain ⟨i, hi, h0, hle⟩ := randint_returns (Int.natCast_nonneg lines.length) (w.surroundings.draw 0)
    have hlt : i.toNat < (line :: lines).length := by
      rw [List.length_cons]
      omega
    have hitem := item_eq_ok_iff.mpr (List.getElem?_eq_getElem hlt)
    simp only [bind, Except.bind, hi, hitem] at h
    rw [← Except.ok.inj h]
    exact .say hs (List.getElem_mem hlt)
  case h_2 hs =>
    rw [← Except.ok.inj h]
    exact .unknown hs

lemma doLtc_obeys {args : List Str} (h : bot.doLtc w.surroundings args = .ok calls) :
    Obeys extract bot names w e ("!ltc".toList :: args) (calls.flatMap (Call.reply extract names w)) := by
  unfold doLtc at h
  split at h
  case h_1 option date =>
    split at h
    case isTrue hd =>
      rw [← Except.ok.inj h]
      refine .ltcUsage ?_
      rintro ⟨date', he, -⟩
      exact hd (List.cons.inj he).1
    case isFalse hd =>
      obtain rfl := not_not.mp hd
      split at h
      case h_1 he =>
        rw [← Except.ok.inj h]
        refine .ltcUsage ?_
        rintro ⟨date', hargs, hreturns, -⟩
        obtain rfl : date = date' := (List.cons.inj (List.cons.inj hargs).2).1
        rw [he] at hreturns
        exact not_returns_error _ hreturns
      case h_2 => cases h
      case h_3 day hday =>
        dsimp only at h
        split at h
        case isTrue hp =>
          rw [← Except.ok.inj h]
          refine .ltcUsage ?_
          rintro ⟨date', hargs, -, hzero⟩
          obtain rfl : date = date' := (List.cons.inj (List.cons.inj hargs).2).1
          exact hp hzero
        case isFalse hp =>
          rw [← Except.ok.inj h, List.flatMap_map]
          have hsingle : (splitlines (w.surroundings.ltc date).stdout).flatMap (fun line =>
              Call.reply extract names w (.globalMsg line)) =
              (splitlines (w.surroundings.ltc date).stdout).map .globalMsg :=
            List.map_eq_flatMap.symm
          rw [hsingle]
          exact .ltc ⟨day, hday⟩ (not_not.mp hp)
  case h_2 hargs =>
    rw [← Except.ok.inj h]
    refine .ltcUsage ?_
    rintro ⟨date, he, -⟩
    exact hargs _ _ he

lemma obey_obeys {command : Str} {args : List Str}
    (h : bot.obey w.surroundings e (command :: args) command = .ok calls) :
    Obeys extract bot names w e (command :: args) (calls.flatMap (Call.reply extract names w)) := by
  rw [obey] at h
  split at h
  case isTrue hfind =>
    have hcommand : command ∈ findCommands := by
      simpa [findCommands] using hfind
    split at h
    case isTrue hlen =>
      obtain ⟨file, rfl⟩ : ∃ file, args = [file] := List.length_eq_one_iff.mp (Nat.succ.inj hlen)
      rw [← Except.ok.inj h, List.flatMap_cons, List.flatMap_nil, List.append_nil]
      exact .find hcommand
    case isFalse hlen =>
      rw [← Except.ok.inj h]
      exact .findUsage hcommand fun h => hlen (congrArg Nat.succ h)
  case isFalse hfind =>
  split at h
  case isTrue hroll =>
    subst hroll
    cases args with
    | nil => cases h
    | cons dice args =>
      obtain ⟨msg, rfl, hrolls⟩ := rollDice_rolls h
      exact .roll hrolls
  case isFalse hroll =>
  split at h
  case isTrue hsay =>
    subst hsay
    cases args with
    | nil => cases h
    | cons person args => exact say_obeys h
  case isFalse hsay =>
  split at h
  case isTrue hltc =>
    subst hltc
    exact doLtc_obeys h
  case isFalse hltc =>
    rw [← Except.ok.inj h]
    refine .silent ?_
    simp only [commands, findCommands, List.mem_append, List.mem_cons, List.not_mem_nil, or_false]
    tauto

lemma answers_of_survives {p : World × Event} {N : CidMap} (h : bot.Survives extract N p) :
    bot.Answers extract names p (bot.replies extract names p) := by
  obtain ⟨w, e⟩ := p
  have hprocess := process_of_survives h
  rw [Answers, replies]
  split
  case isTrue hserver =>
    rw [process, if_pos hserver] at hprocess
    rw [← Except.ok.inj hprocess]
    rfl
  case isFalse hserver =>
    obtain ⟨command, args, hwords⟩ := List.exists_cons_of_ne_nil
      (List.splitOn_ne_nil ' ' (bot.py.lower e.msg))
    have htokens : bot.tokenized e = command :: args := hwords
    rw [process, if_neg hserver, htokens] at hprocess
    rw [htokens]
    exact obey_obeys hprocess

lemma answers_of_serve {events : List (World × Event)} {done : List Message × CidMap}
    (h : bot.serve extract ∅ events = .ok done) : ∃ answers : List (List Message),
      done.1 = answers.flatten ∧
      List.Forall₂ (bot.Answers extract (bot.names extract events)) events answers := by
  have hsurvives : ∀ p ∈ events, bot.Survives extract (bot.known extract ∅ events) p :=
    survives_of_serve events ∅ ⟨done, h⟩
  obtain ⟨map', hserve⟩ := serve_ok events ∅ hsurvives
  rw [hserve] at h
  obtain rfl := Except.ok.inj h
  refine ⟨events.map (bot.replies extract (bot.names extract events)), ?_, ?_⟩
  · rw [← List.flatMap_def]
    rfl
  · rw [List.forall₂_map_right_iff, List.forall₂_same]
    exact fun p hp => answers_of_survives (hsurvives p hp)

theorem conversation (extract : Str → List Str → List (Str × ℕ)) (bot : Globals)
    {events : List (World × Event)} {done : List Message × CidMap}
    (h : bot.serve extract ∅ events = .ok done) : ∃ answers : List (List Message),
      done.1 = answers.flatten ∧
      List.Forall₂ (bot.Answers extract (bot.names extract events)) events answers ∧
      ∀ user dice, Set.InjOn (announcement user dice) {rs | ∀ r ∈ rs, 1 ≤ r} := by
  obtain ⟨answers, hall, hanswers⟩ := answers_of_serve h
  exact ⟨answers, hall, hanswers, fun user dice rs h rs' h' he => announcement_inj h h' he⟩

theorem conversation_roll :
    let bot : Globals := ⟨latin, fun _ => none⟩
    let events := [(⟨still, uploads, []⟩, message "!roll 2d6".toList), searching "film".toList []]
    ∃ done answers, bot.serve sameName ∅ events = .ok done ∧ done.1.length = 3 ∧
      done.1 = List.flatten answers ∧
      List.Forall₂ (bot.Answers sameName (bot.names sameName events)) events answers := by
  intro bot events
  have hserve : ∃ done, bot.serve sameName ∅ events = .ok done ∧ done.1.length = 3 := ⟨_, rfl, rfl⟩
  obtain ⟨done, hdone, hlen⟩ := hserve
  obtain ⟨answers, hall, hanswers, -⟩ := conversation sameName bot hdone
  exact ⟨done, answers, hdone, hlen, hall, hanswers⟩

end Turn

end Globals

end TeamspeakWebserver.Bot
