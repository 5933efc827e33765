import TeamspeakWebserver.Bot.Conversation
import TeamspeakWebserver.Ltc.Reporting

/-! What the chat is told of the report of `ltc.cpp`, which `do_ltc` of `bot.py` runs. -/

namespace TeamspeakWebserver.Bot

open Python Text Ltc

/-- What the text mode of `subprocess.run` makes of line ends. -/
def universalNewlines : Str → Str
  | [] => []
  | '\r' :: '\n' :: cs => '\n' :: universalNewlines cs
  | '\r' :: cs => '\n' :: universalNewlines cs
  | c :: cs => c :: universalNewlines cs

def IsLine (bytes : Bytes) : Prop :=
  ∃ l : Str, utf8 l = bytes ∧ ∀ c ∈ l, isLineBoundary c = false

def complained (order : List (ℤ × LogFile)) : List Bytes :=
  order.flatMap fun log =>
    (log.2.lines.filter (Cpp.complaint · ≠ [])).map (ascii "Failed to parse id! Line: " ++ ·)

def clientLine (c : Client ℤ) : Bytes := Cpp.showTime false c.seconds ++ 9 :: c.name

section Runs

variable (strptime : Bytes → Bytes → Option Tm) (mktime : Tm → ℤ) (dir : Bytes)
  (files : List (Bytes × Bytes)) (date : Str)

def Refuses : Prop :=
  Cpp.parseArgs strptime mktime [.d (utf8 date)] = none ∨
    Cpp.compileLogs strptime dir (files.map Cpp.openFile) = none

inductive RunsLtc : Completed → Prop
  | exits {stdout : Str} (h : Refuses strptime mktime dir files date) : RunsLtc ⟨1, stdout⟩
  | ends {args : Cpp.ProgArgs} {order : List (ℤ × LogFile)} {clientVec : List (Client ℤ)} {raw : Str}
      (hargs : Cpp.parseArgs strptime mktime [.d (utf8 date)] = some args)
      (h : Cpp.Runs strptime args dir (files.map Cpp.openFile) order clientVec)
      (hraw : utf8 raw = Cpp.stdout args order clientVec) : RunsLtc ⟨0, universalNewlines raw⟩

def Tellable : Prop :=
  ∀ args order clientVec, Cpp.parseArgs strptime mktime [.d (utf8 date)] = some args →
    Cpp.Runs strptime args dir (files.map Cpp.openFile) order clientVec →
      (∀ line ∈ complained order, IsLine line) ∧ ∀ c ∈ clientVec, IsLine c.name

def Reports (ms : List Message) : Prop :=
  ∃ args order clientVec clients cs, ∃ lines : List Str,
    Cpp.parseArgs strptime mktime [.d (utf8 date)] = some args ∧
    Cpp.Runs strptime args dir (files.map Cpp.openFile) order clientVec ∧
    Rust.Enumerates (Cpp.parseFiles strptime args.timeConstraint order noClients) clients ∧
    Cpp.Leads (fun a b => a.seconds ≤ b.seconds) clients.length clients cs ∧
    ms = lines.map Message.globalMsg ∧ lines.map utf8 = complained order ++ cs.map clientLine

end Runs

section Lines

variable {s l : Str} {ls : List Str}

lemma universalNewlines_eq (h : '\r' ∉ s) : universalNewlines s = s := by
  induction s with
  | nil => rfl
  | cons c s ih =>
    rw [List.mem_cons, not_or] at h
    have hc : universalNewlines (c :: s) = c :: universalNewlines s := by
      rw [universalNewlines]
      · rintro cs rfl
        exact absurd rfl h.1
      · rintro rfl
        exact absurd rfl h.1
    rw [hc, ih h.2]

lemma splitlinesFrom_line (h : ∀ c ∈ l, isLineBoundary c = false) (before rest : Str) :
    splitlinesFrom false before (l ++ '\n' :: rest) = (before ++ l) :: splitlinesFrom false [] rest := by
  induction l generalizing before with
  | nil =>
    rw [List.nil_append, List.append_nil, splitlinesFrom]
    rfl
  | cons c l ih =>
    obtain ⟨hc, hl⟩ := List.forall_mem_cons.mp h
    rw [List.cons_append, splitlinesFrom, Bool.false_and, if_neg Bool.false_ne_true, hc,
      if_neg Bool.false_ne_true, ih hl, List.append_assoc]
    rfl

lemma splitlines_lines (h : ∀ l ∈ ls, ∀ c ∈ l, isLineBoundary c = false) :
    splitlines (ls.flatMap fun l => l ++ ['\n']) = ls := by
  induction ls with
  | nil => rfl
  | cons l ls ih =>
    obtain ⟨hl, hls⟩ := List.forall_mem_cons.mp h
    rw [splitlines, List.flatMap_cons, List.append_assoc]
    refine (splitlinesFrom_line hl [] _).trans ?_
    rw [List.nil_append]
    exact congrArg (l :: ·) (ih hls)

lemma not_boundary_of_printable (h : ∀ b ∈ utf8 s, 32 ≤ b ∧ b < 128) :
    ∀ c ∈ s, isLineBoundary c = false := by
  intro c hc
  have hbytes : ∀ b ∈ String.utf8EncodeChar c, 32 ≤ b ∧ b < 128 := fun b hb =>
    h b (List.mem_flatMap.mpr ⟨c, hc, hb⟩)
  have hcontrol (hlt : c.toNat < 32) : False := by
    have hmem : UInt8.ofNat c.toNat ∈ String.utf8EncodeChar c := by
      rw [String.utf8EncodeChar, if_pos (show c.val.toNat ≤ 127 from by have : c.val.toNat < 32 := hlt; omega)]
      exact List.mem_singleton_self _
    have hle := UInt8.le_iff_toNat_le.mp (hbytes _ hmem).1
    rw [UInt8.toNat_ofNat', Nat.mod_eq_of_lt (by omega)] at hle
    exact absurd hlt (Nat.not_lt_of_le hle)
  have hlong (b : UInt8) (hb : 128 ≤ b) (hmem : b ∈ String.utf8EncodeChar c) : False :=
    absurd (hbytes b hmem).2 (UInt8.not_lt.mpr hb)
  have hfirst {n : ℕ} (hn : c.toNat = n) : c.val.toNat = n := hn
  by_contra hb
  rw [Bool.not_eq_false, isLineBoundary, decide_eq_true_eq] at hb
  rcases hb with hb | hb | hb | hb | hb
  · exact hcontrol (by omega)
  · exact hcontrol (by omega)
  · refine hlong 194 (by decide) ?_
    simp only [String.utf8EncodeChar, hfirst hb]
    decide
  · refine hlong 226 (by decide) ?_
    simp only [String.utf8EncodeChar, hfirst hb]
    decide
  · refine hlong 226 (by decide) ?_
    simp only [String.utf8EncodeChar, hfirst hb]
    decide

end Lines

section Report

variable {strptime : Bytes → Bytes → Option Tm} {mktime : Tm → ℤ} {dir : Bytes}
  {files : List (Bytes × Bytes)} {date : Str} {p : Completed} {bot : Globals}

lemma parseArgs_date {args : Cpp.ProgArgs}
    (h : Cpp.parseArgs strptime mktime [.d (utf8 date)] = some args) :
    args.headCount = 0 ∧ args.tailCount = 0 ∧ args.timeInSeconds = false := by
  simp only [Cpp.parseArgs, List.foldlM_cons, List.foldlM_nil, Cpp.setFlag, Option.bind_eq_bind,
    Option.bind_eq_some_iff, Option.map_eq_some_iff] at h
  obtain ⟨a, ⟨tm, -, rfl⟩, h⟩ := h
  obtain rfl := Option.some.inj h
  exact ⟨rfl, rfl, rfl⟩

lemma printable_of_isDigit {b : UInt8} (h : isDigit b = true) : 32 ≤ b ∧ b < 128 := by
  refine ⟨?_, lt_of_isDigit h⟩
  simp only [isDigit, Bool.and_eq_true, decide_eq_true_eq] at h
  exact UInt8.le_trans (by decide) h.1

lemma showTime_printable (secs : Int64) : ∀ b ∈ Cpp.showTime false secs, 32 ≤ b ∧ b < 128 := by
  have hdec (n : ℕ) : ∀ b ∈ decimal n, 32 ≤ b ∧ b < 128 := fun b hb =>
    printable_of_isDigit (isDigit_decimal n b hb)
  have hint (z : ℤ) : ∀ b ∈ Rust.showInt z, 32 ≤ b ∧ b < 128 := by
    rw [Rust.showInt]
    split
    · exact List.forall_mem_cons.mpr ⟨by decide, hdec _⟩
    · exact hdec _
  have hunit : (∀ b ∈ ascii "d ", 32 ≤ b ∧ b < 128) ∧ (∀ b ∈ ascii "h ", 32 ≤ b ∧ b < 128) ∧
      (∀ b ∈ ascii "m ", 32 ≤ b ∧ b < 128) ∧ ∀ b ∈ ascii "s", 32 ≤ b ∧ b < 128 := by
    decide +kernel
  rw [Cpp.showTime, if_neg Bool.false_ne_true, Cpp.showClock]
  simp only [List.forall_mem_append]
  exact ⟨hdec _, hunit.1, hdec _, hunit.2.1, hdec _, hunit.2.2.1, hint _, hunit.2.2.2⟩

lemma isLine_clientLine {c : Client ℤ} (h : IsLine c.name) : IsLine (clientLine c) := by
  obtain ⟨name, hname, hline⟩ := h
  have hprintable := showTime_printable c.seconds
  obtain ⟨time, htime⟩ := utf8_of_ascii (t := Cpp.showTime false c.seconds)
    (List.all_eq_true.mpr fun b hb => decide_eq_true (hprintable b hb).2)
  have htab : utf8 ('\t' :: name) = 9 :: c.name := by
    rw [utf8_cons, hname]
    rfl
  refine ⟨time ++ '\t' :: name, by rw [utf8_append, ← htime, htab, clientLine], ?_⟩
  rw [List.forall_mem_append, List.forall_mem_cons]
  refine ⟨not_boundary_of_printable ?_, by decide, hline⟩
  rw [← htime]
  exact hprintable

lemma lines_of_isLine {bs : List Bytes} (h : ∀ b ∈ bs, IsLine b) :
    ∃ lines : List Str, lines.map utf8 = bs ∧ ∀ l ∈ lines, ∀ c ∈ l, isLineBoundary c = false := by
  induction bs with
  | nil => exact ⟨[], rfl, List.forall_mem_nil _⟩
  | cons b bs ih =>
    obtain ⟨hb, hbs⟩ := List.forall_mem_cons.mp h
    obtain ⟨l, hl, hline⟩ := hb
    obtain ⟨lines, hlines, hall⟩ := ih hbs
    exact ⟨l :: lines, by rw [List.map_cons, hl, hlines], List.forall_mem_cons.mpr ⟨hline, hall⟩⟩

lemma complaint_eq (line : Bytes) : Cpp.complaint line = [] ∨
    Cpp.complaint line = (ascii "Failed to parse id! Line: " ++ line) ++ [10] := by
  rw [Cpp.complaint]
  split
  · exact Or.inl rfl
  · split
    · exact Or.inl rfl
    · split
      · exact Or.inr (List.append_assoc _ _ _).symm
      · exact Or.inl rfl

lemma flatMap_complaint (lines : List Bytes) : lines.flatMap Cpp.complaint =
    ((lines.filter (Cpp.complaint · ≠ [])).map (ascii "Failed to parse id! Line: " ++ ·)).flatMap
      fun line => line ++ [10] := by
  induction lines with
  | nil => rfl
  | cons line lines ih =>
    rw [List.flatMap_cons, ih, List.filter_cons]
    rcases complaint_eq line with h | h
    · rw [h, if_neg (by simp)]
      rfl
    · rw [h, if_pos (by simp)]
      rfl

lemma complaints_eq (order : List (ℤ × LogFile)) :
    Cpp.complaints order = (complained order).flatMap fun line => line ++ [10] := by
  rw [Cpp.complaints, complained, List.flatMap_assoc]
  exact List.flatMap_congr fun log _ => flatMap_complaint log.2.lines

lemma utf8_lines (lines : List Str) :
    utf8 (lines.flatMap fun l => l ++ ['\n']) = (lines.map utf8).flatMap fun l => l ++ [10] := by
  induction lines with
  | nil => rfl
  | cons l lines ih =>
    rw [List.flatMap_cons, utf8_append, utf8_append, ih, List.map_cons, List.flatMap_cons]
    rfl

lemma reports_of_ends {args : Cpp.ProgArgs} {order : List (ℤ × LogFile)} {clientVec : List (Client ℤ)}
    {raw : Str} (hargs : Cpp.parseArgs strptime mktime [.d (utf8 date)] = some args)
    (h : Cpp.Runs strptime args dir (files.map Cpp.openFile) order clientVec)
    (hraw : utf8 raw = Cpp.stdout args order clientVec)
    (htell : Tellable strptime mktime dir files date) :
    Reports strptime mktime dir files date ((splitlines (universalNewlines raw)).map .globalMsg) := by
  obtain ⟨hcomplained, hnames⟩ := htell args order clientVec hargs h
  obtain ⟨hhead, htail, hseconds⟩ := parseArgs_date hargs
  have hruns := h
  obtain ⟨logs, clients, -, -, henum, hsort⟩ := h
  have hlisted : Cpp.listed args clientVec = clientVec.reverse := by
    rw [Cpp.listed, if_neg (not_not.mpr hhead), if_neg (not_not.mpr htail)]
  have hleads := (Cpp.listed_selects hsort (Or.inl hhead)).2.2 hhead htail
  rw [hlisted] at hleads
  have hclients : ∀ b ∈ clientVec.reverse.map clientLine, IsLine b :=
    List.forall_mem_map.mpr fun c hc => isLine_clientLine (hnames c (List.mem_reverse.mp hc))
  obtain ⟨lines, hlines, hline⟩ := lines_of_isLine (List.forall_mem_append.mpr ⟨hcomplained, hclients⟩)
  have hprint : Cpp.printClientTime args.timeInSeconds = fun c => clientLine c ++ [10] := by
    funext c
    rw [hseconds, Cpp.printClientTime, clientLine, List.append_assoc]
    rfl
  have hdecoded : raw = lines.flatMap fun l => l ++ ['\n'] := by
    apply utf8_injective
    rw [hraw, Cpp.stdout, complaints_eq, Cpp.printClientTimes_eq, hlisted, hprint, utf8_lines, hlines,
      List.flatMap_append, List.flatMap_map]
  have hreturn : '\r' ∉ raw := by
    rw [hdecoded, List.mem_flatMap]
    rintro ⟨l, hl, hm⟩
    rcases List.mem_append.mp hm with hm | hm
    · exact absurd (hline l hl '\r' hm) (by decide)
    · exact absurd (List.mem_singleton.mp hm) (by decide)
  refine ⟨args, order, clientVec, clients, clientVec.reverse, lines, hargs, hruns, henum, hleads, ?_, hlines⟩
  rw [universalNewlines_eq hreturn, hdecoded, splitlines_lines hline]

lemma not_refuses_of_runs {args : Cpp.ProgArgs} {order : List (ℤ × LogFile)} {clientVec : List (Client ℤ)}
    (hargs : Cpp.parseArgs strptime mktime [.d (utf8 date)] = some args)
    (h : Cpp.Runs strptime args dir (files.map Cpp.openFile) order clientVec) :
    ¬ Refuses strptime mktime dir files date := by
  obtain ⟨logs, clients, hlogs, -⟩ := h
  rintro (hr | hr)
  · rw [hargs] at hr
    cases hr
  · rw [hlogs] at hr
    cases hr

def Globals.AsksReport (bot : Globals) (e : Event) (date : Str) : Prop :=
  e.invokerid ≠ .int 0 ∧ bot.tokenized e = ["!ltc".toList, "-d".toList, date]

lemma obeys_ltc {extract : Str → List Str → List (Str × ℕ)} {names : CidMap} {w : World} {e : Event}
    {words : List Str} {ms : List Message} (hw : words = ["!ltc".toList, "-d".toList, date])
    (h : Globals.Obeys extract bot names w e words ms) :
    (ms = (splitlines (w.surroundings.ltc date).stdout).map .globalMsg ∧
      Returns (Bot.strptime bot.py date) ∧ (w.surroundings.ltc date).returncode = 0) ∨
    (ms = [.globalMsg ltcUsage] ∧
      ¬ (Returns (Bot.strptime bot.py date) ∧ (w.surroundings.ltc date).returncode = 0)) := by
  have hne : "!ltc".toList ∉ Globals.findCommands ∧ "!roll".toList ≠ "!ltc".toList ∧
      "!say".toList ≠ "!ltc".toList ∧ "!ltc".toList ∈ Globals.commands := by
    decide
  cases h with
  | find hc => exact absurd ((List.cons.inj hw).1 ▸ hc) hne.1
  | findUsage hc => exact absurd ((List.cons.inj hw).1 ▸ hc) hne.1
  | roll => exact absurd (List.cons.inj hw).1 hne.2.1
  | say => exact absurd (List.cons.inj hw).1 hne.2.2.1
  | unknown => exact absurd (List.cons.inj hw).1 hne.2.2.1
  | ltc hreturns hp =>
    obtain ⟨rfl, -⟩ := List.cons.inj (List.cons.inj (List.cons.inj hw).2).2
    exact Or.inl ⟨rfl, hreturns, hp⟩
  | ltcUsage hno =>
    obtain ⟨-, rfl⟩ := List.cons.inj hw
    exact Or.inr ⟨rfl, fun h => hno ⟨date, rfl, h⟩⟩
  | silent hc => exact absurd hne.2.2.2 ((List.cons.inj hw).1 ▸ hc)

theorem report_relayed {extract : Str → List Str → List (Str × ℕ)} {bot : Globals}
    {events : List (World × Event)} {done : List Message × CidMap}
    (files : World × Event → List (Bytes × Bytes)) (h : bot.serve extract ∅ events = .ok done)
    (hltc : ∀ p ∈ events, ∀ date, bot.AsksReport p.2 date →
      RunsLtc strptime mktime dir (files p) date (p.1.surroundings.ltc date) ∧
        Tellable strptime mktime dir (files p) date) :
    ∃ answers : List (List Message), done.1 = answers.flatten ∧
      List.Forall₂ (fun p ms => ∀ date, bot.AsksReport p.2 date →
        (Returns (Bot.strptime bot.py date) ∧ ¬ Refuses strptime mktime dir (files p) date →
          Reports strptime mktime dir (files p) date ms) ∧
        (¬ (Returns (Bot.strptime bot.py date) ∧ ¬ Refuses strptime mktime dir (files p) date) →
          ms = [.globalMsg ltcUsage])) events answers := by
  obtain ⟨answers, hall, hanswers⟩ := Globals.answers_of_serve h
  have hmem : List.Forall₂ (fun p ms => p ∈ events ∧ bot.Answers extract (bot.names extract events) p ms)
      events answers := (List.forall₂_and_left events answers).mpr ⟨fun _ hp => hp, hanswers⟩
  refine ⟨answers, hall, hmem.imp ?_⟩
  rintro p ms ⟨hp, hans⟩ date hasks
  obtain ⟨hserver, hwords⟩ := hasks
  rw [Globals.Answers, if_neg hserver] at hans
  obtain ⟨hrun, htell⟩ := hltc p hp date ⟨hserver, hwords⟩
  have hcode : (p.1.surroundings.ltc date).returncode = 0 ↔
      ¬ Refuses strptime mktime dir (files p) date := by
    generalize p.1.surroundings.ltc date = c at hrun
    cases hrun with
    | exits hr => exact iff_of_false one_ne_zero (not_not.mpr hr)
    | ends hargs hr hraw => exact iff_of_true rfl (not_refuses_of_runs hargs hr)
  rw [← hcode]
  rcases obeys_ltc hwords hans with ⟨rfl, hreturns, hzero⟩ | ⟨rfl, hno⟩
  · refine ⟨fun _ => ?_, fun hno => absurd ⟨hreturns, hzero⟩ hno⟩
    generalize p.1.surroundings.ltc date = c at hrun hzero
    cases hrun with
    | exits hr => exact absurd hzero one_ne_zero
    | ends hargs hr hraw => exact reports_of_ends hargs hr hraw htell
  · exact ⟨fun hyes => absurd hyes hno, fun _ => rfl⟩

end Report

def dayStamp (text fmt : Bytes) : Option Tm :=
  if fmt = ascii "%m-%d-%Y" then
    if text = ascii "01-01-1970" then some ⟨70, 0, 1, 0, 0, 0⟩ else none
  else fillStamp text fmt

lemma dayStamp_fills : FillsTm dayStamp Cpp.fileFormat where
  line st rest := by
    rw [dayStamp, if_neg (by decide)]
    exact fillStamp_fills.line st rest
  file st rest := by
    rw [dayStamp, if_neg (by decide)]
    exact fillStamp_fills.file st rest

def sinceEver : Cpp.ProgArgs :=
  { timeConstraint := 0, tailCount := 0, headCount := 0, timeInSeconds := false }

lemma parseArgs_sinceEver :
    Cpp.parseArgs dayStamp (fun _ => 0) [.d (utf8 "01-01-1970".toList)] = some sinceEver := by
  decide

def visitsReport : Completed := ⟨0, "0d 1h 0m 0s\tbob\n0d 2h 0m 0s\tamy\n".toList⟩

def asking : World × Event :=
  (⟨⟨fun _ => 0, fun _ => visitsReport⟩, Globals.uploads, []⟩,
    Globals.message "!ltc -d 01-01-1970".toList)

lemma runsLtc_visitsReport : RunsLtc dayStamp (fun _ => 0) (ascii "logs") [twoVisits.raw]
    "01-01-1970".toList visitsReport := by
  have hraw : utf8 "0d 1h 0m 0s\tbob\n0d 2h 0m 0s\tamy\n".toList = Cpp.stdout sinceEver
      [(cppTime twoVisits.stamp, twoVisits.file)] [Cpp.hoursOfAmy, Cpp.hourOfBob] := by
    decide +kernel
  exact .ends parseArgs_sinceEver ((Cpp.runs_twoVisits dayStamp_fills rfl).mpr ⟨rfl, rfl⟩) hraw

lemma tellable_twoVisits :
    Tellable dayStamp (fun _ => 0) (ascii "logs") [twoVisits.raw] "01-01-1970".toList := by
  intro args order clientVec hargs h
  rw [parseArgs_sinceEver] at hargs
  obtain rfl := Option.some.inj hargs
  obtain ⟨rfl, rfl⟩ := (Cpp.runs_twoVisits dayStamp_fills rfl).mp h
  have hquiet : complained [(cppTime twoVisits.stamp, twoVisits.file)] = [] := by
    decide +kernel
  rw [hquiet, List.forall_mem_cons, List.forall_mem_singleton]
  exact ⟨List.forall_mem_nil _, ⟨"amy".toList, rfl, by simp [isLineBoundary]⟩,
    "bob".toList, rfl, by simp [isLineBoundary]⟩

theorem report_relayed_visit : ∃ done,
    Globals.serve Globals.sameName ⟨Globals.latin, fun _ => none⟩ ∅ [asking] = .ok done ∧
    done.1 = [.globalMsg "0d 1h 0m 0s\tbob".toList, .globalMsg "0d 2h 0m 0s\tamy".toList] ∧
    Reports dayStamp (fun _ => 0) (ascii "logs") [twoVisits.raw] "01-01-1970".toList done.1 := by
  have hdone : Globals.serve Globals.sameName ⟨Globals.latin, fun _ => none⟩ ∅ [asking] =
      .ok ([.globalMsg "0d 1h 0m 0s\tbob".toList, .globalMsg "0d 2h 0m 0s\tamy".toList], ∅) := by
    rfl
  refine ⟨_, hdone, rfl, ?_⟩
  have hwords : Globals.tokenized ⟨Globals.latin, fun _ => none⟩ asking.2 =
      ["!ltc".toList, "-d".toList, "01-01-1970".toList] := by
    decide
  obtain ⟨answers, hall, hanswers⟩ := report_relayed (fun _ => [twoVisits.raw]) hdone
    (fun p hp date h => by
      obtain rfl := List.mem_singleton.mp hp
      obtain ⟨-, hdate⟩ := h
      rw [hwords] at hdate
      obtain rfl := (List.cons.inj (List.cons.inj (List.cons.inj hdate).2).2).1
      exact ⟨runsLtc_visitsReport, tellable_twoVisits⟩)
  obtain ⟨ms, rest, hms, hrest, rfl⟩ := List.forall₂_cons_left_iff.mp hanswers
  obtain rfl := List.forall₂_nil_left_iff.mp hrest
  rw [hall, List.flatten_singleton]
  have hreads : Returns (Bot.strptime Globals.latin "01-01-1970".toList) := ⟨(1970, 1, 1), by rfl⟩
  exact (hms _ ⟨by decide, hwords⟩).1 ⟨hreads, not_refuses_of_runs parseArgs_sinceEver
    ((Cpp.runs_twoVisits dayStamp_fills rfl).mpr ⟨rfl, rfl⟩)⟩

end TeamspeakWebserver.Bot
