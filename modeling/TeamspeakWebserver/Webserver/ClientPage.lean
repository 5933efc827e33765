import TeamspeakWebserver.Ltc.Reporting
import TeamspeakWebserver.Webserver.ClientTimes

/-! The client times of the index page, with either program for `ClientTimeConf.Prog`. -/

namespace TeamspeakWebserver.Webserver

open Ltc Text

section Fetch

variable (parseFromStr : Bytes → Bytes → Option ℤ) (strptime : Bytes → Bytes → Option Tm)
  (mktime : Tm → ℤ) (dir : Bytes) (files : List (Bytes × Bytes))

/-- `main.rs` panics, while it has printed nothing yet. -/
def RustPanics : Prop :=
  Rust.compileLogs parseFromStr dir (files.map Rust.openFile) = none ∨
    ∃ logs order, Rust.compileLogs parseFromStr dir (files.map Rust.openFile) = some logs ∧
      Batches.Drains Rust.LogFile.cmp logs order ∧
        Rust.parseFileList parseFromStr order noClients = none

/-- What `fetchClientTime` may return: the standard output of the program. -/
inductive FetchClientTime : (prog stdout : Bytes) → Prop
  | c {args order clientVec} : Cpp.parseArgs strptime mktime [.h (decimal numClients), .s] = some args →
      Cpp.Runs strptime args dir (files.map Cpp.openFile) order clientVec →
      FetchClientTime (ascii "C") (Cpp.stdout args order clientVec)
  | cExits : Cpp.compileLogs strptime dir (files.map Cpp.openFile) = none →
      FetchClientTime (ascii "C") []
  | rust {prog map clients} : prog ≠ ascii "C" →
      Rust.Compiles parseFromStr dir (files.map Rust.openFile) map → Rust.Enumerates map clients →
      FetchClientTime prog (Rust.sortAndPrintClientTimes clients)
  | rustPanics {prog} : prog ≠ ascii "C" → RustPanics parseFromStr dir files →
      FetchClientTime prog []

end Fetch

def pageArgs : Cpp.ProgArgs :=
  { timeConstraint := 0, tailCount := 0, headCount := 13, timeInSeconds := true }

lemma parseArgs_page (strptime : Bytes → Bytes → Option Tm) (mktime : Tm → ℤ) :
    Cpp.parseArgs strptime mktime [.h (decimal numClients), .s] = some pageArgs := by
  have hval : Cpp.getArgVal (decimal numClients) = some 13 := by decide
  simp only [Cpp.parseArgs, List.foldlM_cons, List.foldlM_nil, Cpp.setFlag, hval, ne_eq,
    not_true_eq_false, if_false, Option.map_some, Option.bind_eq_bind, Option.bind_some]
  rfl

section Lines

variable {clients : List (Client ℤ)}

lemma buildClientTimes_lines (h : ∀ c ∈ clients, lineFeed ∉ c.name) :
    buildClientTimes true (clients.flatMap fun c => Rust.clientLine c ++ [10]) =
      if ∀ c ∈ clients.take numClients, 0 ≤ c.seconds.toInt then
        some ((clients.take numClients).map entry)
      else none := by
  have hlines : ∀ line ∈ clients.map Rust.clientLine, lineFeed ∉ line := by
    intro line hl
    obtain ⟨c, hc, rfl⟩ := List.mem_map.mp hl
    rw [Rust.clientLine, List.mem_append, List.mem_cons, not_or, not_or]
    exact ⟨not_mem_showInt (by decide) (by decide) _, by decide, h c hc⟩
  have hsplit : (clients.flatMap fun c => Rust.clientLine c ++ [10]).splitOn lineFeed =
      clients.map Rust.clientLine ++ [[]] := by
    rw [← splitOn_ended hlines, List.flatMap_map]
    rfl
  rw [buildClientTimes, if_pos rfl, hsplit, take_report, ← List.map_take, foldlM_addEntry,
    List.nil_append]

lemma buildClientTimes_text {b : UInt8} (hb : isDigit b = false) (hlf : b ≠ lineFeed) (htab : b ≠ tab)
    (s : Bytes) : buildClientTimes true (b :: s) = none := by
  obtain ⟨line, rest, hsplit⟩ : ∃ line rest, (b :: s).splitOn lineFeed = (b :: line) :: rest := by
    rw [List.splitOn_cons_eq_if_modifyHead, if_neg (by simpa using hlf)]
    cases hs : s.splitOn lineFeed with
    | nil => exact absurd hs (List.splitOn_ne_nil _ _)
    | cons line rest => exact ⟨line, rest, rfl⟩
  have hword : ((b :: line).splitOn tab)[0]? = some (b :: line.takeWhile fun b => !b == tab) := by
    rw [splitOn_zero, List.takeWhile_cons_of_pos (by simpa using htab)]
  have hparse : parseUint (b :: line.takeWhile fun b => !b == tab) = none := by
    rw [parseUint, if_neg]
    rintro ⟨-, hall, -⟩
    rw [List.all_cons, hb] at hall
    cases hall
  have hadd : addEntry [] (b :: line) = none := by
    rw [addEntry, if_neg (by simp)]
    rw [hword, Option.bind_some, hparse, Option.bind_none]
  rw [buildClientTimes, if_pos rfl, hsplit, numClients, List.take_succ_cons, List.foldlM_cons, hadd]
  rfl

end Lines

section Programs

variable {strptime : Bytes → Bytes → Option Tm} {dir : Bytes} {files : List (Bytes × Bytes)}
  {order : List (ℤ × LogFile)} {clientVec : List (Client ℤ)}

def Complained (order : List (ℤ × LogFile)) : Prop :=
  ∃ log ∈ order, ∃ line ∈ log.2.lines, Cpp.complaint line ≠ []

lemma complaint_ne_nil {line : Bytes} (h : Cpp.complaint line ≠ []) :
    Cpp.complaint line = 70 :: (ascii "ailed to parse id! Line: " ++ (line ++ [10])) := by
  have hascii : ascii "Failed to parse id! Line: " = 70 :: ascii "ailed to parse id! Line: " := by
    decide
  rw [Cpp.complaint, hascii] at h ⊢
  split at h
  case h_1 => exact absurd rfl h
  case h_2 =>
    split at h
    case isTrue => exact absurd rfl h
    case isFalse h1 =>
      split at h
      case isTrue h0 => rw [if_neg h1, if_pos h0, List.cons_append]
      case isFalse => exact absurd rfl h

lemma complaints_cons (h : Complained order) : ∃ rest, Cpp.complaints order = 70 :: rest := by
  have hne : Cpp.complaints order ≠ [] := by
    obtain ⟨log, hlog, line, hline, hc⟩ := h
    intro h0
    exact hc (List.flatMap_eq_nil_iff.mp (List.flatMap_eq_nil_iff.mp h0 log hlog) line hline)
  have hall : ∀ b ∈ (Cpp.complaints order).head?, b = 70 := by
    rw [Cpp.complaints, ← List.flatMap_assoc]
    generalize order.flatMap (fun log => log.2.lines) = ls
    induction ls with
    | nil =>
      intro b hb
      cases hb
    | cons line ls ih =>
      by_cases hc : Cpp.complaint line = []
      · rw [List.flatMap_cons, hc, List.nil_append]
        exact ih
      · rw [List.flatMap_cons, complaint_ne_nil hc, List.cons_append]
        intro b hb
        exact (Option.some.inj hb).symm
  cases hs : Cpp.complaints order with
  | nil => exact absurd hs hne
  | cons b rest =>
    rw [hs] at hall
    rw [hall b rfl]
    exact ⟨rest, rfl⟩

lemma complaints_nil (h : ¬ Complained order) : Cpp.complaints order = [] := by
  rw [Cpp.complaints, List.flatMap_eq_nil_iff]
  intro log hlog
  rw [List.flatMap_eq_nil_iff]
  intro line hline
  by_contra hc
  exact h ⟨log, hlog, line, hline, hc⟩

lemma printed_page (clientVec : List (Client ℤ)) : Cpp.printClientTimes pageArgs clientVec =
    (clientVec.take numClients).flatMap fun c => Rust.clientLine c ++ [10] := by
  have hprint : Cpp.printClientTime pageArgs.timeInSeconds = fun c => Rust.clientLine c ++ [10] := by
    funext c
    rw [Rust.clientLine, List.append_assoc]
    rfl
  rw [Cpp.printClientTimes_eq, hprint]
  rfl

lemma page_of_runs (h : Cpp.Runs strptime pageArgs dir (files.map Cpp.openFile) order clientVec) :
    (Complained order → buildClientTimes true (Cpp.stdout pageArgs order clientVec) = none) ∧
    (¬ Complained order → buildClientTimes true (Cpp.stdout pageArgs order clientVec) =
      if ∀ c ∈ clientVec.take numClients, 0 ≤ c.seconds.toInt then
        some ((clientVec.take numClients).map entry)
      else none) := by
  constructor
  · intro hc
    obtain ⟨rest, hrest⟩ := complaints_cons hc
    rw [Cpp.stdout, hrest, List.cons_append]
    exact buildClientTimes_text (by decide) (by decide) (by decide) _
  · intro hc
    rw [Cpp.stdout, complaints_nil hc, List.nil_append, printed_page, buildClientTimes_lines,
      List.take_take, Nat.min_self]
    exact fun c hm => h.names c (List.mem_of_mem_take hm)

end Programs

theorem page_of_c (parseFromStr : Bytes → Bytes → Option ℤ) (strptime : Bytes → Bytes → Option Tm)
    (mktime : Tm → ℤ) (dir : Bytes) (files : List (Bytes × Bytes)) (stdout : Bytes)
    (h : FetchClientTime parseFromStr strptime mktime dir files (ascii "C") stdout) :
    (Cpp.compileLogs strptime dir (files.map Cpp.openFile) = none ∧
      buildClientTimes true stdout = some []) ∨
    ∃ logs order clients first, Cpp.compileLogs strptime dir (files.map Cpp.openFile) = some logs ∧
      Sorted logs order ∧ Rust.Enumerates (Cpp.parseFiles strptime 0 order noClients) clients ∧
      Cpp.Leads (fun a b => b.seconds ≤ a.seconds) numClients clients first ∧
      (buildClientTimes true stdout = none ↔
        Complained order ∨ ∃ c ∈ first, c.seconds.toInt < 0) ∧
      ((∃ entries, buildClientTimes true stdout = some entries ∧ List.Forall₂ Exact first entries) ↔
        ¬ Complained order ∧ ∀ c ∈ first, Presentable c) := by
  generalize hprog : ascii "C" = prog at h
  cases h with
  | cExits hlogs => exact Or.inl ⟨hlogs, rfl⟩
  | rust hne => exact absurd hprog.symm hne
  | rustPanics hne => exact absurd hprog.symm hne
  | @c args order clientVec hargs hruns =>
    rw [parseArgs_page] at hargs
    obtain rfl := Option.some.inj hargs
    obtain ⟨hcomplained, hquiet⟩ := page_of_runs hruns
    obtain ⟨logs, clients, hlogs, hsorted, henum, hperm, hdesc⟩ := hruns
    refine Or.inr ⟨logs, order, clients, clientVec.take numClients, hlogs, hsorted, henum,
      Cpp.leads_take hperm hdesc _, ?_⟩
    by_cases hc : Complained order
    · rw [hcomplained hc]
      simp [hc]
    · rw [hquiet hc]
      by_cases hpos : ∀ c ∈ clientVec.take numClients, 0 ≤ c.seconds.toInt
      · have hexact : List.Forall₂ Exact (clientVec.take numClients)
            ((clientVec.take numClients).map entry) ↔ ∀ c ∈ clientVec.take numClients, tab ∉ c.name := by
          rw [List.forall₂_map_right_iff, List.forall₂_same]
          exact forall₂_congr fun c hm => exact_entry (hpos c hm)
        rw [if_pos hpos]
        refine ⟨?_, ?_⟩
        · simp only [reduceCtorEq, hc, false_or, false_iff, not_exists, not_and, not_lt]
          exact hpos
        · simp only [Option.some.injEq, exists_eq_left', hexact, hc, not_false_eq_true, true_and]
          exact ⟨fun ht c hm => ⟨hpos c hm, ht c hm⟩, fun ht c hm => (ht c hm).2⟩
      · rw [if_neg hpos]
        refine ⟨?_, ?_⟩
        · simpa [hc] using hpos
        · simp only [reduceCtorEq, false_and, exists_false, hc, not_false_eq_true, true_and, false_iff]
          exact fun ht => hpos fun c hm => (ht c hm).1

section Visits

lemma fetch_visits : FetchClientTime parseStamp fillStamp (fun _ => 0) (ascii "logs") [twoVisits.raw]
    (ascii "C") (ascii "7200\tamy\n3600\tbob\n") := by
  have hout : Cpp.stdout pageArgs [(cppTime twoVisits.stamp, twoVisits.file)]
      [Cpp.hoursOfAmy, Cpp.hourOfBob] = ascii "7200\tamy\n3600\tbob\n" := by decide +kernel
  rw [← hout]
  exact .c (parseArgs_page _ _) ((Cpp.runs_twoVisits fillStamp_fills rfl).mpr ⟨rfl, rfl⟩)

end Visits

theorem page_of_c_visits : ∃ clients first, clients.Perm [Cpp.hourOfBob, Cpp.hoursOfAmy] ∧
    Cpp.Leads (fun a b => b.seconds ≤ a.seconds) numClients clients first ∧
    ((∃ entries, buildClientTimes true (ascii "7200\tamy\n3600\tbob\n") = some entries ∧
      List.Forall₂ Exact first entries) → ∀ c ∈ first, Presentable c) := by
  rcases page_of_c _ _ _ _ _ _ fetch_visits with
    ⟨-, hpage⟩ | ⟨logs, order, clients, first, hlogs, hsorted, henum, h, -, he⟩
  · exact absurd hpage (by decide +kernel)
  · have hmap := (Cpp.computes_legible fillStamp_fills legible_twoVisits (by
      rw [List.map_singleton, Cpp.openFile_raw]
      decide)).mp ⟨logs, order, hlogs, hsorted, rfl⟩
    rw [hmap, Cpp.database_twoVisits] at henum
    exact ⟨clients, first, henum.perm Cpp.enumerates_visitors, h, fun hs => (he.mp hs).2⟩

section Agreement

variable {parseFromStr : Bytes → Bytes → Option ℤ} {strptime : Bytes → Bytes → Option Tm}
  {mktime : Tm → ℤ} {dir : Bytes} {files : List (Bytes × Bytes)} {logs : List Log}

lemma enumerates_shown {m m' : ClientMap ℤ} {cs : List (Client ℤ)} (h : Rust.Enumerates m cs)
    (hs : ∀ id, (m id).map Client.shown = (m' id).map Client.shown) :
    ∃ cs', Rust.Enumerates m' cs' ∧ cs.map Client.shown = cs'.map Client.shown := by
  obtain ⟨ids, hn, hids, rfl⟩ := h
  refine ⟨ids.filterMap m', ⟨ids, hn, fun id => ?_, rfl⟩, ?_⟩
  · rw [hids, ← Option.isSome_map, hs, Option.isSome_map]
  · rw [List.map_filterMap, List.map_filterMap]
    simp only [hs]

def secondsOf (shown : ℤ × Bytes) : Int64 := Int64.ofInt shown.1

def Descends (page : List (ℤ × Bytes)) : Prop :=
  page.Pairwise fun a b => secondsOf b ≤ secondsOf a

def entryOf (shown : ℤ × Bytes) : ClientTimeEntry :=
  { totalTime := (secondsOf shown).toInt.toNat.toUInt64
    clientName := shown.2.takeWhile fun b => !b == tab }

def Presents (m : ClientMap ℤ) (entries : Option (List ClientTimeEntry)) : Prop :=
  ∃ cs page, Rust.Enumerates m cs ∧ page.Perm (cs.map Client.shown) ∧ Descends page ∧
    entries = if ∀ p ∈ page.take numClients, 0 ≤ (secondsOf p).toInt then
      some ((page.take numClients).map entryOf) else none

lemma presents_of_sorted {m : ClientMap ℤ} {cs v : List (Client ℤ)} (h : Rust.Enumerates m cs)
    (hp : v.Perm cs) (hv : v.Pairwise fun a b => b.seconds ≤ a.seconds) :
    Presents m (if ∀ c ∈ v.take numClients, 0 ≤ c.seconds.toInt then
      some ((v.take numClients).map entry) else none) := by
  refine ⟨cs, v.map Client.shown, h, hp.map _, List.pairwise_map.mpr hv, ?_⟩
  rw [← List.map_take, List.map_map]
  simp only [List.forall_mem_map]
  rfl

lemma Presents.congr {m m' : ClientMap ℤ} {entries : Option (List ClientTimeEntry)}
    (h : Presents m entries) (hs : ∀ id, (m id).map Client.shown = (m' id).map Client.shown) :
    Presents m' entries := by
  obtain ⟨cs, page, henum, hp, hdesc, he⟩ := h
  obtain ⟨cs', henum', hshown⟩ := enumerates_shown henum hs
  exact ⟨cs', page, henum', hshown ▸ hp, hdesc, he⟩

lemma Descends.seconds_eq {page page' : List (ℤ × Bytes)} (h : Descends page) (h' : Descends page')
    (hp : page.Perm page') : page.map secondsOf = page'.map secondsOf := by
  have hmap {p : List (ℤ × Bytes)} (hp : Descends p) :
      (p.map secondsOf).Pairwise fun s t => t ≤ s := List.pairwise_map.mpr hp
  refine List.Perm.eq_of_pairwise ?_ (hmap h) (hmap h') (hp.map _)
  intro a b _ _ hab hba
  exact Int64.le_antisymm hba hab

lemma Descends.eq {page page' : List (ℤ × Bytes)} (h : Descends page) (h' : Descends page')
    (hp : page.Perm page') (hn : (page.map secondsOf).Nodup) : page = page' := by
  refine List.Perm.eq_of_pairwise ?_ h h' hp
  intro a b ha hb hab hba
  exact List.inj_on_of_nodup_map hn ha (hp.symm.subset hb) (Int64.le_antisymm hba hab)

def DistinctTotals (m : ClientMap ℤ) : Prop :=
  ∀ id id' c c', m id = some c → m id' = some c' → c.seconds = c'.seconds → id = id'

lemma DistinctTotals.nodup {m : ClientMap ℤ} (h : DistinctTotals m) {cs : List (Client ℤ)}
    (henum : Rust.Enumerates m cs) : (cs.map fun c => c.seconds).Nodup := by
  obtain ⟨ids, hn, -, rfl⟩ := henum
  rw [List.map_filterMap]
  refine hn.filterMap fun id id' s hs hs' => ?_
  obtain ⟨c, hc, rfl⟩ := Option.map_eq_some_iff.mp hs
  obtain ⟨c', hc', he⟩ := Option.map_eq_some_iff.mp hs'
  exact h id id' c c' hc hc' he.symm

lemma Presents.times_eq {m : ClientMap ℤ} {entries entries' : Option (List ClientTimeEntry)}
    (h : Presents m entries) (h' : Presents m entries') :
    entries.map (List.map ClientTimeEntry.totalTime) =
      entries'.map (List.map ClientTimeEntry.totalTime) := by
  obtain ⟨cs, page, henum, hp, hdesc, rfl⟩ := h
  obtain ⟨cs', page', henum', hp', hdesc', rfl⟩ := h'
  have hcs := (henum.perm henum').map Client.shown
  have hsec := hdesc.seconds_eq hdesc' (hp.trans (hcs.trans hp'.symm))
  have hpage (p : List (ℤ × Bytes)) :
      (if ∀ q ∈ p.take numClients, 0 ≤ (secondsOf q).toInt then
        some ((p.take numClients).map entryOf) else none).map (List.map ClientTimeEntry.totalTime) =
      if ∀ s ∈ (p.map secondsOf).take numClients, 0 ≤ s.toInt then
        some (((p.map secondsOf).take numClients).map fun s => s.toInt.toNat.toUInt64) else none := by
    rw [← List.map_take]
    simp only [List.forall_mem_map]
    split
    · rw [Option.map_some, List.map_map, List.map_map]
      rfl
    · rfl
  rw [hpage, hpage, hsec]

lemma Presents.eq {m : ClientMap ℤ} {entries entries' : Option (List ClientTimeEntry)}
    (h : Presents m entries) (h' : Presents m entries') (hd : DistinctTotals m) : entries = entries' := by
  obtain ⟨cs, page, henum, hp, hdesc, rfl⟩ := h
  obtain ⟨cs', page', henum', hp', hdesc', rfl⟩ := h'
  have hcs := (henum.perm henum').map Client.shown
  have hn : (page.map secondsOf).Nodup := by
    rw [(hp.map secondsOf).nodup_iff, List.map_map]
    exact hd.nodup henum
  rw [hdesc.eq hdesc' (hp.trans (hcs.trans hp'.symm)) hn]

end Agreement

section Disk

variable {parseFromStr : Bytes → Bytes → Option ℤ} {strptime : Bytes → Bytes → Option Tm}
  {mktime : Tm → ℤ} {dir : Bytes} {files : List (Bytes × Bytes)} {logs : List Log}

lemma opened (openFile : Bytes × Bytes → LogFile) (hname : ∀ f, (openFile f).name = f.1)
    (hraw : ∀ log ∈ logs, openFile log.raw = log.file)
    (hfiles : (files.filter fun f => (Rust.openFile f).isLog dir).Perm (logs.map Log.raw)) :
    ((files.map openFile).filter (LogFile.isLog dir)).Perm (logs.map Log.file) := by
  have hlog : LogFile.isLog dir ∘ openFile = fun f => (Rust.openFile f).isLog dir := by
    funext f
    rw [Function.comp_apply, LogFile.isLog, LogFile.isLog, hname]
    rfl
  have hmap : (logs.map Log.raw).map openFile = logs.map Log.file := by
    rw [List.map_map]
    exact List.map_congr_left hraw
  rw [List.filter_map, hlog, ← hmap]
  exact hfiles.map openFile

lemma presents_of_fetch (hparse : ReadsStamps parseFromStr Rust.fileFormat)
    (hstrptime : FillsTm strptime Cpp.fileFormat) (hlogs : Legible logs)
    (halike : ∀ id, Alike id logs)
    (hfiles : (files.filter fun f => (Rust.openFile f).isLog dir).Perm (logs.map Log.raw))
    (hreturn : ∀ log ∈ logs, ∀ l ∈ log.lines, l.bytes.getLast? ≠ some 13) {prog stdout : Bytes}
    (h : FetchClientTime parseFromStr strptime mktime dir files prog stdout) :
    Presents (Rust.database (rustTrace logs)) (buildClientTimes true stdout) := by
  have hrust := opened Rust.openFile (fun _ => rfl)
    (fun log hlog => Rust.openFile_raw (hreturn log hlog)) hfiles
  have hcpp := opened Cpp.openFile (fun _ => rfl) (fun log _ => Cpp.openFile_raw log)
    hfiles
  cases h with
  | @c args order clientVec hargs hruns =>
    rw [parseArgs_page] at hargs
    obtain rfl := Option.some.inj hargs
    obtain ⟨⟨sorted, hsorted, rfl⟩, clients, henum, hperm, hdesc⟩ :=
      (Cpp.runs_legible hstrptime hlogs hcpp rfl).mp hruns
    have hquiet : ¬ Complained (sorted.map fun log => (cppTime log.stamp, log.file)) := by
      rintro ⟨log, hlog, line, hline, hc⟩
      have hnil := Cpp.complaints_legible fun log hm => hlogs.lines log (hsorted.1.subset hm)
      rw [Cpp.complaints, List.flatMap_eq_nil_iff] at hnil
      exact hc (List.flatMap_eq_nil_iff.mp (hnil log hlog) line hline)
    rw [(page_of_runs hruns).2 hquiet]
    exact (presents_of_sorted henum hperm hdesc).congr fun id =>
      ((shown_database hlogs id).mpr (halike id)).symm
  | cExits hnone =>
    obtain ⟨found, hfound, -⟩ := sorted_logs hcpp
      fun log hm => cpp_creationTime hstrptime log (hlogs.started log hm)
    rw [Cpp.compileLogs, hfound] at hnone
    cases hnone
  | @rust prog map clients _ hcompiles henum =>
    have hnames := henum.named (Rust.names_of_compiles hcompiles)
    obtain rfl := (Rust.compiles_legible hparse hlogs hrust).mp hcompiles
    rw [buildClientTimes_report hnames]
    refine presents_of_sorted henum (List.mergeSort_perm ..) ?_
    let le (a b : Client ℤ) : Bool := b.seconds ≤ a.seconds
    have htrans (a b c : Client ℤ) (hab : le a b) (hbc : le b c) : le a c :=
      decide_eq_true (Int64.le_trans (of_decide_eq_true hbc) (of_decide_eq_true hab))
    have htotal (a b : Client ℤ) : le a b || le b a := by
      simpa [le] using Int64.le_total b.seconds a.seconds
    exact (List.pairwise_mergeSort htrans htotal clients).imp fun hab => of_decide_eq_true hab
  | rustPanics _ hpanics =>
    obtain ⟨found, hfound, horder⟩ := sorted_logs hrust fun log _ => rust_creationTime hparse log
    rcases hpanics with hnone | ⟨found', order, hf, ho, hnone⟩
    · rw [Rust.compileLogs, hfound] at hnone
      cases hnone
    · rw [Rust.compileLogs, hfound] at hf
      obtain rfl := Option.some.inj hf
      obtain ⟨sorted, hsorted, rfl⟩ := (horder order).mp (Rust.drains_iff_sorted.mp ho)
      rw [hlogs.rust_order hparse hsorted] at hnone
      cases hnone

theorem pages_agree (parseFromStr : Bytes → Bytes → Option ℤ)
    (strptime : Bytes → Bytes → Option Tm) (mktime : Tm → ℤ)
    (hparse : ReadsStamps parseFromStr Rust.fileFormat) (hstrptime : FillsTm strptime Cpp.fileFormat)
    (logs : List Log) (hlogs : Legible logs) (halike : ∀ id, Alike id logs) (dir : Bytes)
    (files : List (Bytes × Bytes))
    (hfiles : (files.filter fun f => (Rust.openFile f).isLog dir).Perm (logs.map Log.raw))
    (hreturn : ∀ log ∈ logs, ∀ l ∈ log.lines, l.bytes.getLast? ≠ some 13)
    (prog prog' stdout stdout' : Bytes)
    (h : FetchClientTime parseFromStr strptime mktime dir files prog stdout)
    (h' : FetchClientTime parseFromStr strptime mktime dir files prog' stdout') :
    (buildClientTimes true stdout).map (List.map ClientTimeEntry.totalTime) =
      (buildClientTimes true stdout').map (List.map ClientTimeEntry.totalTime) ∧
    (DistinctTotals (Rust.database (rustTrace logs)) →
      buildClientTimes true stdout = buildClientTimes true stdout') := by
  have hp := presents_of_fetch hparse hstrptime hlogs halike hfiles hreturn h
  have hp' := presents_of_fetch hparse hstrptime hlogs halike hfiles hreturn h'
  exact ⟨hp.times_eq hp', hp.eq hp'⟩

end Disk

section Visits

lemma rust_database_twoVisits : Rust.database (rustTrace [twoVisits]) = Cpp.visitors := by
  rw [database_eq legible_twoVisits.proper_rust]
  have htrace : rustTrace [twoVisits] = [.connect 6 (ascii "amy") 1619863200,
      .connect 5 (ascii "bob") 1619866800, .disconnect 5 1619870400, .disconnect 6 1619870400,
      .reset] := by decide
  exact Cpp.database_visits htrace (by decide) (by decide)

lemma visitors_some {id : UInt32} {c : Client ℤ} (h : Cpp.visitors id = some c) :
    (id = 5 ∧ c = Cpp.hourOfBob) ∨ (id = 6 ∧ c = Cpp.hoursOfAmy) := by
  by_cases h6 : id = 6
  · subst h6
    exact Or.inr ⟨rfl, (Option.some.inj h).symm⟩
  · by_cases h5 : id = 5
    · subst h5
      exact Or.inl ⟨rfl, (Option.some.inj h).symm⟩
    · simp [Cpp.visitors, ClientMap.insert, noClients, h5, h6] at h

lemma distinctTotals_visitors : DistinctTotals Cpp.visitors := by
  intro id id' c c' hc hc' hs
  rcases visitors_some hc with ⟨rfl, rfl⟩ | ⟨rfl, rfl⟩
  · rcases visitors_some hc' with ⟨rfl, rfl⟩ | ⟨rfl, rfl⟩
    · rfl
    · exact absurd hs (by decide)
  · rcases visitors_some hc' with ⟨rfl, rfl⟩ | ⟨rfl, rfl⟩
    · exact absurd hs (by decide)
    · rfl

theorem pages_agree_visits : ∃ stdout,
    FetchClientTime parseStamp fillStamp (fun _ => 0) (ascii "logs") [twoVisits.raw] (ascii "Rust")
      stdout ∧
    buildClientTimes true stdout = buildClientTimes true (ascii "7200\tamy\n3600\tbob\n") := by
  have hreturn : ∀ log ∈ [twoVisits], ∀ l ∈ log.lines, l.bytes.getLast? ≠ some 13 := by decide
  have halike (id : UInt32) : Alike id [twoVisits] := by
    have hshown : (Rust.database (rustTrace [twoVisits]) id).map Client.shown =
        (Cpp.database (cppTrace [twoVisits]) id).map Client.shown := by
      rw [rust_database_twoVisits, Cpp.database_twoVisits]
    exact (shown_database legible_twoVisits id).mp hshown
  have hfiles : ([twoVisits.raw].filter fun f => (Rust.openFile f).isLog (ascii "logs")).Perm
      ([twoVisits].map Log.raw) := by decide +kernel
  have hrust : FetchClientTime parseStamp fillStamp (fun _ => 0) (ascii "logs") [twoVisits.raw]
      (ascii "Rust") (Rust.sortAndPrintClientTimes [Cpp.hourOfBob, Cpp.hoursOfAmy]) := by
    refine .rust (by decide)
      ((Rust.compiles_legible parseStamp_reads legible_twoVisits ?_).mpr rfl) ?_
    · exact opened Rust.openFile (fun _ => rfl)
        (fun log hlog => Rust.openFile_raw (hreturn log hlog)) hfiles
    · rw [rust_database_twoVisits]
      exact Cpp.enumerates_visitors
  have hdistinct : DistinctTotals (Rust.database (rustTrace [twoVisits])) := by
    rw [rust_database_twoVisits]
    exact distinctTotals_visitors
  exact ⟨_, hrust, (pages_agree parseStamp fillStamp (fun _ => 0) parseStamp_reads fillStamp_fills
    [twoVisits] legible_twoVisits halike (ascii "logs") [twoVisits.raw] hfiles hreturn
      _ _ _ _ hrust fetch_visits).2 hdistinct⟩

end Visits

end TeamspeakWebserver.Webserver
