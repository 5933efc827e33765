import TeamspeakWebserver.Ltc.Agreement
import TeamspeakWebserver.Ltc.Printing

/-! What the report of `ltc.cpp` tells, and the logs as they stand on the disk. -/

namespace TeamspeakWebserver.Ltc

open Text

def Log.raw (log : Log) : Bytes × Bytes :=
  (log.file.name, log.lines.flatMap fun l => l.bytes ++ [10])

lemma ClientLine.lineFeed_not_mem (l : ClientLine) : 10 ∉ l.bytes := by
  have hdec (n : ℕ) : (10 : UInt8) ∉ decimal n := by
    intro hm
    exact absurd (isDigit_decimal n 10 hm) (by decide)
  have hphrase : (10 : UInt8) ∉ l.action.phrase := by
    cases l.action <;> decide
  have htext {b : Bytes} (hb : b ⊆ utf8 l.filler ++ utf8 l.name ++ utf8 l.tail) : 10 ∉ b := by
    intro hm
    exact l.no_newline (hb hm)
  have hfiller : 10 ∉ utf8 l.filler := htext (by simp [List.append_assoc])
  have hname : 10 ∉ utf8 l.name := htext (by simp [List.append_assoc])
  have htail : 10 ∉ utf8 l.tail := htext (by simp [List.append_assoc])
  have hstamp : 10 ∉ l.stamp.text (ascii " ") 58 :=
    not_mem_text (by decide) (by decide) (by decide) (by decide)
  have hid : (10 : UInt8) ∉ ascii "id:" := by decide
  simp [bytes, quoted, hdec, hphrase, hfiller, hname, htail, hstamp, hid]

lemma splitOn_raw (ls : List ClientLine) :
    (ls.flatMap fun l => l.bytes ++ [10]).splitOn 10 = ls.map ClientLine.bytes ++ [[]] := by
  have hlines : ∀ line ∈ ls.map ClientLine.bytes, 10 ∉ line :=
    List.forall_mem_map.mpr fun l _ => l.lineFeed_not_mem
  have hended := splitOn_ended hlines
  rw [List.flatMap_map] at hended
  exact hended

lemma Cpp.openFile_raw (log : Log) : Cpp.openFile log.raw = log.file := by
  have hlines : Cpp.lines (log.lines.flatMap fun l => l.bytes ++ [10]) =
      log.lines.map ClientLine.bytes := by
    simp [Cpp.lines, splitOn_raw]
  rw [Cpp.openFile, Log.raw, hlines]
  rfl

/-- A line that ends with a carriage return is cut by `BufReader::lines`. -/
lemma Rust.openFile_raw {log : Log} (h : ∀ l ∈ log.lines, l.bytes.getLast? ≠ some 13) :
    Rust.openFile log.raw = log.file := by
  have hlines : Rust.lines (log.lines.flatMap fun l => l.bytes ++ [10]) =
      log.lines.map ClientLine.bytes := by
    have hstrip : log.lines.map (fun l => stripReturn l.bytes) = log.lines.map ClientLine.bytes :=
      List.map_congr_left fun l hl => if_neg (h l hl)
    simp only [Rust.lines, splitOn_raw, List.dropLast_concat, List.getLast?_concat, List.map_map]
    exact (List.append_nil _).trans hstrip
  rw [Rust.openFile, Log.raw, hlines]
  rfl

section Legible

variable {parseFromStr : Bytes → Bytes → Option ℤ} {dir : Bytes} {entries : List LogFile}
  {logs : List Log}

lemma Rust.compiles_legible (hp : ReadsStamps parseFromStr Rust.fileFormat) (hlogs : Legible logs)
    (hentries : (entries.filter (LogFile.isLog dir)).Perm (logs.map Log.file)) {map : ClientMap ℤ} :
    Rust.Compiles parseFromStr dir entries map ↔ map = Rust.database (rustTrace logs) := by
  rw [← Rust.computes_legible hp hlogs hentries]
  simp only [Rust.Compiles, Rust.Computes, Rust.drains_iff_sorted]

end Legible

lemma Rust.Enumerates.perm {m : ClientMap ℤ} {cs cs' : List (Client ℤ)} (h : Rust.Enumerates m cs)
    (h' : Rust.Enumerates m cs') : cs.Perm cs' := by
  obtain ⟨ids, hn, hids, rfl⟩ := h
  obtain ⟨ids', hn', hids', rfl⟩ := h'
  have hperm : ids.Perm ids' := (List.perm_ext_iff_of_nodup hn hn').mpr fun id => by
    rw [hids, hids']
  exact hperm.filterMap m

namespace Cpp

section Legible

variable {strptime : Bytes → Bytes → Option Tm} {args : ProgArgs} {dir : Bytes}
  {entries : List LogFile} {logs : List Log} {order : List (ℤ × LogFile)}
  {clientVec : List (Client ℤ)}

lemma runs_legible (hs : FillsTm strptime fileFormat) (hlogs : Legible logs)
    (hentries : (entries.filter (LogFile.isLog dir)).Perm (logs.map Log.file))
    (h0 : args.timeConstraint = 0) : Runs strptime args dir entries order clientVec ↔
      (∃ sorted, Orders cppTime logs sorted ∧
        order = sorted.map fun log => (cppTime log.stamp, log.file)) ∧ ∃ clients,
          Rust.Enumerates (database (cppTrace logs)) clients ∧ SortsClients clients clientVec := by
  obtain ⟨found, hfound, horder⟩ := sorted_logs hentries
    fun log hm => cpp_creationTime hs log (hlogs.started log hm)
  constructor
  · rintro ⟨found', clients, hf, ho, henum, hsort⟩
    rw [compileLogs, hfound] at hf
    obtain rfl := Option.some.inj hf
    obtain ⟨sorted, hsorted, rfl⟩ := (horder order).mp ho
    rw [h0, hlogs.cpp_order hs hsorted] at henum
    exact ⟨⟨sorted, hsorted, rfl⟩, clients, henum, hsort⟩
  · rintro ⟨⟨sorted, hsorted, rfl⟩, clients, henum, hsort⟩
    refine ⟨found, clients, hfound, (horder _).mpr ⟨sorted, hsorted, rfl⟩, ?_, hsort⟩
    rw [h0, hlogs.cpp_order hs hsorted]
    exact henum

lemma complaint_legible {l : ClientLine} (h : l.Legible) : complaint l.bytes = [] := by
  have h2 := l.id_ge
  rw [complaint, h.cpp_parseLine]
  dsimp only
  rw [if_neg (by omega), if_neg (by omega)]

lemma complaints_legible (hlogs : ∀ log ∈ logs, ∀ l ∈ log.lines, l.Legible) :
    complaints (logs.map fun log => (cppTime log.stamp, log.file)) = [] := by
  simp only [complaints, List.flatMap_eq_nil_iff, List.forall_mem_map, Log.file]
  exact fun log hlog l hl => complaint_legible (hlogs log hlog l hl)

end Legible

section Report

variable {args : ProgArgs} {inSeconds : Bool}

/-- The first `n` of `as` in an order by `r`, in which those that `r` does not tell apart may stand in
any order. -/
def Leads {α : Type} (r : α → α → Prop) (n : ℕ) (as cs : List α) : Prop :=
  ∃ rest, (cs ++ rest).Perm as ∧ cs.length = min n as.length ∧ cs.Pairwise r ∧
    ∀ c ∈ cs, ∀ d ∈ rest, r c d

lemma leads_take {α : Type} {r : α → α → Prop} {as v : List α} (hp : v.Perm as)
    (hv : v.Pairwise r) (n : ℕ) : Leads r n as (v.take n) := by
  have hsplit := hv
  rw [← List.take_append_drop n v, List.pairwise_append] at hsplit
  refine ⟨v.drop n, ?_, ?_, hsplit.1, hsplit.2.2⟩
  · rw [List.take_append_drop]
    exact hp
  · rw [List.length_take, hp.length_eq]

def listed (args : ProgArgs) (clientVec : List (Client ℤ)) : List (Client ℤ) :=
  if args.headCount ≠ 0 then clientVec.take args.headCount.toNat
  else if args.tailCount ≠ 0 then clientVec.reverse.take args.tailCount.toNat
  else clientVec.reverse

lemma printCounted_eq (inSeconds : Bool) (count : UInt32) (cs : List (Client ℤ)) :
    printCounted inSeconds count cs =
      (cs.take count.toNat).flatMap (printClientTime inSeconds) := by
  induction cs generalizing count with
  | nil => rw [List.take_nil, List.flatMap_nil, printCounted]
  | cons c cs ih =>
    rw [printCounted]
    split
    case isTrue h0 =>
      rw [h0]
      rfl
    case isFalse h0 =>
      have hone : (1 : UInt32) ≤ count := by
        rw [UInt32.le_iff_toNat_le]
        exact Nat.one_le_iff_ne_zero.mpr fun h => h0 (UInt32.toNat_inj.mp h)
      have hcount : count.toNat = (count - 1).toNat + 1 := by
        have hsub := UInt32.toNat_sub_of_le count 1 hone
        have hle := UInt32.le_iff_toNat_le.mp hone
        have h1 : (1 : UInt32).toNat = 1 := rfl
        omega
      rw [ih, hcount, List.take_succ_cons, List.flatMap_cons]

lemma printClientTimes_eq (args : ProgArgs) (clientVec : List (Client ℤ)) :
    printClientTimes args clientVec =
      (listed args clientVec).flatMap (printClientTime args.timeInSeconds) := by
  rw [printClientTimes, listed, printCounted_eq, printCounted_eq]
  split
  · rfl
  · split
    · rfl
    · rfl

lemma report_inj {cs ds : List (Client ℤ)} (hc : ∀ c ∈ cs, 10 ∉ c.name) (hd : ∀ d ∈ ds, 10 ∉ d.name)
    (h : cs.flatMap (printClientTime inSeconds) = ds.flatMap (printClientTime inSeconds)) :
    cs.map (fun c => (c.seconds, c.name)) = ds.map fun d => (d.seconds, d.name) := by
  have hne (c : Client ℤ) (rest : Bytes) : printClientTime inSeconds c ++ rest ≠ [] := by
    simp [printClientTime]
  induction cs generalizing ds with
  | nil =>
    cases ds with
    | nil => rfl
    | cons d ds => exact absurd h.symm (hne d _)
  | cons c cs ih =>
    cases ds with
    | nil => exact absurd h (hne c _)
    | cons d ds =>
      obtain ⟨hc₁, hcs⟩ := List.forall_mem_cons.mp hc
      obtain ⟨hd₁, hds⟩ := List.forall_mem_cons.mp hd
      simp only [List.flatMap_cons, printClientTime, List.append_assoc, List.cons_append,
        List.nil_append] at h
      obtain ⟨hs, h⟩ := showTime_cons_inj h
      obtain ⟨hn, h⟩ := append_cons_inj hc₁ hd₁ h
      rw [List.map_cons, List.map_cons, hs, hn, ih hcs hds h]

lemma parseArgs_exclusive {strptime : Bytes → Bytes → Option Tm} {mktime : Tm → ℤ}
    {flags : List Flag} (h : parseArgs strptime mktime flags = some args) :
    args.headCount = 0 ∨ args.tailCount = 0 := by
  refine Rust.foldlM_keeps (Q := fun a : ProgArgs => a.headCount = 0 ∨ a.tailCount = 0)
    (fun flag _ a a' ha hf => ?_) (Or.inl rfl) h
  cases flag with
  | d optarg =>
    obtain ⟨tm, -, rfl⟩ := Option.map_eq_some_iff.mp hf
    exact ha
  | s =>
    obtain rfl := Option.some.inj hf
    exact ha
  | h optarg =>
    rw [setFlag] at hf
    split at hf
    case isTrue => cases hf
    case isFalse ht =>
      obtain ⟨val, -, rfl⟩ := Option.map_eq_some_iff.mp hf
      exact Or.inr (not_not.mp ht)
  | t optarg =>
    rw [setFlag] at hf
    split at hf
    case isTrue => cases hf
    case isFalse hh =>
      obtain ⟨val, -, rfl⟩ := Option.map_eq_some_iff.mp hf
      exact Or.inl (not_not.mp hh)
  | other =>
    obtain rfl := Option.some.inj hf
    exact ha

def Tells (t : UInt64 × UInt64 × UInt64 × Int64) (secs : Int64) : Prop :=
  t.1.toNat * 86400 + t.2.1.toNat * 3600 + t.2.2.1.toNat * 60 + t.2.2.2.toInt = secs.toInt ∧
    t.2.1.toNat < 24 ∧ t.2.2.1.toNat < 60 ∧ 0 ≤ t.2.2.2.toInt ∧ t.2.2.2.toInt < 60

lemma clock_tells {secs : Int64} (h : 0 ≤ secs.toInt) : Tells (clock secs) secs := by
  obtain ⟨hd, hh, hm, hs⟩ := clock_nonneg h
  refine ⟨?_, ?_, ?_, ?_, ?_⟩
  all_goals omega

def Selects (args : ProgArgs) (clients cs : List (Client ℤ)) : Prop :=
  (args.headCount ≠ 0 → args.tailCount = 0 ∧
    Leads (fun a b => b.seconds ≤ a.seconds) args.headCount.toNat clients cs) ∧
  (args.tailCount ≠ 0 → args.headCount = 0 ∧
    Leads (fun a b => a.seconds ≤ b.seconds) args.tailCount.toNat clients cs) ∧
  (args.headCount = 0 → args.tailCount = 0 →
    Leads (fun a b => a.seconds ≤ b.seconds) clients.length clients cs)

lemma listed_selects {clients clientVec : List (Client ℤ)} (h : SortsClients clients clientVec)
    (hargs : args.headCount = 0 ∨ args.tailCount = 0) :
    Selects args clients (listed args clientVec) := by
  obtain ⟨hperm, hsorted⟩ := h
  have hrev : clientVec.reverse.Perm clients := (List.reverse_perm _).trans hperm
  have hasc : clientVec.reverse.Pairwise fun a b => a.seconds ≤ b.seconds :=
    List.pairwise_reverse.mpr hsorted
  refine ⟨fun hh => ?_, fun ht => ?_, fun hh ht => ?_⟩
  · rw [listed, if_pos hh]
    exact ⟨hargs.resolve_left hh, leads_take hperm hsorted _⟩
  · have hh := hargs.resolve_right ht
    rw [listed, if_neg (not_not.mpr hh), if_pos ht]
    exact ⟨hh, leads_take hrev hasc _⟩
  · rw [listed, if_neg (not_not.mpr hh), if_neg (not_not.mpr ht)]
    have hall := leads_take hrev hasc clients.length
    rwa [List.take_of_length_le (hrev.length_eq.le)] at hall

end Report

section Tells

variable {strptime : Bytes → Bytes → Option Tm} {mktime : Tm → ℤ} {flags : List Flag}
  {args : ProgArgs} {dir : Bytes} {files : List (Bytes × Bytes)} {order : List (ℤ × LogFile)}
  {clientVec : List (Client ℤ)}

theorem report_tells (hflags : parseArgs strptime mktime flags = some args)
    (h : Runs strptime args dir (files.map openFile) order clientVec) :
    ∃ clients cs,
      Rust.Enumerates (parseFiles strptime args.timeConstraint order noClients) clients ∧
      Selects args clients cs ∧
      stdout args order clientVec =
        complaints order ++ cs.flatMap (printClientTime args.timeInSeconds) ∧
      (∀ ds : List (Client ℤ), (∀ d ∈ ds, 10 ∉ d.name) →
        ds.flatMap (printClientTime args.timeInSeconds) =
          cs.flatMap (printClientTime args.timeInSeconds) →
        ds.map (fun d => (d.seconds, d.name)) = cs.map fun c => (c.seconds, c.name)) ∧
      ∀ c ∈ cs, 0 ≤ c.seconds.toInt → Tells (clock c.seconds) c.seconds := by
  have hnames := h.names
  obtain ⟨logs, clients, -, -, henum, hsort⟩ := h
  have hselects := listed_selects hsort (parseArgs_exclusive hflags)
  have hlisted : listed args clientVec ⊆ clientVec := by
    intro c hc
    rw [listed] at hc
    split at hc
    · exact List.mem_of_mem_take hc
    · split at hc
      · exact List.mem_reverse.mp (List.mem_of_mem_take hc)
      · exact List.mem_reverse.mp hc
  refine ⟨clients, listed args clientVec, henum, hselects, ?_, ?_, ?_⟩
  · rw [stdout, printClientTimes_eq]
  · intro ds hds heq
    exact report_inj hds (fun c hc => hnames c (hlisted hc)) heq
  · intro c _ hc
    exact clock_tells hc

end Tells

/-- `-t 1`. -/
def lastOne : ProgArgs :=
  { timeConstraint := 0, tailCount := 1, headCount := 0, timeInSeconds := false }

def hourOfBob : Client ℤ :=
  { name := ascii "bob", lastTimeConnected := 0, totalTimeConnected := 3600, numConn := 0 }

def hoursOfAmy : Client ℤ :=
  { name := ascii "amy", lastTimeConnected := 0, totalTimeConnected := 7200, numConn := 0 }

def visitors : ClientMap ℤ := (noClients.insert 5 hourOfBob).insert 6 hoursOfAmy

lemma database_visits {t₁ t₂ t₃ t₄ : ℤ} {events : List (Event ℤ)}
    (he : events = [.connect 6 (ascii "amy") t₁, .connect 5 (ascii "bob") t₂, .disconnect 5 t₃,
      .disconnect 6 t₄, .reset])
    (h₁ : t₁ ≠ 0 ∧ t₄ - t₁ = 7200) (h₂ : t₂ ≠ 0 ∧ t₃ - t₂ = 3600) : database events = visitors := by
  funext id
  rw [he]
  by_cases h6 : id = 6
  · subst h6
    simp [database, apply, logConn, logDisconn, resetClients, newClient, clientLogDisconn,
      clientReset, ClientMap.insert, visitors, hoursOfAmy, h₁]
  · by_cases h5 : id = 5
    · subst h5
      simp [database, apply, logConn, logDisconn, resetClients, newClient, clientLogDisconn,
        clientReset, ClientMap.insert, visitors, hourOfBob, h₂]
    · simp [database, apply, logConn, logDisconn, resetClients, ClientMap.insert, noClients,
        visitors, h5, h6]

lemma database_twoVisits : database (cppTrace [twoVisits]) = visitors := by
  have htrace : cppTrace [twoVisits] = [.connect 6 (ascii "amy") 1619881200,
      .connect 5 (ascii "bob") 1619884800, .disconnect 5 1619888400, .disconnect 6 1619888400,
      .reset] := by decide
  exact database_visits htrace (by decide) (by decide)

lemma enumerates_visitors : Rust.Enumerates visitors [hourOfBob, hoursOfAmy] := by
  refine ⟨[5, 6], by decide, fun id => ?_, rfl⟩
  by_cases h6 : id = 6
  · simp [visitors, ClientMap.insert, h6]
  · by_cases h5 : id = 5
    · simp [visitors, ClientMap.insert, h5]
    · simp [visitors, ClientMap.insert, noClients, h5, h6]

lemma sorts_visitors {clients clientVec : List (Client ℤ)} (h : Rust.Enumerates visitors clients) :
    SortsClients clients clientVec ↔ clientVec = [hoursOfAmy, hourOfBob] := by
  have hperm := h.perm enumerates_visitors
  have hswap : [hourOfBob, hoursOfAmy].Perm [hoursOfAmy, hourOfBob] := .swap _ _ _
  constructor
  · rintro ⟨hp, hdesc⟩
    refine @ordered_unique _ (fun c : Client ℤ => -c.seconds.toInt) _ _
      ((hp.trans hperm).trans hswap) ?_ (by decide)
    exact hdesc.imp fun hab => neg_le_neg (Int64.le_iff_toInt_le.mp hab)
  · rintro rfl
    exact ⟨hswap.symm.trans hperm.symm, by decide⟩

lemma runs_twoVisits {strptime : Bytes → Bytes → Option Tm} {args : ProgArgs}
    {order : List (ℤ × LogFile)} {clientVec : List (Client ℤ)} (hs : FillsTm strptime fileFormat)
    (h0 : args.timeConstraint = 0) :
    Runs strptime args (ascii "logs") ([twoVisits.raw].map openFile) order clientVec ↔
      order = [(cppTime twoVisits.stamp, twoVisits.file)] ∧ clientVec = [hoursOfAmy, hourOfBob] := by
  rw [List.map_singleton, openFile_raw, runs_legible hs legible_twoVisits (by decide) h0,
    database_twoVisits]
  simp only [orders_singleton, exists_eq_left, List.map_singleton]
  refine and_congr_right fun _ => ?_
  constructor
  · rintro ⟨clients, henum, hsort⟩
    exact (sorts_visitors henum).mp hsort
  · rintro rfl
    exact ⟨_, enumerates_visitors, (sorts_visitors enumerates_visitors).mpr rfl⟩

theorem report_tells_visit : ∃ order clients cs,
    clients.Perm [hourOfBob, hoursOfAmy] ∧ Selects lastOne clients cs ∧
    stdout lastOne order [hoursOfAmy, hourOfBob] = ascii "0d 1h 0m 0s\tbob\n" ∧
    stdout lastOne order [hoursOfAmy, hourOfBob] =
      complaints order ++ cs.flatMap (printClientTime false) := by
  have hrun : Runs fillStamp lastOne (ascii "logs") ([twoVisits.raw].map openFile) _ _ :=
    (runs_twoVisits fillStamp_fills rfl).mpr ⟨rfl, rfl⟩
  have hflags : parseArgs fillStamp (fun _ => 0) [.t (ascii "1")] = some lastOne := by decide
  obtain ⟨clients, cs, henum, hselects, hout, -⟩ := report_tells hflags hrun
  refine ⟨_, clients, cs, ?_, hselects, by decide +kernel, hout⟩
  have horder := legible_twoVisits.cpp_order fillStamp_fills (orders_singleton.mpr rfl)
  rw [List.map_singleton, database_twoVisits] at horder
  rw [show lastOne.timeConstraint = 0 from rfl, horder] at henum
  exact henum.perm enumerates_visitors

end Cpp

end TeamspeakWebserver.Ltc
