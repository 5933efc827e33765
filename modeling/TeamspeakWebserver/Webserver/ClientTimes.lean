import TeamspeakWebserver.Batches.Ranking
import TeamspeakWebserver.Ltc.Report
import TeamspeakWebserver.Webserver.GlobalMessage

/-! What `cmd/clienttime/timemodule.go` makes of the report of `main.rs`. -/

namespace TeamspeakWebserver.Webserver

open Batches Ltc Text

def tab : UInt8 := 9

def numClients : ℕ := 13

structure ClientTimeEntry where
  totalTime : UInt64
  clientName : Bytes
deriving DecidableEq

/-- `strconv.ParseUint` in base 10 and for 64 bits, which takes no sign. `none` is its error. -/
def parseUint (s : Bytes) : Option UInt64 :=
  if s ≠ [] ∧ s.all isDigit ∧ value s < 2 ^ 64 then some (value s).toUInt64 else none

/-- One turn of the loop of `BuildClientTimes`. `none` is a panic. -/
def addEntry (entries : List ClientTimeEntry) (line : Bytes) : Option (List ClientTimeEntry) :=
  let timeNameSplit := line.splitOn tab
  if line.length ≤ 0 then some entries
  else
    timeNameSplit[0]?.bind fun first =>
      (parseUint first).bind fun time =>
        timeNameSplit[1]?.map fun name => entries ++ [{ totalTime := time, clientName := name }]

def buildClientTimes (enabled : Bool) (fetched : Bytes) : Option (List ClientTimeEntry) :=
  if enabled then ((fetched.splitOn lineFeed).take numClients).foldlM addEntry [] else some []

def Exact (c : Client ℤ) (e : ClientTimeEntry) : Prop :=
  (e.totalTime.toNat : ℤ) = c.seconds.toInt ∧ e.clientName = c.name

def Shown (clients : List (Client ℤ)) : Prop :=
  ∃ ranked entries, Ranked (fun c : Client ℤ => c.seconds.toInt) clients ranked ∧
    buildClientTimes true (Rust.sortAndPrintClientTimes clients) = some entries ∧
      List.Forall₂ Exact ((ranked.map Prod.fst).take numClients) entries

def Presentable (c : Client ℤ) : Prop := 0 ≤ c.seconds.toInt ∧ tab ∉ c.name

instance (c : Client ℤ) : Decidable (Presentable c) := inferInstanceAs (Decidable (_ ∧ _))

def entry (c : Client ℤ) : ClientTimeEntry :=
  { totalTime := c.seconds.toInt.toNat.toUInt64, clientName := c.name.takeWhile fun b => !b == tab }

variable {c : Client ℤ} {clients : List (Client ℤ)}

lemma seconds_lt (c : Client ℤ) : c.seconds.toInt < 2 ^ 63 := Int64.toInt_lt c.seconds

lemma parseUint_showInt {n : ℤ} (h : n < 2 ^ 63) :
    parseUint (Rust.showInt n) = if 0 ≤ n then some n.toNat.toUInt64 else none := by
  rw [parseUint, Rust.showInt]
  by_cases hn : 0 ≤ n
  · obtain ⟨m, rfl⟩ := Int.eq_ofNat_of_zero_le hn
    rw [if_neg hn.not_gt, if_pos hn, Int.natAbs_natCast, Int.toNat_natCast, value_decimal]
    exact if_pos ⟨decimal_ne_nil m, List.all_eq_true.mpr (isDigit_decimal m), by omega⟩
  · rw [if_pos (not_le.mp hn), if_neg hn, if_neg]
    rintro ⟨-, hall, -⟩
    exact absurd hall (by simp [isDigit])

lemma not_mem_showInt {b : UInt8} (hb : isDigit b = false) (hm : b ≠ 45) (n : ℤ) :
    b ∉ Rust.showInt n := by
  have hd (m : ℕ) : b ∉ decimal m := fun h => by
    rw [isDigit_decimal m b h] at hb
    cases hb
  rw [Rust.showInt]
  split
  · rw [List.mem_cons, not_or]
    exact ⟨hm, hd _⟩
  · exact hd _

lemma addEntry_clientLine (c : Client ℤ) (entries : List ClientTimeEntry) :
    addEntry entries (Rust.clientLine c) =
      if 0 ≤ c.seconds.toInt then some (entries ++ [entry c]) else none := by
  have hsplit : (Rust.clientLine c).splitOn tab =
      Rust.showInt c.seconds.toInt :: c.name.splitOn tab :=
    List.splitOn_append_cons_self_of_not_mem (not_mem_showInt (by decide) (by decide) _) c.name
  rw [addEntry, hsplit, if_neg (by simp [Rust.clientLine])]
  simp only [List.getElem?_cons_zero, Option.bind_some, List.getElem?_cons_succ, splitOn_zero,
    parseUint_showInt (seconds_lt c)]
  split
  · rfl
  · rfl

lemma foldlM_addEntry (cs : List (Client ℤ)) (entries : List ClientTimeEntry) :
    (cs.map Rust.clientLine).foldlM addEntry entries =
      if ∀ c ∈ cs, 0 ≤ c.seconds.toInt then some (entries ++ cs.map entry) else none := by
  induction cs generalizing entries with
  | nil => simp
  | cons c cs ih =>
    rw [List.map_cons, List.foldlM_cons, addEntry_clientLine]
    by_cases hc : 0 ≤ c.seconds.toInt
    · rw [if_pos hc, Option.bind_eq_bind, Option.bind_some, ih]
      simp [hc]
    · rw [if_neg hc]
      simp [hc]

lemma take_report (ls : List Bytes) (n : ℕ) :
    ((ls ++ [[]]).take n).foldlM addEntry [] = (ls.take n).foldlM addEntry [] := by
  have hlast (k : ℕ) (entries : List ClientTimeEntry) :
      (List.take k [[]]).foldlM addEntry entries = some entries := by
    cases k <;> simp [addEntry]
  rw [List.take_append, List.foldlM_append]
  simp only [hlast]
  exact bind_pure _

lemma buildClientTimes_report (h : ∀ c ∈ clients, lineFeed ∉ c.name) :
    buildClientTimes true (Rust.sortAndPrintClientTimes clients) =
      if ∀ c ∈ (Rust.sortClients clients).take numClients, 0 ≤ c.seconds.toInt then
        some (((Rust.sortClients clients).take numClients).map entry)
      else none := by
  have hlines : ∀ line ∈ (Rust.sortClients clients).map Rust.clientLine, lineFeed ∉ line := by
    intro line hl
    obtain ⟨c, hc, rfl⟩ := List.mem_map.mp hl
    rw [Rust.clientLine, List.mem_append, List.mem_cons, not_or, not_or]
    exact ⟨not_mem_showInt (by decide) (by decide) _, by decide,
      h c ((List.mergeSort_perm ..).subset hc)⟩
  have hsplit : (Rust.sortAndPrintClientTimes clients).splitOn lineFeed =
      (Rust.sortClients clients).map Rust.clientLine ++ [[]] := by
    rw [← splitOn_ended hlines, List.flatMap_map]
    rfl
  rw [buildClientTimes, if_pos rfl, hsplit, take_report, ← List.map_take, foldlM_addEntry,
    List.nil_append]

lemma exact_entry (h : 0 ≤ c.seconds.toInt) : Exact c (entry c) ↔ tab ∉ c.name := by
  have hlt := seconds_lt c
  have ht : ((entry c).totalTime.toNat : ℤ) = c.seconds.toInt := by
    rw [entry, Nat.toUInt64, UInt64.toNat_ofNat', Nat.mod_eq_of_lt (by omega), Int.toNat_of_nonneg h]
  rw [Exact, and_iff_right ht, entry, List.takeWhile_eq_self_iff]
  constructor
  · intro hall hm
    exact absurd (hall tab hm) (by simp)
  · intro hn b hb
    have hne : b ≠ tab := fun he => hn (he ▸ hb)
    simpa using hne

lemma sortClients_eq (clients : List (Client ℤ)) : Rust.sortClients clients =
    clients.mergeSort fun a b => b.seconds.toInt ≤ a.seconds.toInt := by
  simp only [Rust.sortClients, Int64.le_iff_toInt_le]

lemma shown_iff_sorted (h : ∀ c ∈ clients, lineFeed ∉ c.name) : Shown clients ↔
    ∀ c ∈ (Rust.sortClients clients).take numClients, Presentable c := by
  have hexact {cs : List (Client ℤ)} (hcs : ∀ c ∈ cs, 0 ≤ c.seconds.toInt) :
      List.Forall₂ Exact cs (cs.map entry) ↔ ∀ c ∈ cs, tab ∉ c.name := by
    rw [List.forall₂_map_right_iff, List.forall₂_same]
    exact forall₂_congr fun c hc => exact_entry (hcs c hc)
  obtain ⟨ranked, hranked, hsort⟩ := exists_ranked (fun c : Client ℤ => c.seconds.toInt) clients
  rw [← sortClients_eq] at hsort
  constructor
  · rintro ⟨ranked', entries, hranked', hbuild, hall⟩
    rw [hranked'.unique hranked, hsort] at hall
    rw [buildClientTimes_report h] at hbuild
    split at hbuild
    case isTrue hpos =>
      rw [← Option.some.inj hbuild] at hall
      exact fun c hc => ⟨hpos c hc, (hexact hpos).mp hall c hc⟩
    case isFalse => cases hbuild
  · intro hall
    have hpos : ∀ c ∈ (Rust.sortClients clients).take numClients, 0 ≤ c.seconds.toInt :=
      fun c hc => (hall c hc).1
    refine ⟨ranked, _, hranked, (buildClientTimes_report h).trans (if_pos hpos), ?_⟩
    rw [hsort]
    exact (hexact hpos).mpr fun c hc => (hall c hc).2

lemma shown_iff_ranked (h : ∀ c ∈ clients, lineFeed ∉ c.name) : Shown clients ↔
    ∀ p ∈ clients.zipIdx, rank (fun c : Client ℤ => c.seconds.toInt) clients p < numClients →
      Presentable p.1 := by
  obtain ⟨ranked, hranked, hsort⟩ := exists_ranked (fun c : Client ℤ => c.seconds.toInt) clients
  rw [← sortClients_eq] at hsort
  rw [shown_iff_sorted h, ← hsort, ← List.map_take, List.forall_mem_map]
  exact ⟨fun hall p hp hn => hall p (hranked.mem_take.mpr ⟨hp, hn⟩),
    fun hall p hp => hall p (hranked.mem_take.mp hp).1 (hranked.mem_take.mp hp).2⟩

theorem report_shown_iff (parseFromStr : Bytes → Bytes → Option ℤ) (dir : Bytes)
    (files : List (Bytes × Bytes)) (map : ClientMap ℤ) (clients : List (Client ℤ))
    (h : Rust.Compiles parseFromStr dir (files.map Rust.openFile) map)
    (hc : Rust.Enumerates map clients) : Shown clients ↔
      ∀ p ∈ clients.zipIdx, rank (fun c : Client ℤ => c.seconds.toInt) clients p < numClients →
        0 ≤ p.1.seconds.toInt ∧ tab ∉ p.1.name :=
  shown_iff_ranked (hc.named (Rust.names_of_compiles h))

section Visits

open Rust

def visitFile (start stop : String) : Bytes × Bytes :=
  (ascii "ts3server_2021-05-01__09_00_00.000001_1.log",
    ascii start ++ ascii ".000000|INFO    |VirtualServerBase|1  |client connected 'bob'(id:5)\n" ++
      (ascii stop ++ ascii ".000000|INFO    |VirtualServerBase|1  |client disconnected 'bob'(id:5)\n"))

def visitEvents (start stop : ℤ) : List (Event ℤ) :=
  [.connect 5 (ascii "bob") start, .disconnect 5 stop]

def visitor (start stop : ℤ) : Client ℤ where
  name := ascii "bob"
  lastTimeConnected := 0
  totalTimeConnected := 0 + (stop - start)
  numConn := 0

lemma compiles_visit {file : Bytes × Bytes} {time start stop : ℤ}
    (hlog : compileLogs parseStamp (ascii "logs") [openFile file] = some [(time, openFile file)])
    (hread : fileEvents parseStamp (openFile file) = some (visitEvents start stop)) :
    Compiles parseStamp (ascii "logs") ([file].map openFile) (tableOf [visitEvents start stop]) := by
  refine ⟨_, [(time, openFile file)], hlog, ?_, ?_⟩
  · exact drains_iff_sorted.mpr ⟨.refl _, List.pairwise_singleton _ _⟩
  · rw [parseFileList_eq, List.mapM_cons, hread]
    rfl

lemma enumerates_visit {start : ℤ} (h : start ≠ 0) (stop : ℤ) :
    Enumerates (tableOf [visitEvents start stop]) [visitor start stop] := by
  refine ⟨[5], List.nodup_singleton 5, fun id => ?_, ?_⟩
  · rw [List.mem_singleton]
    by_cases hid : id ≤ 1
    · rw [tableOf_server hid]
      exact ⟨fun h5 => absurd hid (h5 ▸ by decide), nofun⟩
    · rw [tableOf_isSome hid]
      simp [visitEvents, Event.connects, eq_comm]
  · have hid : ¬ (5 : UInt32) ≤ 1 := by decide
    have hvisit : tableOf [visitEvents start stop] 5 = some (visitor start stop) := by
      simp [tableOf, visitEvents, visitor, Rust.apply, logConnect, logDisconnect, clearClients,
        ClientMap.insert, noClients, hid, h]
    rw [List.filterMap_cons, hvisit]
    rfl

theorem report_shown_iff_visit : Shown [visitor 1619863200 1619866800] := by
  have hc := @compiles_visit (visitFile "2021-05-01 10:00:00" "2021-05-01 11:00:00") 1619859600
    1619863200 1619866800 (by decide +kernel) (by decide +kernel)
  have he := @enumerates_visit 1619863200 (by decide) 1619866800
  exact (report_shown_iff _ _ _ _ _ hc he).mpr (by decide +kernel)

theorem negative_total_panics : ¬ ∀ parseFromStr : Bytes → Bytes → Option ℤ,
    ReadsStamps parseFromStr Rust.fileFormat → ∀ (dir : Bytes)
      (files : List (Bytes × Bytes)) map clients,
      Compiles parseFromStr dir (files.map openFile) map → Enumerates map clients →
        Shown clients := by
  intro h
  have hc := @compiles_visit (visitFile "2021-05-01 11:00:00" "2021-05-01 10:00:00") 1619859600
    1619866800 1619863200 (by decide +kernel) (by decide +kernel)
  have he := @enumerates_visit 1619866800 (by decide) 1619863200
  have hshown := h parseStamp parseStamp_reads _ _ _ _ hc he
  rw [shown_iff_ranked (by decide)] at hshown
  exact absurd (hshown (visitor 1619866800 1619863200, 0) (by decide) (by decide)).1 (by decide)

end Visits

end TeamspeakWebserver.Webserver
