import TeamspeakWebserver.Ltc.BusyPeriods
import TeamspeakWebserver.Ltc.ClientLine
import TeamspeakWebserver.Ltc.Locality

/-! On which directories the two programs compute the same table. -/

namespace TeamspeakWebserver.Ltc

open Occupancy Text

structure Log where
  stamp : Stamp
  suffix : List Char
  lines : List ClientLine
  suffix_text : 0 ∉ utf8 suffix

namespace Log

def file (log : Log) : LogFile where
  name := ascii "ts3server_" ++ (log.stamp.text (ascii "__") 95 ++ utf8 log.suffix)
  lines := log.lines.map ClientLine.bytes

end Log

def history (logs : List Log) : List (Option ClientLine) :=
  logs.flatMap fun log => log.lines.map some ++ [none]

def logged (name : ClientLine → Bytes) (time : Stamp → ℤ) : Option ClientLine → Event ℤ
  | none => .reset
  | some l => l.event name time

def trace (name : ClientLine → Bytes) (time : Stamp → ℤ) (logs : List Log) : List (Event ℤ) :=
  (history logs).map (logged name time)

def cppTime (st : Stamp) : ℤ := Cpp.strToTime (some st.tm)

def rustTrace (logs : List Log) : List (Event ℤ) := trace ClientLine.rustName Stamp.timestamp logs

def cppTrace (logs : List Log) : List (Event ℤ) := trace ClientLine.cppName cppTime logs

def Log.Apart (f g : Log) : Prop := ∀ l ∈ f.lines, ∀ l' ∈ g.lines, l.id ≠ l'.id

/-- Every line is legible, no client has more connections than are counted, and where two logs share
a client, the first has been created before the second one by the calendar and by `str_to_time`. -/
structure Legible (logs : List Log) : Prop where
  lines : ∀ log ∈ logs, ∀ l ∈ log.lines, l.Legible
  countable : Countable (rustTrace logs)
  created : logs.Pairwise fun f g =>
    f.Apart g ∨ f.stamp.timestamp < g.stamp.timestamp ∧ cppTime f.stamp < cppTime g.stamp
  started : ∀ log ∈ logs, 0 ≤ cppTime log.stamp

def lineEffect (id : UInt32) (n : ℕ) : Option ClientLine → ℕ
  | none => 0
  | some l => (l.event ClientLine.rustName Stamp.timestamp).effect id n

def busyLines (id : UInt32) (logs : List Log) : Finset (ℕ × ℕ) :=
  periods (lineEffect id) (· ≠ none) (history logs)

def aheadAt (logs : List Log) (i : ℕ) : ℤ :=
  (((history logs)[i]?).join).elim 0 fun l => Cpp.ahead l.stamp

/-- The line that last began a busy period of the client has a name that both programs read, and the
days which `str_to_time` is ahead at the ends of its busy periods are those at their starts. -/
structure Alike (id : UInt32) (logs : List Log) : Prop where
  name : ∀ i l, opening (lineEffect id) (history logs) = some i →
    (history logs)[i]? = some (some l) → l.NameAlike
  days : ∑ p ∈ busyLines id logs, (aheadAt logs p.2 - aheadAt logs p.1) = 0

section Order

lemma ordered_unique {α : Type} {key : α → ℤ} {order as : List α} (hp : order.Perm as)
    (ho : order.Pairwise fun a b => key a ≤ key b) (ha : as.Pairwise fun a b => key a < key b) :
    order = as := by
  have hn : (as.map key).Nodup := List.pairwise_map.mpr (ha.imp fun h => h.ne)
  refine List.Perm.eq_of_pairwise ?_ ho (ha.imp fun h => h.le) hp
  intro a b hm hb hab hba
  exact List.inj_on_of_nodup_map hn (hp.subset hm) hb (le_antisymm hab hba)

def Orders (time : Stamp → ℤ) (logs order : List Log) : Prop :=
  order.Perm logs ∧ order.Pairwise fun f g => time f.stamp ≤ time g.stamp

lemma exists_orders (time : Stamp → ℤ) (logs : List Log) : ∃ order, Orders time logs order := by
  let le (f g : Log) : Bool := time f.stamp ≤ time g.stamp
  have htrans (f g k : Log) (hfg : le f g) (hgk : le g k) : le f k :=
    decide_eq_true ((of_decide_eq_true hfg).trans (of_decide_eq_true hgk))
  have htotal (f g : Log) : le f g || le g f := by
    simpa [le] using le_total (time f.stamp) (time g.stamp)
  exact ⟨logs.mergeSort le, List.mergeSort_perm .., (List.pairwise_mergeSort htrans htotal logs).imp
    fun h => of_decide_eq_true h⟩

lemma sorted_logs {create : LogFile → Option ℤ} {time : Stamp → ℤ} {files : List LogFile}
    {logs : List Log} (hf : files.Perm (logs.map Log.file))
    (hc : ∀ log ∈ logs, create log.file = some (time log.stamp)) :
    ∃ found, (files.mapM fun file => (create file).map fun t => (t, file)) = some found ∧
      ∀ order, Sorted found order ↔ ∃ sorted, Orders time logs sorted ∧
        order = sorted.map fun log => (time log.stamp, log.file) := by
  have hall : ∀ file ∈ files, (create file).map (fun t => (t, file)) =
      some ((create file).getD 0, file) := by
    intro file hm
    obtain ⟨log, hlog, rfl⟩ := List.mem_map.mp (hf.subset hm)
    rw [hc log hlog]
    rfl
  have hfound : (files.mapM fun file => (create file).map fun t => (t, file)) =
      some (files.map fun file => ((create file).getD 0, file)) := by
    clear hf
    induction files with
    | nil => rfl
    | cons file files ih =>
      rw [List.mapM_cons, hall file List.mem_cons_self,
        ih fun f hm => hall f (List.mem_cons_of_mem file hm)]
      rfl
  have hperm : (files.map fun file => ((create file).getD 0, file)).Perm
      (logs.map fun log => (time log.stamp, log.file)) := by
    have hmap : (logs.map Log.file).map (fun file => ((create file).getD 0, file)) =
        logs.map fun log => (time log.stamp, log.file) := by
      rw [List.map_map]
      apply List.map_congr_left
      intro log hm
      simp only [Function.comp_apply, hc log hm, Option.getD_some]
    rw [← hmap]
    exact hf.map _
  refine ⟨_, hfound, ?_⟩
  intro order
  constructor
  · rintro ⟨hp, ho⟩
    obtain ⟨sorted, rfl, hsorted⟩ :=
      (congrFun (congrFun (List.eq_map_comp_perm _) order) logs).mpr (hp.trans hperm)
    have hpair := List.pairwise_map.mp ho
    exact ⟨sorted, ⟨hsorted, hpair⟩, rfl⟩
  · rintro ⟨sorted, ⟨hp, ho⟩, rfl⟩
    exact ⟨(hp.map _).trans hperm.symm, List.pairwise_map.mpr ho⟩

lemma orders_singleton {time : Stamp → ℤ} {log : Log} {order : List Log} :
    Orders time [log] order ↔ order = [log] := by
  constructor
  · rintro ⟨hp, -⟩
    exact List.perm_singleton.mp hp
  · rintro rfl
    exact ⟨.refl _, List.pairwise_singleton _ _⟩

end Order

section Runs

variable {parseFromStr : Bytes → Bytes → Option ℤ} {strptime : Bytes → Bytes → Option Tm}

lemma rust_creationTime (hp : ReadsStamps parseFromStr Rust.fileFormat) (log : Log) :
    Rust.creationTime parseFromStr log.file = some log.stamp.timestamp := by
  have hhead : ∀ b ∈ (utf8 log.suffix).head?, isContinuation b = false := by
    rw [← List.append_nil (utf8 log.suffix)]
    exact head_utf8 log.suffix (by simp)
  have htext := head_text (ascii "__") log.stamp (by decide)
    (by decide : isContinuation 95 = false) hhead
  have hs := slice_append (p := ascii "ts3server_") htext hhead
  have hgap : (ascii "__").length = 2 := by decide
  have hstart : (ascii "ts3server_").length = 10 := by decide
  rw [length_text, hgap, hstart] at hs
  rw [Rust.creationTime, Log.file]
  simp only [hs, Option.bind_some, hp.file]

lemma cpp_creationTime (hs : FillsTm strptime Cpp.fileFormat) (log : Log)
    (h : 0 ≤ cppTime log.stamp) : Cpp.creationTime strptime log.file = some (cppTime log.stamp) := by
  have hnul : 0 ∉ log.file.name := by
    intro hm
    rcases List.mem_append.mp hm with hm | hm
    · exact absurd hm (by decide)
    · rcases List.mem_append.mp hm with hm | hm
      · rcases mem_text hm with hd | hd | hd | hd
        · exact absurd hd (by decide)
        · exact absurd hd (by decide)
        · exact absurd hd (by decide)
        · exact absurd hd (by decide)
      · exact log.suffix_text hm
  rw [Cpp.creationTime, cstring_eq hnul, Log.file, hs.file]
  exact if_neg (not_lt.mpr h)

lemma rust_parseFile (hp : ReadsStamps parseFromStr Rust.fileFormat) {lines : List ClientLine}
    (h : ∀ l ∈ lines, l.Legible) (db : ClientMap ℤ) :
    (lines.map ClientLine.bytes).foldlM (Rust.processLine parseFromStr) db =
      some ((lines.map fun l => l.event ClientLine.rustName Stamp.timestamp).foldl Rust.apply db) := by
  induction lines generalizing db with
  | nil => rfl
  | cons l lines ih =>
    rw [List.map_cons, List.foldlM_cons, (h l List.mem_cons_self).rust_processLine hp,
      Option.bind_eq_bind, Option.bind_some, ih fun l' hl' => h l' (List.mem_cons_of_mem l hl')]
    rfl

lemma cpp_parseFile (hs : FillsTm strptime Cpp.fileFormat) {lines : List ClientLine}
    (h : ∀ l ∈ lines, l.Legible) (db : ClientMap ℤ) :
    (lines.map ClientLine.bytes).foldl (Cpp.processActionOnLine strptime 0) db =
      (lines.map fun l => l.event ClientLine.cppName cppTime).foldl Cpp.apply db := by
  induction lines generalizing db with
  | nil => rfl
  | cons l lines ih =>
    rw [List.map_cons, List.foldl_cons, (h l List.mem_cons_self).cpp_processLine hs,
      ih fun l' hl' => h l' (List.mem_cons_of_mem l hl')]
    rfl

lemma trace_cons (name : ClientLine → Bytes) (time : Stamp → ℤ) (log : Log) (logs : List Log) :
    trace name time (log :: logs) =
      (log.lines.map fun l => l.event name time) ++ .reset :: trace name time logs := by
  simp [trace, history, logged, Function.comp_def]

lemma rust_parseFileList (hp : ReadsStamps parseFromStr Rust.fileFormat) {logs : List Log}
    (h : ∀ log ∈ logs, ∀ l ∈ log.lines, l.Legible) (db : ClientMap ℤ) :
    Rust.parseFileList parseFromStr (logs.map fun log => (log.stamp.timestamp, log.file)) db =
      some ((rustTrace logs).foldl Rust.apply db) := by
  induction logs generalizing db with
  | nil => rfl
  | cons log logs ih =>
    rw [List.map_cons, Rust.parseFileList, List.foldlM_cons, Rust.parseFile, Log.file,
      rust_parseFile hp (h log List.mem_cons_self), Option.map_some, Option.bind_eq_bind,
      Option.bind_some, ← Rust.parseFileList, ih fun log' hm => h log' (List.mem_cons_of_mem log hm),
      rustTrace, rustTrace, trace_cons, List.foldl_append]
    rfl

lemma cpp_parseFiles (hs : FillsTm strptime Cpp.fileFormat) {logs : List Log}
    (h : ∀ log ∈ logs, ∀ l ∈ log.lines, l.Legible) (db : ClientMap ℤ) :
    Cpp.parseFiles strptime 0 (logs.map fun log => (cppTime log.stamp, log.file)) db =
      (cppTrace logs).foldl Cpp.apply db := by
  induction logs generalizing db with
  | nil => rfl
  | cons log logs ih =>
    rw [List.map_cons, Cpp.parseFiles, List.foldl_cons, Cpp.parseFile, Log.file,
      cpp_parseFile hs (h log List.mem_cons_self), ← Cpp.parseFiles,
      ih fun log' hm => h log' (List.mem_cons_of_mem log hm), cppTrace, cppTrace, trace_cons,
      List.foldl_append]
    rfl

end Runs

section Tables

variable {logs : List Log} {id : UInt32} {i j : ℕ} {name : ClientLine → Bytes} {time : Stamp → ℤ}

lemma effect_logged (n : ℕ) (line : Option ClientLine) :
    (logged name time line).effect id n = lineEffect id n line := by
  cases line with
  | none => rfl
  | some l =>
    cases ha : l.found <;> simp only [logged, lineEffect, ClientLine.event, ha, Event.effect]

lemma closes_logged (line : Option ClientLine) : (logged name time line).closes ↔ line ≠ none := by
  cases line with
  | none => simp [logged, Event.closes]
  | some l =>
    cases ha : l.found <;> simp [logged, ClientLine.event, ha, Event.closes]

lemma level_trace (k : ℕ) : connections id ((trace name time logs).take k) =
    level (lineEffect id) ((history logs).take k) := by
  rw [connections, trace, ← List.map_take, level_map]
  simp only [effect_logged]

lemma opening_trace : opening (Event.effect id) (trace name time logs) =
    opening (lineEffect id) (history logs) := by
  rw [trace, opening_map]
  simp only [effect_logged]

lemma periods_trace :
    periods (Event.effect id) Event.closes (trace name time logs) = busyLines id logs := by
  ext p
  rw [busyLines, mem_periods, mem_periods, trace, isPeriod_map, List.length_map]
  simp only [effect_logged, closes_logged]

lemma nameAt_trace {l : ClientLine} (h : (history logs)[i]? = some (some l))
    (ha : l.found = .connect) : nameAt (trace name time logs) i = name l := by
  rw [nameAt, trace, List.getElem?_map, h, Option.map_some, Option.elim_some, logged,
    ClientLine.event, ha]
  rfl

lemma timeAt_trace {l : ClientLine} (h : (history logs)[i]? = some (some l)) :
    timeAt Event.time (trace name time logs) i = time l.stamp := by
  rw [timeAt, trace, List.getElem?_map, h, Option.map_some, Option.elim_some]
  cases ha : l.found <;> simp only [logged, ClientLine.event, ha, Event.time]

lemma connect_of_raised (hi : i < (history logs).length)
    (h0 : level (lineEffect id) ((history logs).take i) = 0)
    (h1 : 0 < level (lineEffect id) ((history logs).take (i + 1))) :
    ∃ l, (history logs)[i]? = some (some l) ∧ l.found = .connect := by
  rw [← List.take_concat_get' _ i hi, level_snoc, h0] at h1
  rw [List.getElem?_eq_getElem hi]
  cases hl : (history logs)[i] with
  | none =>
    rw [hl] at h1
    exact absurd h1 (Nat.lt_irrefl 0)
  | some l =>
    refine ⟨l, rfl, ?_⟩
    cases ha : l.found with
    | connect => rfl
    | disconnect =>
      rw [hl, lineEffect, ClientLine.event, ha, Event.effect] at h1
      split at h1
      · exact absurd h1 (Nat.lt_irrefl 0)
      · exact absurd h1 (Nat.lt_irrefl 0)

lemma lines_of_busy {p : ℕ × ℕ} (h : p ∈ busyLines id logs) :
    ∃ l l', (history logs)[p.1]? = some (some l) ∧ (history logs)[p.2]? = some (some l') := by
  obtain ⟨hj, ⟨hij, h0, hpos⟩, -, hc⟩ := mem_periods.mp h
  obtain ⟨l, hl, -⟩ := connect_of_raised (hij.trans hj) h0
    (hpos (p.1 + 1) (Finset.mem_Ioc.mpr ⟨Nat.lt_succ_self _, hij⟩))
  obtain ⟨l', hl'⟩ := Option.ne_none_iff_exists'.mp (hc _ (List.getElem?_eq_getElem hj))
  refine ⟨l, l', hl, ?_⟩
  rw [List.getElem?_eq_getElem hj, hl']

lemma timeSpent_cppTrace : timeSpent id (cppTrace logs) = timeSpent id (rustTrace logs) +
    86400 * ∑ p ∈ busyLines id logs, (aheadAt logs p.2 - aheadAt logs p.1) := by
  rw [timeSpent, timeSpent, total, total, cppTrace, rustTrace, periods_trace, periods_trace,
    Finset.mul_sum, ← Finset.sum_add_distrib]
  apply Finset.sum_congr rfl
  intro p hp
  obtain ⟨l, l', hl, hl'⟩ := lines_of_busy hp
  have ha : aheadAt logs p.1 = Cpp.ahead l.stamp := by
    rw [aheadAt, hl]
    rfl
  have ha' : aheadAt logs p.2 = Cpp.ahead l'.stamp := by
    rw [aheadAt, hl']
    rfl
  rw [timeAt_trace hl, timeAt_trace hl', timeAt_trace hl, timeAt_trace hl', ha, ha', cppTime,
    cppTime, strToTime_tm, strToTime_tm]
  ring

lemma shown_recorded (id : UInt32) (events : List (Event ℤ)) :
    (recorded events id).map Client.shown =
      (opening (Event.effect id) events).map fun i => (timeSpent id events, nameAt events i) := by
  rw [recorded, Option.map_map]
  rfl

lemma shown_iff : (recorded (rustTrace logs) id).map Client.shown =
    (recorded (cppTrace logs) id).map Client.shown ↔ Alike id logs := by
  rw [shown_recorded, shown_recorded, rustTrace, cppTrace, opening_trace, opening_trace,
    ← rustTrace, ← cppTrace]
  have hspent : timeSpent id (rustTrace logs) = timeSpent id (cppTrace logs) ↔
      ∑ p ∈ busyLines id logs, (aheadAt logs p.2 - aheadAt logs p.1) = 0 := by
    rw [timeSpent_cppTrace]
    omega
  cases ho : opening (lineEffect id) (history logs) with
  | none =>
    have hnone : timeSpent id (rustTrace logs) = timeSpent id (cppTrace logs) := by
      rw [timeSpent, timeSpent, total_of_opening_none, total_of_opening_none]
      · rw [cppTrace, opening_trace, ho]
      · rw [rustTrace, opening_trace, ho]
    simp only [Option.map_none, true_iff]
    refine ⟨?_, hspent.mp hnone⟩
    intro i l hi
    rw [ho] at hi
    cases hi
  | some i =>
    obtain ⟨hi, h0, h1⟩ := opening_lt ho
    obtain ⟨l, hl, ha⟩ := connect_of_raised hi h0 h1
    have hname : nameAt (rustTrace logs) i = nameAt (cppTrace logs) i ↔ l.NameAlike := by
      rw [rustTrace, cppTrace, nameAt_trace hl ha, nameAt_trace hl ha, ClientLine.nameAlike_iff]
    rw [Option.map_some, Option.map_some, Option.some.injEq, Prod.mk.injEq, hspent, hname]
    constructor
    · rintro ⟨hdays, hn⟩
      refine ⟨?_, hdays⟩
      intro i' l' hi' hl'
      obtain rfl := Option.some.inj (ho.symm.trans hi')
      obtain rfl := Option.some.inj (Option.some.inj (hl.symm.trans hl'))
      exact hn
    · intro h
      exact ⟨h.days, h.name i l ho hl⟩

lemma countable_cppTrace (h : Countable (rustTrace logs)) : Countable (cppTrace logs) := by
  intro id past hpast
  rw [List.prefix_iff_eq_take.mp hpast, cppTrace, level_trace]
  have hrust := h id _ (List.take_prefix past.length (rustTrace logs))
  rwa [rustTrace, level_trace] at hrust

lemma proper_trace
    (h : ∀ log ∈ logs, ∀ l ∈ log.lines, l.found = .connect → time l.stamp ≠ 0) :
    ∀ e ∈ trace name time logs, e.Proper := by
  intro e he
  obtain ⟨line, hline, rfl⟩ := List.mem_map.mp he
  cases line with
  | none => trivial
  | some l =>
    obtain ⟨log, hlog, hm⟩ := List.mem_flatMap.mp hline
    have hl : l ∈ log.lines := by simpa using hm
    have hid : 2 ≤ l.id.toUInt32 := by
      have hlt := l.id_lt
      rw [UInt32.le_iff_toNat_le, Nat.toUInt32, UInt32.toNat_ofNat', Nat.mod_eq_of_lt (by omega)]
      exact l.id_ge
    cases ha : l.found with
    | connect =>
      simp only [logged, ClientLine.event, ha]
      exact ⟨hid, h log hlog l hl ha⟩
    | disconnect =>
      simp only [logged, ClientLine.event, ha]
      exact hid

end Tables

section Ties

variable {logs order : List Log} {id : UInt32} {key time : Stamp → ℤ} {name : ClientLine → Bytes}

def Log.tells (id : UInt32) (log : Log) : Bool := log.lines.any fun l => l.id.toUInt32 = id

lemma Log.Apart.not_tells {f g : Log} (h : f.Apart g) (hf : f.tells id) : ¬ g.tells id := by
  intro hg
  obtain ⟨l, hl, hid⟩ := List.any_eq_true.mp hf
  obtain ⟨l', hl', hid'⟩ := List.any_eq_true.mp hg
  have hsame := (of_decide_eq_true hid).trans (of_decide_eq_true hid').symm
  have hlt := l.id_lt
  have hlt' := l'.id_lt
  refine h l hl l' hl' ?_
  exact (toUInt32_eq (by omega) (by omega)).mp hsame

lemma event_isOf (l : ClientLine) : (l.event name time).isOf id = decide (l.id.toUInt32 = id) := by
  cases ha : l.found <;> simp only [ClientLine.event, ha, Event.isOf]

lemma database_trace (name : ClientLine → Bytes) (time : Stamp → ℤ) (logs : List Log) :
    Rust.database (trace name time logs) =
      Rust.tableOf (logs.map fun log => log.lines.map fun l => l.event name time) := by
  have hfold (db : ClientMap ℤ) : (trace name time logs).foldl Rust.apply db =
      (logs.map fun log => log.lines.map fun l => l.event name time).foldl
        (fun db es => Rust.clearClients (es.foldl Rust.apply db)) db := by
    induction logs generalizing db with
    | nil => rfl
    | cons log logs ih =>
      rw [trace_cons, List.foldl_append, List.foldl_cons, ih]
      rfl
  exact hfold _

lemma database_tells (id : UInt32) (logs : List Log) : Rust.database (trace name time logs) id =
    Rust.database (trace name time (logs.filter (Log.tells id))) id := by
  have htells : (fun es => List.any es (Event.isOf id)) ∘
      (fun log : Log => log.lines.map fun l => l.event name time) = Log.tells id := by
    funext log
    simp only [Function.comp_def, List.any_map, Log.tells, event_isOf]
  rw [database_trace, database_trace, ← Rust.tableOf_filter, List.filter_map, htells]

/-- Logs of one time are taken in any order: they share no client. -/
lemma Orders.database_eq (h : Orders key logs order)
    (hc : logs.Pairwise fun f g => f.Apart g ∨ key f.stamp < key g.stamp) :
    Rust.database (trace name time order) = Rust.database (trace name time logs) := by
  funext id
  have hstrict : (logs.filter (Log.tells id)).Pairwise fun f g => key f.stamp < key g.stamp := by
    refine (hc.filter _).imp_of_mem fun hf hg hfg => hfg.resolve_left fun ha => ?_
    exact ha.not_tells (List.mem_filter.mp hf).2 (List.mem_filter.mp hg).2
  rw [database_tells id order, database_tells id logs,
    ordered_unique (h.1.filter _) (h.2.filter _) hstrict]

end Ties

section Legible

variable {parseFromStr : Bytes → Bytes → Option ℤ} {strptime : Bytes → Bytes → Option Tm}
  {logs order : List Log} {dir : Bytes} {entries : List LogFile} {map : ClientMap ℤ}

lemma Legible.proper_rust (h : Legible logs) : ∀ e ∈ rustTrace logs, e.Proper :=
  proper_trace fun log hlog l hl => (h.lines log hlog l hl).timeRust

lemma Legible.proper_cpp (h : Legible logs) : ∀ e ∈ cppTrace logs, e.Proper :=
  proper_trace fun log hlog l hl => (h.lines log hlog l hl).timeCpp

lemma Legible.rust_order (h : Legible logs) (hp : ReadsStamps parseFromStr Rust.fileFormat)
    (ho : Orders Stamp.timestamp logs order) :
    Rust.parseFileList parseFromStr (order.map fun log => (log.stamp.timestamp, log.file)) noClients =
      some (Rust.database (rustTrace logs)) := by
  rw [rust_parseFileList hp fun log hm => h.lines log (ho.1.subset hm)]
  exact congrArg some (ho.database_eq (h.created.imp fun hfg => hfg.imp_right And.left))

lemma Legible.cpp_order (h : Legible logs) (hs : FillsTm strptime Cpp.fileFormat)
    (ho : Orders cppTime logs order) :
    Cpp.parseFiles strptime 0 (order.map fun log => (cppTime log.stamp, log.file)) noClients =
      Cpp.database (cppTrace logs) := by
  have hproper : ∀ e ∈ cppTrace order, e.Proper :=
    proper_trace fun log hm l hl => (h.lines log (ho.1.subset hm) l hl).timeCpp
  rw [cpp_parseFiles hs fun log hm => h.lines log (ho.1.subset hm), ← database_eq h.proper_cpp]
  exact (database_eq hproper).symm.trans
    (ho.database_eq (h.created.imp fun hfg => hfg.imp_right And.right))

lemma Rust.computes_legible (hp : ReadsStamps parseFromStr Rust.fileFormat) (hlogs : Legible logs)
    (hentries : (entries.filter (LogFile.isLog dir)).Perm (logs.map Log.file)) :
    Rust.Computes parseFromStr dir entries map ↔ map = Rust.database (rustTrace logs) := by
  obtain ⟨found, hfound, horder⟩ := sorted_logs hentries fun log _ => rust_creationTime hp log
  constructor
  · rintro ⟨found', order, hf, ho, hmap⟩
    rw [Rust.compileLogs, hfound] at hf
    obtain rfl := Option.some.inj hf
    obtain ⟨sorted, hsorted, rfl⟩ := (horder order).mp ho
    rw [hlogs.rust_order hp hsorted] at hmap
    exact (Option.some.inj hmap).symm
  · rintro rfl
    obtain ⟨sorted, hsorted⟩ := exists_orders Stamp.timestamp logs
    exact ⟨found, _, hfound, (horder _).mpr ⟨sorted, hsorted, rfl⟩, hlogs.rust_order hp hsorted⟩

lemma Cpp.computes_legible (hs : FillsTm strptime Cpp.fileFormat) (hlogs : Legible logs)
    (hentries : (entries.filter (LogFile.isLog dir)).Perm (logs.map Log.file)) :
    Cpp.Computes strptime dir entries map ↔ map = Cpp.database (cppTrace logs) := by
  obtain ⟨found, hfound, horder⟩ := sorted_logs hentries
    fun log hm => cpp_creationTime hs log (hlogs.started log hm)
  constructor
  · rintro ⟨found', order, hf, ho, hmap⟩
    rw [Cpp.compileLogs, hfound] at hf
    obtain rfl := Option.some.inj hf
    obtain ⟨sorted, hsorted, rfl⟩ := (horder order).mp ho
    rw [hlogs.cpp_order hs hsorted] at hmap
    exact hmap.symm
  · rintro rfl
    obtain ⟨sorted, hsorted⟩ := exists_orders cppTime logs
    exact ⟨found, _, hfound, (horder _).mpr ⟨sorted, hsorted, rfl⟩, hlogs.cpp_order hs hsorted⟩

lemma shown_database (hlogs : Legible logs) (id : UInt32) :
    (Rust.database (rustTrace logs) id).map Client.shown =
      (Cpp.database (cppTrace logs) id).map Client.shown ↔ Alike id logs := by
  rw [database_eq hlogs.proper_rust, database_recorded hlogs.proper_rust hlogs.countable,
    database_recorded hlogs.proper_cpp (countable_cppTrace hlogs.countable)]
  exact shown_iff

end Legible

theorem agree_iff_alike (parseFromStr : Bytes → Bytes → Option ℤ)
    (strptime : Bytes → Bytes → Option Tm) (hparse : ReadsStamps parseFromStr Rust.fileFormat)
    (hstrptime : FillsTm strptime Cpp.fileFormat) (logs : List Log) (hlogs : Legible logs)
    (dir : Bytes) (entries : List LogFile)
    (hentries : (entries.filter (LogFile.isLog dir)).Perm (logs.map Log.file)) :
    Agree parseFromStr strptime dir entries ↔ ∀ id, Alike id logs := by
  have hrust {map : ClientMap ℤ} :
      Rust.Computes parseFromStr dir entries map ↔ map = Rust.database (rustTrace logs) :=
    Rust.computes_legible hparse hlogs hentries
  have hcpp {map : ClientMap ℤ} :
      Cpp.Computes strptime dir entries map ↔ map = Cpp.database (cppTrace logs) :=
    Cpp.computes_legible hstrptime hlogs hentries
  constructor
  · rintro ⟨-, -, h⟩ id
    exact (shown_database hlogs id).mp (h _ _ (hrust.mpr rfl) (hcpp.mpr rfl) id)
  · intro h
    refine ⟨⟨_, hrust.mpr rfl⟩, ⟨_, hcpp.mpr rfl⟩, ?_⟩
    intro rust cpp hr hc id
    rw [hrust.mp hr, hcpp.mp hc]
    exact (shown_database hlogs id).mpr (h id)

def parseStamp (text fmt : Bytes) : Option ℤ :=
  (if fmt = lineFormat then Stamp.ofText (ascii " ") 58 text
    else Stamp.ofText (ascii "__") 95 text).map Stamp.timestamp

def fillStamp (text fmt : Bytes) : Option Tm :=
  (if fmt = lineFormat then Stamp.ofText (ascii " ") 58 (text.take 19)
    else Stamp.ofText (ascii "__") 95 ((text.drop 10).take 20)).map Stamp.tm

lemma parseStamp_reads : ReadsStamps parseStamp Rust.fileFormat where
  line st := by
    rw [parseStamp, if_pos rfl, ofText_text]
    rfl
  file st := by
    rw [parseStamp, if_neg (by decide), ofText_text]
    rfl

lemma fillStamp_fills : FillsTm fillStamp Cpp.fileFormat where
  line st rest := by
    have hlen : (st.text (ascii " ") 58).length = 19 := length_text st
    rw [fillStamp, if_pos rfl, List.take_left' hlen, ofText_text]
    rfl
  file st rest := by
    have hdrop : (ascii "ts3server_" ++ (st.text (ascii "__") 95 ++ rest)).drop 10 =
        st.text (ascii "__") 95 ++ rest := List.drop_left' (by decide)
    have hlen : (st.text (ascii "__") 95).length = 20 := length_text st
    rw [fillStamp, if_neg (by decide), hdrop, List.take_left' hlen, ofText_text]
    rfl

def mayLine (hour : ℕ) (hhour : hour < 24) (action : ClientAction) (name : List Char)
    (hname : 0 ∉ utf8 name ∧ 10 ∉ utf8 name) : ClientLine where
  stamp := ⟨2021, 5, 1, hour, 0, 0, by decide, by decide, by decide, hhour, by decide, by decide⟩
  filler := ".000000|INFO    |VirtualServerBase|1  ".toList
  action := action
  name := name
  id := 5
  tail := []
  id_ge := by decide
  id_lt := by decide
  no_nul := by
    have hfiller : 0 ∉ utf8 ".000000|INFO    |VirtualServerBase|1  ".toList := by decide
    simp only [List.mem_append, not_or]
    exact ⟨⟨hfiller, hname.1⟩, List.not_mem_nil⟩
  no_newline := by
    have hfiller : 10 ∉ utf8 ".000000|INFO    |VirtualServerBase|1  ".toList := by decide
    simp only [List.mem_append, not_or]
    exact ⟨⟨hfiller, hname.2⟩, List.not_mem_nil⟩

def visit (name : List Char) (hname : 0 ∉ utf8 name ∧ 10 ∉ utf8 name) : Log where
  stamp := ⟨2021, 5, 1, 9, 0, 0, by decide, by decide, by decide, by decide, by decide, by decide⟩
  suffix := ".000001_1.log".toList
  lines := [mayLine 10 (by decide) .connect name hname, mayLine 11 (by decide) .disconnect name hname]
  suffix_text := by decide

def amysLine (hour : ℕ) (hhour : hour < 24) (action : ClientAction) : ClientLine :=
  { mayLine hour hhour action "amy".toList (by decide) with
    id := 6
    id_ge := by decide
    id_lt := by decide }

lemma noon_lt : 12 < 24 := by decide

def twoVisits : Log where
  stamp := (visit "bob".toList (by decide)).stamp
  suffix := ".000001_1.log".toList
  lines := [amysLine 10 (by decide) .connect,
    mayLine 11 (by decide) .connect "bob".toList (by decide),
    mayLine 12 noon_lt .disconnect "bob".toList (by decide),
    amysLine 12 noon_lt .disconnect]
  suffix_text := by decide

lemma timestamp_mayLine {hour : ℕ} (hhour : hour < 24) (action : ClientAction) {name : List Char}
    (hname : 0 ∉ utf8 name ∧ 10 ∉ utf8 name) :
    (mayLine hour hhour action name hname).stamp.timestamp = 1619827200 + hour * 3600 := by
  have hdays : (mayLine hour hhour action name hname).stamp.days = 18748 := by
    simp only [Stamp.days, mayLine]
    decide
  rw [Stamp.timestamp, hdays]
  simp only [mayLine, Nat.cast_zero]
  ring

lemma cppTime_mayLine {hour : ℕ} (hhour : hour < 24) (action : ClientAction) {name : List Char}
    (hname : 0 ∉ utf8 name ∧ 10 ∉ utf8 name) :
    cppTime (mayLine hour hhour action name hname).stamp = 1619845200 + hour * 3600 := by
  have hahead : Cpp.ahead (mayLine hour hhour action name hname).stamp = 0 := by
    have hleap : ¬ (isLeap 2021 ∧ 5 ≤ 2) := by decide
    rw [ahead_eq (by simp [mayLine]) (by simp [mayLine])]
    exact if_neg hleap
  rw [cppTime, strToTime_tm, timestamp_mayLine, hahead, Cpp.utcDiff]
  ring

lemma legible_mayLine {hour : ℕ} (hhour : hour < 24) (action : ClientAction) {name : List Char}
    (hname : 0 ∉ utf8 name ∧ 10 ∉ utf8 name) (hparen : (utf8 name).head? ≠ some 40)
    (hid : ¬ ascii "id:" <:+: utf8 name) (hphrase : ¬ ClientAction.connect.phrase <:+: utf8 name) :
    (mayLine hour hhour action name hname).Legible where
  fillerQuote := by
    change 39 ∉ utf8 ".000000|INFO    |VirtualServerBase|1  ".toList
    decide
  fillerId := by
    change ¬ ascii "id:" <:+: utf8 ".000000|INFO    |VirtualServerBase|1  ".toList
    decide
  nameParen := hparen
  nameId := hid
  phrase _ := ⟨hphrase, by change ¬ ClientAction.connect.phrase <:+: utf8 []; decide⟩
  time := by
    rw [← cppTime, cppTime_mayLine]
    omega
  timeRust _ := by
    rw [timestamp_mayLine]
    omega
  timeCpp _ := by
    rw [← cppTime, cppTime_mayLine]
    omega

lemma legible_bobsLine {hour : ℕ} (hhour : hour < 24) (action : ClientAction) :
    (mayLine hour hhour action "bob".toList (by decide)).Legible :=
  legible_mayLine hhour action _ (by decide) (by decide) (by decide)

lemma legible_visit : Legible [visit "bob".toList (by decide)] where
  lines log hlog l hl := by
    obtain rfl := List.mem_singleton.mp hlog
    rcases List.mem_cons.mp hl with rfl | hl
    · exact legible_bobsLine _ .connect
    · obtain rfl := List.mem_singleton.mp hl
      exact legible_bobsLine _ .disconnect
  countable id past h := by
    have hl := h.length_le.trans_eq (show (rustTrace _).length = 3 from rfl)
    have hc := connections_le id past
    omega
  created := List.pairwise_singleton _ _
  started log hlog := by
    obtain rfl := List.mem_singleton.mp hlog
    decide

lemma legible_amysLine {hour : ℕ} (hhour : hour < 24) (action : ClientAction) :
    (amysLine hour hhour action).Legible := by
  obtain ⟨h₁, h₂, h₃, h₄, h₅, h₆, h₇, h₈⟩ := legible_mayLine hhour action
    (by decide : 0 ∉ utf8 "amy".toList ∧ 10 ∉ utf8 "amy".toList) (by decide) (by decide) (by decide)
  exact ⟨h₁, h₂, h₃, h₄, h₅, h₆, h₇, h₈⟩

lemma legible_twoVisits : Legible [twoVisits] where
  lines log hlog l hl := by
    obtain rfl := List.mem_singleton.mp hlog
    simp only [twoVisits, List.mem_cons, List.not_mem_nil, or_false] at hl
    rcases hl with rfl | rfl | rfl | rfl
    · exact legible_amysLine _ .connect
    · exact legible_bobsLine _ .connect
    · exact legible_bobsLine _ .disconnect
    · exact legible_amysLine _ .disconnect
  countable id past h := by
    have hl := h.length_le.trans_eq (show (rustTrace _).length = 5 from rfl)
    have hc := connections_le id past
    omega
  created := List.pairwise_singleton _ _
  started log hlog := by
    obtain rfl := List.mem_singleton.mp hlog
    decide

theorem agree_iff_alike_visit :
    Agree parseStamp fillStamp (ascii "logs") [(visit "bob".toList (by decide)).file] ↔
      ∀ id, Alike id [visit "bob".toList (by decide)] :=
  agree_iff_alike parseStamp fillStamp parseStamp_reads fillStamp_fills _ legible_visit _ _ (by decide)

def Chronological (logs : List Log) : Prop :=
  ((logs.flatMap Log.lines).Pairwise fun l l' => l.stamp.timestamp ≤ l'.stamp.timestamp) ∧
    logs.Pairwise fun f g => f.stamp.timestamp < g.stamp.timestamp

theorem nickname_cut : ¬ ∀ (parseFromStr : Bytes → Bytes → Option ℤ)
    (strptime : Bytes → Bytes → Option Tm), ReadsStamps parseFromStr Rust.fileFormat →
      FillsTm strptime Cpp.fileFormat → ∀ logs, Chronological logs → ∀ dir entries,
        (entries.filter (LogFile.isLog dir)).Perm (logs.map Log.file) →
          Agree parseFromStr strptime dir entries := by
  intro h
  have hchron : Chronological [visit "O'Brien".toList (by decide)] := by
    refine ⟨?_, List.pairwise_singleton _ _⟩
    decide
  have hentries : ([(visit "O'Brien".toList (by decide)).file].filter
      (LogFile.isLog (ascii "logs"))).Perm
        ([visit "O'Brien".toList (by decide)].map Log.file) := by decide
  obtain ⟨⟨rust, hrust⟩, ⟨cpp, hcpp⟩, hshown⟩ := h parseStamp fillStamp parseStamp_reads
    fillStamp_fills _ hchron (ascii "logs") _ hentries
  have hsame := congrArg (Option.map Prod.snd) (hshown rust cpp hrust hcpp 5)
  rw [Option.map_map, Option.map_map] at hsame
  have hread : (rust 5).map Client.name = some (ascii "O'Brien") := by
    obtain ⟨found, hfound, horder⟩ := @sorted_logs (Rust.creationTime parseStamp) Stamp.timestamp _ _
      hentries fun log _ => rust_creationTime parseStamp_reads log
    obtain ⟨_, order, hf, ho, hmap⟩ := hrust
    rw [Rust.compileLogs, hfound] at hf
    obtain rfl := Option.some.inj hf
    obtain ⟨sorted, hsorted, rfl⟩ := (horder order).mp ho
    rw [orders_singleton.mp hsorted] at hmap
    have hrun : (Rust.parseFileList parseStamp ([visit "O'Brien".toList (by decide)].map fun log =>
        (log.stamp.timestamp, log.file)) noClients).map (fun map => (map 5).map Client.name) =
          some (some (ascii "O'Brien")) := by decide +kernel
    rw [hmap] at hrun
    exact Option.some.inj hrun
  have hcut : (cpp 5).map Client.name = some (ascii "O") := by
    obtain ⟨found, hfound, horder⟩ := @sorted_logs (Cpp.creationTime fillStamp) cppTime _ _
      hentries fun log hm => cpp_creationTime fillStamp_fills log (by
        obtain rfl := List.mem_singleton.mp hm
        decide)
    obtain ⟨_, order, hf, ho, hmap⟩ := hcpp
    rw [Cpp.compileLogs, hfound] at hf
    obtain rfl := Option.some.inj hf
    obtain ⟨sorted, hsorted, rfl⟩ := (horder order).mp ho
    rw [orders_singleton.mp hsorted] at hmap
    have hrun : ((Cpp.parseFiles fillStamp 0 ([visit "O'Brien".toList (by decide)].map fun log =>
        (cppTime log.stamp, log.file)) noClients) 5).map Client.name = some (ascii "O") := by
      decide +kernel
    rw [hmap] at hrun
    exact hrun
  have hname : (rust 5).map Client.name = (cpp 5).map Client.name := hsame
  rw [hread, hcut] at hname
  exact absurd hname (by decide)

end TeamspeakWebserver.Ltc
