import TeamspeakWebserver.Batches.Accumulation
import TeamspeakWebserver.Batches.Draining
import TeamspeakWebserver.Ltc.Agreement

/-! What the table of `main.rs` owes to the order of the files and of their lines. -/

namespace TeamspeakWebserver.Ltc

open Batches Text

namespace Event

variable {τ : Type*}

def connects (id : UInt32) : Event τ → Bool
  | connect i _ _ => i = id
  | _ => false

lemma connects_and (id : UInt32) (e : Event τ) : (e.isOf id && e.connects id) = e.connects id := by
  cases e <;> simp [isOf, connects]

end Event

namespace Rust

section Lines

variable (parseFromStr : Bytes → Bytes → Option ℤ)

def actionEvent (time : ℤ) : ClientAction × Bytes × UInt32 → Event ℤ
  | (.connect, name, id) => .connect id name time
  | (.disconnect, _, id) => .disconnect id time

/-- What a line does to the table, if anything. The outer `none` is a panic. -/
def lineEvent (line : Bytes) : Option (Option (Event ℤ)) :=
  (slice line 0 19).bind fun head =>
    (parseFromStr head lineFormat).elim (some none) fun time =>
      (parseLine line).map (Option.map (actionEvent time))

def fileEvents (file : LogFile) : Option (List (Event ℤ)) :=
  (file.lines.mapM (lineEvent parseFromStr)).map List.reduceOption

def ownEvents (id : UInt32) (file : LogFile) : Option (List (Event ℤ)) :=
  (fileEvents parseFromStr file).map (List.filter (Event.isOf id))

def Reads (file : LogFile) : Prop := ∀ line ∈ file.lines, (lineEvent parseFromStr line).isSome

variable {parseFromStr} {file : LogFile} {order : List (ℤ × LogFile)}

lemma processLine_eq (db : ClientMap ℤ) (line : Bytes) : processLine parseFromStr db line =
    (lineEvent parseFromStr line).map fun e => e.elim db (apply db) := by
  rw [processLine, lineEvent]
  cases slice line 0 19 with
  | none => rfl
  | some head =>
    simp only [Option.bind_some]
    cases parseFromStr head lineFormat with
    | none => rfl
    | some time =>
      simp only [Option.elim_some, Option.map_map]
      congr 1
      funext found
      cases found with
      | none => rfl
      | some found =>
        obtain ⟨action, name, id⟩ := found
        cases action <;> rfl

lemma foldlM_processLine (lines : List Bytes) (db : ClientMap ℤ) :
    lines.foldlM (processLine parseFromStr) db =
      (lines.mapM (lineEvent parseFromStr)).map fun es => es.reduceOption.foldl apply db := by
  induction lines generalizing db with
  | nil => rfl
  | cons line lines ih =>
    rw [List.foldlM_cons, List.mapM_cons, processLine_eq]
    cases lineEvent parseFromStr line with
    | none => rfl
    | some e =>
      simp only [Option.map_some, Option.bind_eq_bind, Option.bind_some, ih]
      cases lines.mapM (lineEvent parseFromStr) with
      | none => rfl
      | some es => cases e <;> rfl

lemma parseFile_eq (db : ClientMap ℤ) (file : LogFile) : parseFile parseFromStr db file =
    (fileEvents parseFromStr file).map fun es => es.foldl apply db := by
  rw [parseFile, foldlM_processLine, fileEvents, Option.map_map]
  rfl

lemma parseFileList_eq (order : List (ℤ × LogFile)) (db : ClientMap ℤ) :
    parseFileList parseFromStr order db =
      (order.mapM fun log => fileEvents parseFromStr log.2).map fun batches =>
        batches.foldl (fun db es => clearClients (es.foldl apply db)) db := by
  induction order generalizing db with
  | nil => rfl
  | cons log order ih =>
    rw [parseFileList, List.foldlM_cons, List.mapM_cons, parseFile_eq]
    cases fileEvents parseFromStr log.2 with
    | none => rfl
    | some es =>
      simp only [Option.map_some, Option.bind_eq_bind, Option.bind_some]
      change parseFileList parseFromStr order _ = _
      rw [ih]
      cases order.mapM fun log => fileEvents parseFromStr log.2 <;> rfl

lemma mapM_eq_some {α β : Type} {f : α → Option β} {as : List α} {bs : List β} :
    as.mapM f = some bs ↔ as.map f = bs.map some := by
  induction as generalizing bs with
  | nil => cases bs <;> simp
  | cons a as ih =>
    rw [List.mapM_cons, List.map_cons]
    cases f a with
    | none => cases bs <;> simp
    | some b =>
      cases bs with
      | nil => cases as.mapM f <;> simp
      | cons b' bs =>
        rw [List.map_cons, List.cons.injEq, ← ih]
        cases as.mapM f <;> simp

lemma mapM_isSome {α β : Type} {f : α → Option β} {as : List α} (h : ∀ a ∈ as, (f a).isSome) :
    ∃ bs, as.mapM f = some bs := by
  induction as with
  | nil => exact ⟨[], rfl⟩
  | cons a as ih =>
    obtain ⟨b, hb⟩ := Option.isSome_iff_exists.mp (h a List.mem_cons_self)
    obtain ⟨bs, hbs⟩ := ih fun a' ha => h a' (List.mem_cons_of_mem a ha)
    refine ⟨b :: bs, ?_⟩
    rw [List.mapM_cons, hb, hbs]
    rfl

lemma isSome_of_mapM {α β : Type} {f : α → Option β} {as : List α} {bs : List β}
    (h : as.mapM f = some bs) {a : α} (ha : a ∈ as) : (f a).isSome := by
  have hm : f a ∈ bs.map some := mapM_eq_some.mp h ▸ List.mem_map_of_mem ha
  obtain ⟨b, -, hb⟩ := List.mem_map.mp hm
  rw [← hb, Option.isSome_some]

lemma Reads.fileEvents (h : Reads parseFromStr file) : (fileEvents parseFromStr file).isSome := by
  obtain ⟨es, hes⟩ := mapM_isSome h
  rw [Rust.fileEvents, hes]
  rfl

lemma parseFileList_reads (h : ∀ log ∈ order, Reads parseFromStr log.2) :
    ∃ batches, parseFileList parseFromStr order noClients = some (tableOf batches) ∧
      (order.map fun log => fileEvents parseFromStr log.2) = batches.map some := by
  obtain ⟨batches, hb⟩ := mapM_isSome fun log hm => (h log hm).fileEvents
  exact ⟨batches, by rw [parseFileList_eq, hb]; rfl, mapM_eq_some.mp hb⟩

end Lines

/-! ### The total of one client -/

section Tally

abbrev Link := UInt32 × ℤ

def link (id : UInt32) (l : Link) : Event ℤ → Link
  | .connect i _ t => if i = id then (l.1 + 1, if l.1 + 1 = 1 then t else l.2) else l
  | .disconnect i _ =>
    if i = id ∧ l.1 ≠ 0 then (l.1 - 1, if l.1 = 1 ∧ l.2 ≠ 0 then 0 else l.2) else l
  | .reset => (0, 0)

def gain (id : UInt32) (l : Link) : Event ℤ → ℤ
  | .disconnect i t => if i = id ∧ l.1 = 1 ∧ l.2 ≠ 0 then t - l.2 else 0
  | _ => 0

def tally (c : Option (Client ℤ)) : Link × ℤ :=
  c.elim ((0, 0), 0) fun c => ((c.numConn, c.lastTimeConnected), c.totalTimeConnected)

variable {id : UInt32} {map : ClientMap ℤ}

lemma tally_some (c : Client ℤ) :
    tally (some c) = ((c.numConn, c.lastTimeConnected), c.totalTimeConnected) := rfl

lemma tally_connect (hid : ¬ id ≤ 1) (name : Bytes) (t : ℤ) :
    tally (apply map (.connect id name t) id) =
      accumulate (link id) (gain id) (tally (map id)) (.connect id name t) := by
  let new : Client ℤ := { numConn := 0, lastTimeConnected := 0, totalTimeConnected := 0, name }
  have hc : tally (map id) = tally (some ((map id).getD new)) := by
    cases map id <;> rfl
  rw [hc]
  simp only [apply, logConnect, if_neg hid]
  change tally ((if ((map id).getD new).numConn + 1 = 1 then _ else _ : ClientMap ℤ) id) = _
  generalize (map id).getD new = c
  change _ = (link id (c.numConn, c.lastTimeConnected) (.connect id name t), c.totalTimeConnected + 0)
  rw [link, if_pos rfl, add_zero]
  by_cases h1 : c.numConn + 1 = 1
  · rw [if_pos h1, if_pos h1, insert_self, tally_some]
    split <;> rfl
  · rw [if_neg h1, if_neg h1, insert_self, tally_some]

lemma tally_disconnect (hid : ¬ id ≤ 1) (t : ℤ) :
    tally (apply map (.disconnect id t) id) =
      accumulate (link id) (gain id) (tally (map id)) (.disconnect id t) := by
  simp only [apply, logDisconnect, if_neg hid]
  cases hc : map id with
  | none => simp [tally, hc, accumulate, link, gain]
  | some c =>
    change tally ((if c.numConn ≠ 0 then _ else map) id) =
      (link id (c.numConn, c.lastTimeConnected) (.disconnect id t),
        c.totalTimeConnected + gain id (c.numConn, c.lastTimeConnected) (.disconnect id t))
    simp only [link, gain, true_and]
    by_cases hn : c.numConn = 0
    · simp [hn, hc, tally_some]
    · rw [if_pos hn, if_pos hn, insert_self, tally_some]
      by_cases hl : c.numConn = 1 ∧ c.lastTimeConnected ≠ 0
      · simp only [if_pos hl]
      · simp only [if_neg hl, add_zero]

lemma tally_apply (hid : ¬ id ≤ 1) (e : Event ℤ) :
    tally (apply map e id) = accumulate (link id) (gain id) (tally (map id)) e := by
  cases e with
  | connect i name t =>
    by_cases hi : i = id
    · subst hi
      exact tally_connect hid name t
    · rw [apply_other (by simp [Event.isOf, hi])]
      simp [accumulate, link, gain, hi]
  | disconnect i t =>
    by_cases hi : i = id
    · subst hi
      exact tally_disconnect hid t
    · rw [apply_other (by simp [Event.isOf, hi])]
      simp [accumulate, link, gain, hi]
  | reset =>
    simp only [apply, clearClients, accumulate, link, gain, add_zero]
    cases map id <;> rfl

lemma isSome_apply (hid : ¬ id ≤ 1) (e : Event ℤ) :
    (apply map e id).isSome = ((map id).isSome || e.connects id) := by
  by_cases ho : e.isOf id = true
  · cases e with
    | connect i name t =>
      obtain rfl : i = id := of_decide_eq_true ho
      simp only [apply, logConnect, if_neg hid, Event.connects, decide_true, Bool.or_true]
      split
      · rw [insert_self, Option.isSome_some]
      · rw [insert_self, Option.isSome_some]
    | disconnect i t =>
      obtain rfl : i = id := of_decide_eq_true ho
      simp only [apply, logDisconnect, if_neg hid, Event.connects, Bool.or_false]
      cases hc : map i with
      | none => exact congrArg Option.isSome hc
      | some c =>
        dsimp only
        split
        · rw [insert_self, Option.isSome_some, Option.isSome_some]
        · rw [hc]
    | reset =>
      simp only [apply, clearClients, Event.connects, Bool.or_false, Option.isSome_map]
  · rw [apply_other (by simpa using ho)]
    cases e <;> simp_all [Event.isOf, Event.connects]

lemma foldl_tally (hid : ¬ id ≤ 1) (es : List (Event ℤ)) (db : ClientMap ℤ) :
    tally (es.foldl apply db id) = es.foldl (accumulate (link id) (gain id)) (tally (db id)) := by
  induction es generalizing db with
  | nil => rfl
  | cons e es ih => rw [List.foldl_cons, List.foldl_cons, ih, tally_apply hid]

lemma foldl_isSome (hid : ¬ id ≤ 1) (es : List (Event ℤ)) (db : ClientMap ℤ) :
    (es.foldl apply db id).isSome = ((db id).isSome || es.any (Event.connects id)) := by
  induction es generalizing db with
  | nil => simp
  | cons e es ih => rw [List.foldl_cons, ih, isSome_apply hid, List.any_cons, Bool.or_assoc]

lemma tableOf_total (hid : ¬ id ≤ 1) (batches : List (List (Event ℤ))) :
    (tally (tableOf batches id)).2 = (batches.map (gains (link id) (gain id) (0, 0))).sum := by
  have hfold (db : ClientMap ℤ) :
      tally (batches.foldl (fun db es => clearClients (es.foldl apply db)) db id) =
        batches.foldl (accumulateBatch (link id) (gain id) (0, 0)) (tally (db id)) := by
    induction batches generalizing db with
    | nil => rfl
    | cons es batches ih =>
      have hclear (map : ClientMap ℤ) : tally (clearClients map id) = ((0, 0), (tally (map id)).2) := by
        rw [clearClients]
        cases map id <;> rfl
      rw [List.foldl_cons, List.foldl_cons, ih, hclear, foldl_tally hid, accumulateBatch]
  rw [tableOf, hfold]
  exact (foldl_accumulateBatch (0, 0) batches 0).trans (zero_add _)

lemma tableOf_isSome (hid : ¬ id ≤ 1) (batches : List (List (Event ℤ))) :
    (tableOf batches id).isSome = batches.any fun es => es.any (Event.connects id) := by
  have hfold (db : ClientMap ℤ) :
      (batches.foldl (fun db es => clearClients (es.foldl apply db)) db id).isSome =
        ((db id).isSome || batches.any fun es => es.any (Event.connects id)) := by
    induction batches generalizing db with
    | nil => simp
    | cons es batches ih =>
      rw [List.foldl_cons, ih, clearClients, Option.isSome_map, foldl_isSome hid, List.any_cons,
        Bool.or_assoc]
  rw [tableOf, hfold]
  rfl

lemma tableOf_server (hid : id ≤ 1) (batches : List (List (Event ℤ))) : tableOf batches id = none := by
  have happly (db : ClientMap ℤ) (hdb : db id = none) (e : Event ℤ) : apply db e id = none := by
    by_cases ho : e.isOf id = true
    · cases e with
      | connect i name t =>
        obtain rfl : i = id := of_decide_eq_true ho
        simp only [apply, logConnect, if_pos hid, hdb]
      | disconnect i t =>
        obtain rfl : i = id := of_decide_eq_true ho
        simp only [apply, logDisconnect, if_pos hid, hdb]
      | reset => simp only [apply, clearClients, hdb, Option.map_none]
    · rw [apply_other (by simpa using ho), hdb]
  have hfile (es : List (Event ℤ)) (db : ClientMap ℤ) (hdb : db id = none) :
      es.foldl apply db id = none := by
    induction es generalizing db with
    | nil => exact hdb
    | cons e es ih => exact ih _ (happly db hdb e)
  have hall (db : ClientMap ℤ) (hdb : db id = none) :
      batches.foldl (fun db es => clearClients (es.foldl apply db)) db id = none := by
    induction batches generalizing db with
    | nil => exact hdb
    | cons es batches ih =>
      refine ih _ ?_
      change (es.foldl apply db id).map _ = none
      rw [hfile es db hdb, Option.map_none]
  exact hall noClients rfl

lemma total_congr {batches batches' : List (List (Event ℤ))}
    (h : (batches.map (List.filter (Event.isOf id))).Perm
      (batches'.map (List.filter (Event.isOf id)))) :
    (tableOf batches id).map Client.totalTimeConnected =
      (tableOf batches' id).map Client.totalTimeConnected := by
  by_cases hid : id ≤ 1
  · rw [tableOf_server hid, tableOf_server hid]
  have hgains (batches : List (List (Event ℤ))) : batches.map (gains (link id) (gain id) (0, 0)) =
      (batches.map (List.filter (Event.isOf id))).map (gains (link id) (gain id) (0, 0)) := by
    rw [List.map_map]
    refine List.map_congr_left fun es _ => (gains_filter (fun l e he => ?_) es (0, 0)).symm
    cases e with
    | connect i name t =>
      have hi : i ≠ id := of_decide_eq_false he
      simp [link, gain, hi]
    | disconnect i t =>
      have hi : i ≠ id := of_decide_eq_false he
      simp [link, gain, hi]
    | reset => cases he
  have hany (batches : List (List (Event ℤ))) : (batches.any fun es => es.any (Event.connects id)) =
      (batches.map (List.filter (Event.isOf id))).any fun es => es.any (Event.connects id) := by
    simp only [List.any_map, Function.comp_def, List.any_filter, Event.connects_and]
  have htotal : (tally (tableOf batches id)).2 = (tally (tableOf batches' id)).2 := by
    rw [tableOf_total hid, tableOf_total hid, hgains, hgains batches']
    exact (h.map _).sum_eq
  have hsome : (tableOf batches id).isSome = (tableOf batches' id).isSome := by
    rw [tableOf_isSome hid, tableOf_isSome hid, hany, hany batches', h.any_eq]
  cases hb : tableOf batches id with
  | none =>
    rw [hb] at hsome
    cases hb' : tableOf batches' id with
    | none => rfl
    | some c =>
      rw [hb'] at hsome
      cases hsome
  | some c =>
    rw [hb] at hsome htotal
    cases hb' : tableOf batches' id with
    | none =>
      rw [hb'] at hsome
      cases hsome
    | some c' =>
      rw [hb'] at htotal
      exact congrArg some htotal

end Tally

/-! ### The heap of the files -/

def LogFile.cmp (f g : ℤ × LogFile) : Ordering := (compare f.1 g.1).swap

lemma cmp_ne_gt (f g : ℤ × LogFile) : LogFile.cmp g f ≠ .gt ↔ f.1 ≤ g.1 := by
  rw [LogFile.cmp, ne_eq, Ordering.swap_eq_gt, compare_lt_iff_lt, not_lt]

lemma drains_iff_sorted {logs order : List (ℤ × LogFile)} :
    Drains LogFile.cmp logs order ↔ Sorted logs order := by
  rw [drains_iff fun f => (cmp_ne_gt f f).mpr le_rfl, Sorted]
  simp only [cmp_ne_gt]

/-- `main`, up to the printing of the table, for the heap of the standard library. -/
def Compiles (parseFromStr : Bytes → Bytes → Option ℤ) (dir : Bytes) (entries : List LogFile)
    (map : ClientMap ℤ) : Prop :=
  ∃ logs order, compileLogs parseFromStr dir entries = some logs ∧ Drains LogFile.cmp logs order ∧
    parseFileList parseFromStr order noClients = some map

lemma Sorted.congr {logs logs' order order' : List (ℤ × LogFile)} (h : Sorted logs order)
    (h' : Sorted logs' order') (hp : logs.Perm logs') (hn : (logs.map Prod.fst).Nodup) :
    order' = order := by
  refine List.Perm.eq_of_pairwise ?_ h'.2 h.2 ((h'.1.trans hp.symm).trans h.1.symm)
  intro f g hf hg hfg hgf
  exact List.inj_on_of_nodup_map hn (hp.symm.subset (h'.1.subset hf)) (h.1.subset hg)
    (le_antisymm hfg hgf)

lemma compileLogs_perm {parseFromStr : Bytes → Bytes → Option ℤ} {dir : Bytes}
    {entries entries' : List LogFile} {logs : List (ℤ × LogFile)} (hp : entries.Perm entries')
    (h : compileLogs parseFromStr dir entries = some logs) :
    ∃ logs', compileLogs parseFromStr dir entries' = some logs' ∧ logs.Perm logs' := by
  have hf := hp.filter (LogFile.isLog dir)
  let stamped (file : LogFile) : Option (ℤ × LogFile) :=
    (creationTime parseFromStr file).map fun time => (time, file)
  obtain ⟨logs', hlogs'⟩ := mapM_isSome (f := stamped) fun file hm =>
    isSome_of_mapM h (hf.symm.subset hm)
  refine ⟨logs', hlogs', ?_⟩
  have hperm := (hf.map stamped).filterMap id
  rw [mapM_eq_some.mp h, mapM_eq_some.mp hlogs', List.filterMap_map, List.filterMap_map] at hperm
  simpa using hperm

theorem table_unordered (parseFromStr : Bytes → Bytes → Option ℤ) :
    (∀ order order' : List (ℤ × LogFile),
      (∀ log ∈ order ++ order', Reads parseFromStr log.2) →
      ∃ map map', parseFileList parseFromStr order noClients = some map ∧
        parseFileList parseFromStr order' noClients = some map' ∧
        ∀ id, (order.map fun log => ownEvents parseFromStr id log.2).Perm
            (order'.map fun log => ownEvents parseFromStr id log.2) →
          (map id).map Client.totalTimeConnected = (map' id).map Client.totalTimeConnected) ∧
    (∀ (dir : Bytes) (entries entries' : List LogFile) (logs : List (ℤ × LogFile))
      (map : ClientMap ℤ), entries.Perm entries' →
      compileLogs parseFromStr dir entries = some logs → (logs.map Prod.fst).Nodup →
      Compiles parseFromStr dir entries map →
      ∀ map', Compiles parseFromStr dir entries' map' ↔ map' = map) := by
  constructor
  · intro order order' hreads
    obtain ⟨batches, hb, hes⟩ := parseFileList_reads fun log hm =>
      hreads log (List.mem_append_left order' hm)
    obtain ⟨batches', hb', hes'⟩ := parseFileList_reads fun log hm =>
      hreads log (List.mem_append_right order hm)
    refine ⟨_, _, hb, hb', fun id h => total_congr ?_⟩
    have hown {order : List (ℤ × LogFile)} {batches : List (List (Event ℤ))}
        (hes : (order.map fun log => fileEvents parseFromStr log.2) = batches.map some) :
        ((order.map fun log => ownEvents parseFromStr id log.2).filterMap fun es => es) =
          batches.map (List.filter (Event.isOf id)) := by
      have hmap : (order.map fun log => ownEvents parseFromStr id log.2) =
          (order.map fun log => fileEvents parseFromStr log.2).map
            (Option.map (List.filter (Event.isOf id))) := by
        rw [List.map_map]
        rfl
      rw [hmap, hes, List.map_map, List.filterMap_map]
      simp [Function.comp_def, List.filterMap_eq_map']
    rw [← hown hes, ← hown hes']
    exact h.filterMap _
  · rintro dir entries entries' logs map hp hlogs hn ⟨found, order, hfound, hdrain, hmap⟩ map'
    obtain rfl := Option.some.inj (hlogs.symm.trans hfound)
    obtain ⟨logs', hlogs', hperm⟩ := compileLogs_perm hp hlogs
    have hsorted := drains_iff_sorted.mp hdrain
    constructor
    · rintro ⟨found, order', hfound', hdrain', hmap'⟩
      obtain rfl := Option.some.inj (hlogs'.symm.trans hfound')
      rw [Sorted.congr hsorted (drains_iff_sorted.mp hdrain') hperm hn, hmap] at hmap'
      exact (Option.some.inj hmap').symm
    · rintro rfl
      exact ⟨logs', order, hlogs', drains_iff_sorted.mpr ⟨hsorted.1.trans hperm, hsorted.2⟩, hmap⟩

section Visits

def morning : LogFile where
  name := ascii "ts3server_2021-05-01__09_00_00.000001_1.log"
  lines := [ascii "2021-05-01 10:00:00.000000|INFO    |VirtualServerBase|1  |client connected 'bob'(id:5)",
    ascii "2021-05-01 11:00:00.000000|INFO    |VirtualServerBase|1  |client disconnected 'bob'(id:5)"]

def evening : LogFile where
  name := ascii "ts3server_2021-05-01__18_00_00.000001_1.log"
  lines := [ascii "2021-05-01 19:00:00.000000|INFO    |VirtualServerBase|1  |client connected 'rob'(id:5)",
    ascii "2021-05-01 19:30:00.000000|INFO    |VirtualServerBase|1  |client disconnected 'rob'(id:5)"]

theorem table_unordered_visits :
    (∃ map map', parseFileList parseStamp [(0, morning), (1, evening)] noClients = some map ∧
      parseFileList parseStamp [(1, evening), (0, morning)] noClients = some map' ∧
      (map 5).map Client.totalTimeConnected = (map' 5).map Client.totalTimeConnected) ∧
    ∃ map, Compiles parseStamp (ascii "logs") [morning, evening] map ∧
      ∀ map', Compiles parseStamp (ascii "logs") [evening, morning] map' ↔ map' = map := by
  have hreads : ∀ file ∈ [morning, evening], Reads parseStamp file := by
    have hmorning : morning.lines.all fun line => (lineEvent parseStamp line).isSome := by
      decide +kernel
    have hevening : evening.lines.all fun line => (lineEvent parseStamp line).isSome := by
      decide +kernel
    intro file hm
    simp only [List.mem_cons, List.not_mem_nil, or_false] at hm
    rcases hm with rfl | rfl
    · exact List.all_eq_true.mp hmorning
    · exact List.all_eq_true.mp hevening
  have hlogs : ∃ t t' : ℤ, t < t' ∧ compileLogs parseStamp (ascii "logs") [morning, evening] =
      some [(t, morning), (t', evening)] := ⟨1619859600, 1619892000, by decide, by decide +kernel⟩
  obtain ⟨t, t', ht, hlogs⟩ := hlogs
  constructor
  · obtain ⟨map, map', hmap, hmap', htotal⟩ := (table_unordered parseStamp).1
      [(0, morning), (1, evening)] [(1, evening), (0, morning)] (by
        intro log hm
        apply hreads
        simp only [List.mem_append, List.mem_cons, List.not_mem_nil, or_false] at hm
        rcases hm with (rfl | rfl) | (rfl | rfl) <;> simp)
    exact ⟨map, map', hmap, hmap', htotal 5 (.swap _ _ _)⟩
  · obtain ⟨batches, hb, -⟩ := @parseFileList_reads parseStamp [(t, morning), (t', evening)] (by
      intro log hm
      apply hreads
      simp only [List.mem_cons, List.not_mem_nil, or_false] at hm
      rcases hm with rfl | rfl <;> simp)
    have hsorted : Sorted [(t, morning), (t', evening)] [(t, morning), (t', evening)] :=
      ⟨.refl _, by simpa using ht.le⟩
    have hc : Compiles parseStamp (ascii "logs") [morning, evening] (tableOf batches) :=
      ⟨_, _, hlogs, drains_iff_sorted.mpr hsorted, hb⟩
    exact ⟨_, hc, (table_unordered parseStamp).2 _ _ _ _ _ (.swap _ _ _) hlogs
      (by simpa using ht.ne) hc⟩

end Visits

end Rust

end TeamspeakWebserver.Ltc
