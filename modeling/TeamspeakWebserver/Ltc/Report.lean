import TeamspeakWebserver.Ltc.Reordering
import TeamspeakWebserver.Text.Split

/-! From the bytes of the log files to the report `main.rs` prints. -/

namespace TeamspeakWebserver.Ltc

open Batches Text

/-- In an `i64` the additions wrap. -/
def Client.seconds (client : Client ℤ) : Int64 := Int64.ofInt client.totalTimeConnected

namespace Rust

def stripReturn (line : Bytes) : Bytes := if line.getLast? = some 13 then line.dropLast else line

/-- `BufReader::lines`. A last line without a line feed keeps its carriage return. -/
def lines (content : Bytes) : List Bytes :=
  let pieces := content.splitOn 10
  pieces.dropLast.map stripReturn ++ (pieces.getLast?.filter (· ≠ [])).toList

def openFile (file : Bytes × Bytes) : LogFile := { name := file.1, lines := lines file.2 }

/-- `map.into_iter()`, whose order is arbitrary. -/
def Enumerates (map : ClientMap ℤ) (clients : List (Client ℤ)) : Prop :=
  ∃ ids : List UInt32, ids.Nodup ∧ (∀ id, id ∈ ids ↔ (map id).isSome) ∧ ids.filterMap map = clients

def showInt (n : ℤ) : Bytes := if n < 0 then 45 :: decimal n.natAbs else decimal n.natAbs

def clientLine (c : Client ℤ) : Bytes := showInt c.seconds.toInt ++ 9 :: c.name

def sortClients (clients : List (Client ℤ)) : List (Client ℤ) :=
  clients.mergeSort fun a b => b.seconds ≤ a.seconds

def sortAndPrintClientTimes (clients : List (Client ℤ)) : Bytes :=
  (sortClients clients).flatMap fun c => clientLine c ++ [10]

/-! ### The names in the table -/

def Named (P : Bytes → Prop) (map : ClientMap ℤ) : Prop := ∀ id, ∀ c ∈ map id, P c.name

section Names

variable {P : Bytes → Prop} {map : ClientMap ℤ} {parseFromStr : Bytes → Bytes → Option ℤ}

lemma Named.insert (h : Named P map) {id : UInt32} {c : Client ℤ} (hc : P c.name) :
    Named P (map.insert id c) := by
  intro i c' hm
  by_cases hi : i = id
  · subst hi
    rw [insert_self, Option.mem_some] at hm
    exact hm ▸ hc
  · rw [insert_of_ne (Ne.symm hi)] at hm
    exact h i c' hm

lemma Named.clear (h : Named P map) : Named P (clearClients map) := by
  intro id c hm
  obtain ⟨c', hc', rfl⟩ := Option.mem_map.mp hm
  exact h id c' hc'

lemma Named.connect (h : Named P map) {name : Bytes} (hn : P name) (id : UInt32) (time : ℤ) :
    Named P (logConnect map id name time) := by
  rw [logConnect]
  split
  · exact h
  · have hold : P ((map id).getD
        { numConn := 0, lastTimeConnected := 0, totalTimeConnected := 0, name }).name := by
      cases hc : map id with
      | none => exact hn
      | some c => exact h id c hc
    dsimp only
    split
    · apply h.insert
      split
      · exact hn
      · exact hold
    · exact h.insert hold

lemma Named.disconnect (h : Named P map) (id : UInt32) (time : ℤ) :
    Named P (logDisconnect map id time) := by
  rw [logDisconnect]
  split
  · exact h
  · cases hc : map id with
    | none => exact h
    | some c =>
      dsimp only
      split
      · apply h.insert
        split
        · exact h id c hc
        · exact h id c hc
      · exact h

lemma Named.logAction (h : Named P map) (time : ℤ) {found : Option (ClientAction × Bytes × UInt32)}
    (hn : ∀ a ∈ found, P a.2.1) : Named P (logAction map time found) := by
  cases found with
  | none => exact h
  | some a =>
    obtain ⟨action, name, id⟩ := a
    cases action with
    | connect => exact h.connect (hn _ rfl) id time
    | disconnect => exact h.disconnect id time

lemma name_subset {line : Bytes} {found : Option (ClientAction × Bytes × UInt32)}
    (h : parseLine line = some found) : ∀ a ∈ found, a.2.1 ⊆ line := by
  have hread (action : ClientAction) (h : readClient line action = some found) :
      ∀ a ∈ found, a.2.1 ⊆ line := by
    obtain ⟨name, hname, h⟩ := Option.bind_eq_some_iff.mp h
    obtain ⟨idx, -, rfl⟩ := Option.map_eq_some_iff.mp h
    intro a ha
    obtain rfl := Option.some.inj ha
    obtain ⟨start, -, hname⟩ := Option.bind_eq_some_iff.mp hname
    obtain ⟨stop, -, hname⟩ := Option.bind_eq_some_iff.mp hname
    exact slice_subset hname
  rw [parseLine] at h
  split at h
  · exact hread _ h
  · split at h
    · exact hread _ h
    · obtain rfl := Option.some.inj h
      intro a ha
      cases ha

lemma foldlM_keeps {α β : Type} {Q : β → Prop} {f : β → α → Option β} {as : List α}
    (hf : ∀ a ∈ as, ∀ b b', Q b → f b a = some b' → Q b') {b b' : β} (hb : Q b)
    (h : as.foldlM f b = some b') : Q b' := by
  induction as generalizing b with
  | nil =>
    obtain rfl := Option.some.inj h
    exact hb
  | cons a as ih =>
    rw [List.foldlM_cons] at h
    obtain ⟨b₁, hb₁, h⟩ := Option.bind_eq_some_iff.mp h
    exact ih (fun a' ha => hf a' (List.mem_cons_of_mem a ha))
      (hf a List.mem_cons_self b b₁ hb hb₁) h

lemma Named.processLine (h : Named P map) {line : Bytes} (hP : ∀ name ⊆ line, P name)
    {map' : ClientMap ℤ} (hm : processLine parseFromStr map line = some map') : Named P map' := by
  obtain ⟨head, -, hm⟩ := Option.bind_eq_some_iff.mp hm
  cases ht : parseFromStr head lineFormat with
  | none =>
    rw [ht] at hm
    exact Option.some.inj hm ▸ h
  | some time =>
    rw [ht] at hm
    obtain ⟨found, hfound, rfl⟩ := Option.map_eq_some_iff.mp hm
    exact h.logAction time fun a ha => hP _ (name_subset hfound a ha)

lemma Named.parseFileList {order : List (ℤ × LogFile)} (h : Named P map)
    (hP : ∀ log ∈ order, ∀ line ∈ log.2.lines, ∀ name ⊆ line, P name) {map' : ClientMap ℤ}
    (hm : parseFileList parseFromStr order map = some map') : Named P map' := by
  refine foldlM_keeps (fun log hlog db db' hdb hdb' => ?_) h hm
  obtain ⟨db₁, hdb₁, rfl⟩ := Option.map_eq_some_iff.mp hdb'
  refine (foldlM_keeps (fun line hline db db' hdb hdb' => ?_) hdb hdb₁).clear
  exact hdb.processLine (hP log hlog line hline) hdb'

end Names

lemma lineFeed_not_mem {content line : Bytes} (h : line ∈ lines content) : 10 ∉ line := by
  rcases List.mem_append.mp h with h | h
  · obtain ⟨piece, hp, rfl⟩ := List.mem_map.mp h
    have hn := not_mem_of_splitOn (List.dropLast_subset _ hp)
    rw [stripReturn]
    split
    · exact fun hm => hn (List.dropLast_subset _ hm)
    · exact hn
  · obtain ⟨hl, -⟩ := Option.filter_eq_some_iff.mp (Option.mem_toList.mp h)
    exact not_mem_of_splitOn (List.mem_of_getLast? hl)

lemma names_of_compiles {parseFromStr : Bytes → Bytes → Option ℤ} {dir : Bytes}
    {files : List (Bytes × Bytes)} {map : ClientMap ℤ}
    (h : Compiles parseFromStr dir (files.map openFile) map) : Named (10 ∉ ·) map := by
  obtain ⟨logs, order, hlogs, hdrain, hmap⟩ := h
  have hempty : Named (10 ∉ ·) noClients := nofun
  refine hempty.parseFileList (fun log hlog line hline name hname hm => ?_) hmap
  have hread : some log ∈ logs.map some := List.mem_map_of_mem (hdrain.perm.subset hlog)
  rw [← mapM_eq_some.mp hlogs] at hread
  obtain ⟨file, hfile, hcreated⟩ := List.mem_map.mp hread
  obtain ⟨time, -, rfl⟩ := Option.map_eq_some_iff.mp hcreated
  obtain ⟨raw, -, rfl⟩ := List.mem_map.mp (List.mem_of_mem_filter hfile)
  exact lineFeed_not_mem hline (hname hm)

lemma Enumerates.named {P : Bytes → Prop} {map : ClientMap ℤ} {clients : List (Client ℤ)}
    (h : Enumerates map clients) (hn : Named P map) : ∀ c ∈ clients, P c.name := by
  obtain ⟨ids, -, -, rfl⟩ := h
  intro c hc
  obtain ⟨id, -, hid⟩ := List.mem_filterMap.mp hc
  exact hn id c hid

end Rust

end TeamspeakWebserver.Ltc
