import TeamspeakWebserver.Webserver.Scanning
import TeamspeakWebserver.Webserver.ServerMessages

/-! A connection of `ListenToServerMessages` from its greeting to its end: the chat messages come back
in the order in which they were relayed. -/

namespace TeamspeakWebserver.Webserver

open Text

/-- `initServerConnection`: the banner is two lines, and each of its three commands is answered with
one. `none` is `log.Fatal`. -/
def initServerConnection : List Bytes → Option (List Bytes)
  | ts3 :: _ :: rest => if ts3 = ascii "TS3" then some (rest.drop 3) else none
  | _ => none

/-- The inner loop of `listenForMessages`, with what it sends on `ServerMsgChan`. -/
def scanMessages : List Bytes → Option (List Bytes)
  | [] => some []
  | l :: ls => do
    let serverMsg ← listenForMessages l
    let rest ← scanMessages ls
    return serverMsg.toList ++ rest

def listenToServerMessages (tokens : List Bytes) : Option (List Bytes) := do
  scanMessages (← initServerConnection tokens)

/-- The lines of the server: relayed chat messages and others, such as notices and errors. -/
inductive QueryLine where
  | chat (msg : Bytes) (k : ℕ+) (nickname : Bytes)
  | other (l : Bytes)

namespace QueryLine

def text : QueryLine → Bytes
  | chat msg k nickname => relayed msg k nickname
  | other l => l

def message : QueryLine → Option Bytes
  | chat msg _ _ => some msg
  | other _ => none

def Proper : QueryLine → Prop
  | chat msg _ nickname => Unmarked msg nickname
  | other l => ascii "invokerid=0" <:+: l ∨ ¬ ascii "msg=" <:+: l ∨ ¬ ascii "invokerid=" <:+: l

end QueryLine

def queryStream (lines : List Bytes) : Bytes := lines.flatMap fun l => l ++ ascii "\n\r"

section Stream

variable {lines : List Bytes}

lemma records_queryStream (h : ∀ l ∈ lines, ¬ ascii "\n\r" <:+: l) :
    records (ascii "\n\r") (queryStream lines) = lines := by
  rw [delimiter] at h ⊢
  induction lines with
  | nil => rfl
  | cons l lines ih =>
    obtain ⟨hl, hlines⟩ := List.forall_mem_cons.mp h
    rw [queryStream, delimiter, List.flatMap_cons, List.append_assoc, records_first (by decide) hl]
    rw [queryStream, delimiter] at ih
    rw [ih hlines]

lemma fits_queryStream (h : ∀ l ∈ lines, ¬ ascii "\n\r" <:+: l)
    (hlen : ∀ l ∈ lines, l.length + 2 ≤ maxTokenSize) :
    Fits (ascii "\n\r") maxTokenSize (queryStream lines) := by
  rw [delimiter] at h ⊢
  induction lines with
  | nil => exact (fits_of_absent (by decide)).mpr (by decide)
  | cons l lines ih =>
    obtain ⟨hl, hlines⟩ := List.forall_mem_cons.mp h
    obtain ⟨hle, hrest⟩ := List.forall_mem_cons.mp hlen
    rw [queryStream, delimiter, List.flatMap_cons, List.append_assoc, fits_first (by decide) hl]
    have hfits := ih hlines hrest
    rw [queryStream, delimiter] at hfits
    exact ⟨hle, hfits⟩

lemma tokens_queryStream (h : ∀ l ∈ lines, ¬ ascii "\n\r" <:+: l)
    (hlen : ∀ l ∈ lines, l.length + 2 ≤ maxTokenSize) {reads : List Bytes} {last : Bytes}
    (hstream : reads.flatten ++ last = queryStream lines) : ∃ n, ∀ k,
      (Scanner.new reads last).tokens scanLines maxTokenSize (n + k) = some lines := by
  have hfits := fits_queryStream h hlen
  rw [← hstream, delimiter] at hfits
  obtain ⟨n, hn⟩ := tokens_cutAt (by decide) [] hfits
  refine ⟨n, Scanner.tokens_mono ?_⟩
  rw [scanLines_eq, Scanner.new, hn, List.nil_append, hstream, ← delimiter, records_queryStream h]

lemma listenForMessages_other {l : Bytes} (h : (QueryLine.other l).Proper) :
    listenForMessages l = some none := by
  rw [listenForMessages]
  cases hcheck : find (ascii "invokerid=0") l with
  | some i => rfl
  | none =>
    have habsent : ¬ ascii "invokerid=0" <:+: l := fun hi => by
      rw [← find_isSome, hcheck] at hi
      cases hi
    rcases h with h | h | h
    · exact absurd h habsent
    · rw [find_of_absent h]
    · cases find (ascii "msg=") l with
      | none => rfl
      | some i =>
        rw [find_of_absent h]

lemma scanMessages_relayed (qs : List QueryLine) (h : ∀ q ∈ qs, q.Proper) :
    ∃ pushed, scanMessages (qs.map QueryLine.text) = some pushed ∧
      pushed.map words = (qs.filterMap QueryLine.message).map words := by
  induction qs with
  | nil => exact ⟨[], rfl, rfl⟩
  | cons q qs ih =>
    obtain ⟨hq, hqs⟩ := List.forall_mem_cons.mp h
    obtain ⟨pushed, hpushed, hwords⟩ := ih hqs
    cases q with
    | chat msg k nickname =>
      obtain ⟨s, hs, hsw⟩ : Kept msg k nickname := kept_of_unmarked hq
      refine ⟨s :: pushed, ?_, ?_⟩
      · simp only [List.map_cons, QueryLine.text, scanMessages, hs, hpushed, Option.bind_eq_bind,
          Option.bind_some, Option.toList_some, List.singleton_append]
        rfl
      · simp only [List.filterMap_cons, QueryLine.message, List.map_cons, hsw, hwords]
    | other l =>
      refine ⟨pushed, ?_, ?_⟩
      · simp only [List.map_cons, QueryLine.text, scanMessages, listenForMessages_other hq, hpushed,
          Option.bind_eq_bind, Option.bind_some, Option.toList_none, List.nil_append]
        rfl
      · simp only [List.filterMap_cons, QueryLine.message, hwords]

end Stream

theorem chat_comes_back {welcome login use register : Bytes} {qs : List QueryLine}
    (hproper : ∀ q ∈ qs, q.Proper)
    (hlines : ∀ l ∈ [welcome, login, use, register] ++ qs.map QueryLine.text, ¬ ascii "\n\r" <:+: l)
    (hlen : ∀ l ∈ [welcome, login, use, register] ++ qs.map QueryLine.text, l.length + 2 ≤ maxTokenSize)
    {reads : List Bytes} {last : Bytes} (hstream : reads.flatten ++ last =
      queryStream (ascii "TS3" :: [welcome, login, use, register] ++ qs.map QueryLine.text)) :
    ∃ pushed n, (∀ k, ((Scanner.new reads last).tokens scanLines maxTokenSize (n + k)).bind
        listenToServerMessages = some pushed) ∧
      pushed.map words = (qs.filterMap QueryLine.message).map words := by
  obtain ⟨n, hn⟩ := tokens_queryStream
    (List.forall_mem_cons.mpr ⟨by decide, hlines⟩) (List.forall_mem_cons.mpr ⟨by decide, hlen⟩) hstream
  obtain ⟨pushed, hpushed, hwords⟩ := scanMessages_relayed qs hproper
  refine ⟨pushed, n, fun k => ?_, hwords⟩
  rw [hn, Option.bind_some]
  exact hpushed

set_option maxRecDepth 4000 in
theorem chat_comes_back_twice : ∃ reads pushed n,
    ((Scanner.new reads []).tokens scanLines maxTokenSize n).bind listenToServerMessages = some pushed ∧
      pushed.map words = [[ascii "hello", ascii "world"], [ascii "bye"]] := by
  let qs : List QueryLine := [.chat (ascii "hello  world") 7 (ascii "bob"),
    .other (ascii "notifycliententerview reasonid=0"), .chat (ascii "bye") 8 (ascii "ann")]
  let s : Bytes := queryStream (ascii "TS3" ::
    [ascii "Welcome", ascii "error id=0 msg=ok", ascii "error id=0 msg=ok", ascii "error id=0 msg=ok"] ++
      qs.map QueryLine.text)
  have hproper : ∀ q ∈ qs, q.Proper := by
    refine List.forall_mem_cons.mpr ⟨?_, List.forall_mem_cons.mpr ⟨?_, List.forall_mem_singleton.mpr ?_⟩⟩
    all_goals
      simp only [QueryLine.Proper, Unmarked]
      decide
  have hstream : [s.take 100, s.drop 100].flatten ++ [] = s := by
    rw [List.append_nil, List.flatten_cons, List.flatten_cons, List.flatten_nil, List.append_nil,
      List.take_append_drop]
  obtain ⟨pushed, n, hpushed, hwords⟩ := chat_comes_back hproper (by decide) (by decide) hstream
  refine ⟨_, pushed, n, hpushed 0, hwords.trans ?_⟩
  decide

end TeamspeakWebserver.Webserver
