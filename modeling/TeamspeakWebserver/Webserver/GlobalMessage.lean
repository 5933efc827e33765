import TeamspeakWebserver.Text.Bytes
import TeamspeakWebserver.Text.Split

/-! From the chat message of a web client to the line on the ServerQuery connection
(`cmd/server.go`, `cmd/tsc/tsconn.go`). -/

namespace TeamspeakWebserver.Webserver

open Text

def lineFeed : UInt8 := 10
def carriageReturn : UInt8 := 13
def space : UInt8 := 32
def bar : UInt8 := 124

def addWord (s word : Bytes) : Bytes := if 0 < word.length then s ++ (word ++ ascii "\\s") else s

/-- `SendGlobalMsg`, up to the string it hands to `Exec`. -/
def sendGlobalMsg (msg : Bytes) : Bytes := (msg.splitOn space).foldl addWord (ascii "gm msg=")

structure ClientPackage where
  header : Bytes
  payload : Bytes

/-- One turn of the loop of `handleConnections`. `unmarshal` finds the field `message` in a payload,
and `none` is its error. -/
def handlePackage (unmarshal : Bytes → Option Bytes) (p : ClientPackage) : List Bytes :=
  if p.header = ascii "chatmessage" then
    match unmarshal p.payload with
    | none => []
    | some message => [sendGlobalMsg message]
  else []

def handleConnections (unmarshal : Bytes → Option Bytes) (ps : List ClientPackage) : List Bytes :=
  ps.flatMap (handlePackage unmarshal)

/-- One `gm` command with one argument. An escaped space is written `\\s` and an escaped bar `\\p`, so
that the bytes themselves are never escaped. -/
def SingleCommand (line : Bytes) : Prop :=
  lineFeed ∉ line ∧ carriageReturn ∉ line ∧
    ∃ arg, line = ascii "gm msg=" ++ arg ∧ space ∉ arg ∧ bar ∉ arg

def Plain (msg : Bytes) : Prop := lineFeed ∉ msg ∧ carriageReturn ∉ msg ∧ bar ∉ msg

def argument (msg : Bytes) : Bytes :=
  ((msg.splitOn space).filter fun word => 0 < word.length).flatMap fun word => word ++ ascii "\\s"

section Words

variable {msg : Bytes} {b : UInt8}

lemma foldl_addWord (words : List Bytes) (s : Bytes) : words.foldl addWord s =
    s ++ (words.filter fun word => 0 < word.length).flatMap fun word => word ++ ascii "\\s" := by
  induction words generalizing s with
  | nil => simp
  | cons word words ih =>
    rw [List.foldl_cons, ih, addWord]
    by_cases hw : 0 < word.length
    · rw [if_pos hw, List.filter_cons_of_pos (by simpa using hw), List.flatMap_cons,
        List.append_assoc]
    · rw [if_neg hw, List.filter_cons_of_neg (by simpa using hw)]

lemma sendGlobalMsg_eq (msg : Bytes) : sendGlobalMsg msg = ascii "gm msg=" ++ argument msg :=
  foldl_addWord (msg.splitOn space) (ascii "gm msg=")

lemma space_not_mem_argument (msg : Bytes) : space ∉ argument msg := by
  intro h
  obtain ⟨word, hw, hs⟩ := List.mem_flatMap.mp h
  have hword := (List.mem_filter.mp hw).1
  rcases List.mem_append.mp hs with hs | hs
  · exact not_mem_of_splitOn hword hs
  · exact absurd hs (by decide)

lemma mem_argument (hb : b ∉ ascii "\\s") (hs : b ≠ space) : b ∈ argument msg ↔ b ∈ msg := by
  constructor
  · intro h
    obtain ⟨word, hw, hm⟩ := List.mem_flatMap.mp h
    have hword := (List.mem_filter.mp hw).1
    rcases List.mem_append.mp hm with hm | hm
    · exact (mem_splitOn.mp ⟨word, hword, hm⟩).1
    · exact absurd hm hb
  · intro h
    obtain ⟨word, hw, hm⟩ := mem_splitOn.mpr ⟨h, hs⟩
    refine List.mem_flatMap.mpr ⟨word, List.mem_filter.mpr ⟨hw, ?_⟩, List.mem_append_left _ hm⟩
    have hl : 0 < word.length := List.length_pos_of_mem hm
    simpa using hl

lemma mem_sendGlobalMsg (hp : b ∉ ascii "gm msg=") (hb : b ∉ ascii "\\s") (hs : b ≠ space) :
    b ∈ sendGlobalMsg msg ↔ b ∈ msg := by
  rw [sendGlobalMsg_eq, List.mem_append, mem_argument hb hs]
  exact or_iff_right hp

end Words

lemma sendGlobalMsg_single (msg : Bytes) : SingleCommand (sendGlobalMsg msg) ↔ Plain msg := by
  have hlf : lineFeed ∈ sendGlobalMsg msg ↔ lineFeed ∈ msg :=
    mem_sendGlobalMsg (by decide) (by decide) (by decide)
  have hcr : carriageReturn ∈ sendGlobalMsg msg ↔ carriageReturn ∈ msg :=
    mem_sendGlobalMsg (by decide) (by decide) (by decide)
  have hbar : bar ∈ argument msg ↔ bar ∈ msg := mem_argument (by decide) (by decide)
  rw [SingleCommand, Plain, hlf, hcr]
  refine and_congr_right fun _ => and_congr_right fun _ => ?_
  constructor
  · rintro ⟨arg, he, -, hn⟩ hm
    rw [sendGlobalMsg_eq] at he
    obtain rfl := List.append_cancel_left he
    exact hn (hbar.mpr hm)
  · intro hn
    exact ⟨_, sendGlobalMsg_eq msg, space_not_mem_argument msg, fun hm => hn (hbar.mp hm)⟩

theorem single_iff_plain (msg : Bytes) (unmarshal : Bytes → Option Bytes) (ps : List ClientPackage) :
    (SingleCommand (sendGlobalMsg msg) ↔ Plain msg) ∧
    ((∀ line ∈ handleConnections unmarshal ps, SingleCommand line) ↔
      ∀ p ∈ ps, p.header = ascii "chatmessage" → ∀ m ∈ unmarshal p.payload, Plain m) := by
  refine ⟨sendGlobalMsg_single msg, ?_⟩
  simp only [handleConnections, List.mem_flatMap]
  constructor
  · intro h p hp hh msg hm
    refine (sendGlobalMsg_single msg).mp (h _ ⟨p, hp, ?_⟩)
    rw [handlePackage, if_pos hh, Option.mem_def.mp hm]
    exact List.mem_singleton_self _
  · rintro h line ⟨p, hp, hl⟩
    rw [handlePackage] at hl
    split at hl
    case isTrue hh =>
      cases hm : unmarshal p.payload with
      | none =>
        rw [hm] at hl
        cases hl
      | some msg =>
        rw [hm] at hl
        obtain rfl := List.mem_singleton.mp hl
        exact (sendGlobalMsg_single msg).mpr (h p hp hh msg hm)
    case isFalse => cases hl

theorem command_injected : ¬ ∀ msg, SingleCommand (sendGlobalMsg msg) := by
  intro h
  have hline : sendGlobalMsg (ascii "hi\nserverstop sid=1") =
      ascii "gm msg=hi\nserverstop\\ssid=1\\s" := by decide
  have hn := (h (ascii "hi\nserverstop sid=1")).1
  rw [hline] at hn
  exact hn (by decide)

end TeamspeakWebserver.Webserver
