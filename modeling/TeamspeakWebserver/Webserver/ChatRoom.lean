import Mathlib.Data.List.DropRight
import TeamspeakWebserver.Webserver.FrontPage
import TeamspeakWebserver.Webserver.Relay

/-! The chat of the front page: from the text field of one page, over the TeamSpeak server, to the chat
logs of all pages. -/

namespace TeamspeakWebserver.Webserver

open Labelled Text

section Script

/-! ### `sendChatMessage` -/

/-- The code units that `trim` takes off. -/
def blanks : List ℕ :=
  [9, 10, 11, 12, 13, 32, 0xa0, 0x1680, 0x2000, 0x2001, 0x2002, 0x2003, 0x2004, 0x2005, 0x2006, 0x2007,
    0x2008, 0x2009, 0x200a, 0x2028, 0x2029, 0x202f, 0x205f, 0x3000, 0xfeff]

def trim (s : JsString) : JsString :=
  (s.dropWhile fun c => blanks.contains c.val).rdropWhile fun c => blanks.contains c.val

def isDecimal (c : ℕ) : Bool := 48 ≤ c && c ≤ 57

def digitsValue (ds : List ℕ) : ℕ := ds.foldl (fun n d => 10 * n + (d - 48)) 0

def exponent : List ℕ → Option ℤ
  | [] => some 0
  | c :: s =>
    if c = 101 ∨ c = 69 then
      match s with
      | 45 :: ds => if ds ≠ [] ∧ ds.all isDecimal then some (-digitsValue ds) else none
      | 43 :: ds => if ds ≠ [] ∧ ds.all isDecimal then some (digitsValue ds) else none
      | ds => if ds ≠ [] ∧ ds.all isDecimal then some (digitsValue ds) else none
    else none

def unsignedDecimal (s : List ℕ) : Option (ℕ × ℤ) :=
  let whole := s.takeWhile isDecimal
  match s.dropWhile isDecimal with
  | 46 :: rest =>
    let fraction := rest.takeWhile isDecimal
    if whole = [] ∧ fraction = [] then none
    else (exponent (rest.dropWhile isDecimal)).map fun e => (digitsValue (whole ++ fraction), e - fraction.length)
  | rest => if whole = [] then none else (exponent rest).map fun e => (digitsValue whole, e)

/-- A number up to half of the least positive double is rounded to zero. -/
def roundsToZero (x : ℕ × ℤ) : Bool := decide (x.1 * 10 ^ x.2.toNat * 2 ^ 1075 ≤ 10 ^ (-x.2).toNat)

/-- The test `text <= 0` on the code units of a text that has been trimmed: it is read as a number, and
one that is none is not at most 0. -/
def atMostZero : List ℕ → Bool
  | [] => true
  | 45 :: s => s == (units "Infinity").map Fin.val || (unsignedDecimal s).isSome
  | 43 :: s => (unsignedDecimal s).any roundsToZero
  | 48 :: c :: s =>
    if c ∈ (units "xXoObB").map Fin.val then decide (s ≠ []) && s.all (· = 48)
    else (unsignedDecimal (48 :: c :: s)).any roundsToZero
  | s => (unsignedDecimal s).any roundsToZero

def chatText (value : JsString) : Option JsString :=
  let text := trim value
  if atMostZero (text.map Fin.val) then none else some text

def FrontPage.sendChatMessage (page : FrontPage) (value : JsString) : FrontPage × Option JsString :=
  match chatText value with
  | none => (page, none)
  | some text => ({ page with chatLog := page.chatLog ++ [text ++ units "\n"] }, some text)

lemma sendChatMessage_eq (page : FrontPage) (value : JsString) : page.sendChatMessage value =
    ({ page with chatLog := page.chatLog ++ (chatText value).toList.map (· ++ units "\n") }, chatText value) := by
  rw [FrontPage.sendChatMessage]
  cases chatText value with
  | none => simp
  | some t => rfl

example : ["hello ", "12 apples", "12", "-3", " 0", "1e-400"].map (fun s => (chatText (units s)).isSome) =
    [true, true, true, false, false, false] := by
  decide +kernel

end Script

/-- What becomes of a string on its way: `payload` is what `ReadJSON` gets of a text that
`sendChatMessage` sends, `message` what it is in Go, and `text` what `json.Marshal` and `JSON.parse` make
of a string of Go. -/
structure Transport where
  payload : JsString → Bytes
  unmarshal : Bytes → Option Bytes
  message : JsString → Bytes
  unmarshal_payload : ∀ t, unmarshal (payload t) = some (message t)
  text : Bytes → JsString

inductive PageEvent where
  | typed (t : JsString)
  | told (m : ServerEvent)

def PageEvent.own : PageEvent → Option JsString
  | .typed t => some t
  | .told _ => none

def PageEvent.event : PageEvent → Option ServerEvent
  | .typed _ => none
  | .told m => some m

def PageEvent.line (text : Bytes → JsString) : PageEvent → Option JsString
  | .typed t => some (t ++ units "\n")
  | .told m => m.chat.map fun msg => text msg ++ units "\n"

/-- The server, the pages and what is on its way between them: texts that a handler has not read, lines
that the listener has not read, and the message with which the listener waits at `ServerMsgChan`. Of the
messages written to its websocket, a page has looked at `shown`. The other fields are what has been
done so far: what was in the text field, what has been read, what has been said and by whom, whose
messages have not all been relayed, how much had been said when a page came, and what has happened
on it. -/
structure ChatRoom (ι : Type) where
  feed : Feed ι ServerEvent
  pages : ι → FrontPage
  shown : ι → ℕ
  outbox : ι → List JsString
  lines : List QueryLine
  held : Option Bytes
  entered : ι → List JsString
  heard : ι → List JsString
  spoken : List (Option ι × Bytes)
  refused : Finset ι
  joined : ι → ℕ
  seen : ι → List PageEvent

inductive ChatStep (ι : Type) where
  | connect (i : ι) (visited : Bool)
  | enter (i : ι) (value : JsString)
  | hear (i : ι) (relay : Option (ℕ+ × Bytes))
  | serve (q : QueryLine)
  | listen
  | take (m : ServerEvent)
  | write (i : ι) (fails : Bool)
  | finish
  | leave (i : ι)
  | look (i : ι)

def ServerEvent.chan : ServerEvent → MessageChan
  | .broadcast => .broadcast
  | .clientList _ => .clientList
  | .serverMsg _ => .serverMsg

instance (msg : Bytes) : Decidable (Plain msg) :=
  inferInstanceAs (Decidable (lineFeed ∉ msg ∧ carriageReturn ∉ msg ∧ bar ∉ msg))

instance (msg nickname : Bytes) : Decidable (Unmarked msg nickname) :=
  inferInstanceAs (Decidable ((∀ word ∈ words msg, ¬ ascii "\\s" <:+: word ∧ ¬ ascii "invokerid=" <:+: word) ∧
    ¬ ascii "invokerid=0" <:+: nickname))

instance : (q : QueryLine) → Decidable q.Proper
  | .chat msg _ nickname => inferInstanceAs (Decidable (Unmarked msg nickname))
  | .other l => inferInstanceAs (Decidable (ascii "invokerid=0" <:+: l ∨ ¬ ascii "msg=" <:+: l ∨
      ¬ ascii "invokerid=" <:+: l))

namespace ChatRoom

variable {ι : Type} [DecidableEq ι]

def start : ChatRoom ι where
  feed := .start
  pages _ := .load
  shown _ := 0
  outbox _ := []
  lines := []
  held := none
  entered _ := []
  heard _ := []
  spoken := []
  refused := ∅
  joined _ := 0
  seen _ := []

def enter (c : ChatRoom ι) (i : ι) (value : JsString) : ChatRoom ι :=
  let (page, text) := (c.pages i).sendChatMessage value
  { c with
    pages := Function.update c.pages i page
    outbox := Function.update c.outbox i (c.outbox i ++ text.toList)
    entered := Function.update c.entered i (c.entered i ++ [value])
    seen := Function.update c.seen i (c.seen i ++ text.toList.map .typed) }

/-- The server relays the message that `SendGlobalMsg` has encoded, or the command fails. -/
def relay (w : Transport) (c : ChatRoom ι) (i : ι) (t : JsString) : Option (ℕ+ × Bytes) → ChatRoom ι
  | none => { c with refused := insert i c.refused }
  | some (k, nickname) => { c with
      lines := c.lines ++ [.chat (w.message t) k nickname]
      spoken := c.spoken ++ [(some i, w.message t)] }

def serve (c : ChatRoom ι) (q : QueryLine) : ChatRoom ι :=
  { c with
    lines := c.lines ++ [q]
    spoken := c.spoken ++ q.message.toList.map fun msg => (none, msg) }

def look (browser : Sorting) (w : Transport) (c : ChatRoom ι) (i : ι) (m : ServerEvent) : ChatRoom ι :=
  { c with
    pages := Function.update c.pages i ((c.pages i).onmessage browser (m.parsed w.text))
    shown := Function.update c.shown i (c.shown i + 1)
    seen := Function.update c.seen i (c.seen i ++ [.told m]) }

/-- Where `tsconn` is `nil` nothing is relayed, and a message with a bar is more than one command. -/
def mayRelay (tsconn : Bool) (msg : Bytes) (relay : Option (ℕ+ × Bytes)) : Bool :=
  relay.isNone || (tsconn && decide (Plain msg))

def package (w : Transport) (t : JsString) : ClientPackage := ⟨ascii "chatmessage", w.payload t⟩

def step (browser : Sorting) (w : Transport) (tsconn : Bool) (c : ChatRoom ι) : ChatStep ι → Option (ChatRoom ι)
  | .connect i visited => (c.feed.step tsconn w.unmarshal (.connect i visited, .broadcast)).map fun feed =>
      { c with feed, joined := Function.update c.joined i c.spoken.length }
  | .enter i value => if c.feed.registry.handlers i = .absent then none else some (c.enter i value)
  | .hear i r => match c.outbox i with
    | [] => none
    | t :: rest => if mayRelay tsconn (w.message t) r then
          (c.feed.step tsconn w.unmarshal (.read i (some (package w t)), .broadcast)).map fun feed =>
            relay w { c with
              feed
              outbox := Function.update c.outbox i rest
              heard := Function.update c.heard i (c.heard i ++ [t]) } i t r
        else none
  | .serve q => some (c.serve q)
  | .listen => match c.held, c.lines with
    | none, q :: rest => (listenForMessages q.text).map fun held => { c with lines := rest, held }
    | _, _ => none
  | .take m => if m.chat = none ∨ m.chat = c.held then
        (c.feed.step tsconn w.unmarshal (.begin m.chan, m)).map fun feed =>
          { c with feed, held := if m.chat = none then c.held else none }
      else none
  | .write i fails => (c.feed.step tsconn w.unmarshal (.write i fails, .broadcast)).map fun feed => { c with feed }
  | .finish => (c.feed.step tsconn w.unmarshal (.finish, .broadcast)).map fun feed => { c with feed }
  | .leave i => (c.feed.step tsconn w.unmarshal (.read i none, .broadcast)).map fun feed => { c with feed }
  | .look i => (c.feed.got i)[c.shown i]?.map (look browser w c i)

def proper (w : Transport) (c : ChatRoom ι) : ChatStep ι → Bool
  | .serve q => decide q.Proper
  | .hear i (some (_, nickname)) => (c.outbox i).head?.all fun t => decide (Unmarked (w.message t) nickname)
  | _ => true

def saidBy (c : ChatRoom ι) (i : ι) : List Bytes := (c.spoken.filter (·.1 = some i)).map Prod.snd

def underWay (c : ChatRoom ι) : List Bytes := c.held.toList ++ c.lines.filterMap QueryLine.message

structure PageLaw (w : Transport) (c : ChatRoom ι) (i : ι) : Prop where
  own : (c.seen i).filterMap PageEvent.own = (c.entered i).filterMap chatText
  told : (c.seen i).filterMap PageEvent.event = (c.feed.got i).take (c.shown i)
  shown : c.shown i ≤ (c.feed.got i).length
  log : (c.pages i).chatLog = (c.seen i).filterMap (PageEvent.line w.text)

structure Inv (w : Transport) (c : ChatRoom ι) : Prop where
  feed : c.feed.Inv
  page : ∀ i, PageLaw w c i
  typed : ∀ i, (c.entered i).filterMap chatText = c.heard i ++ c.outbox i
  said : ∀ i, (c.saidBy i).Sublist ((c.heard i).map w.message)
  whole : ∀ i ∉ c.refused, c.saidBy i = (c.heard i).map w.message
  relayed : (c.spoken.map Prod.snd).map words =
    (c.feed.sent.filterMap ServerEvent.chat ++ c.underWay).map words
  proper : ∀ q ∈ c.lines, q.Proper
  joined : ∀ i, ((c.feed.sent.take (c.feed.first i)).filterMap ServerEvent.chat).length ≤ c.joined i

structure Quiet (f f' : Feed ι ServerEvent) : Prop where
  sent : f'.sent = f.sent
  first : f'.first = f.first
  got : ∀ i, f.got i <+: f'.got i

section Server

variable {f f' : Feed ι ServerEvent} {tsconn : Bool} {unmarshal : Bytes → Option Bytes} {i : ι} {m : ServerEvent}

lemma quiet_write {fails : Bool} (h : f.step tsconn unmarshal (.write i fails, m) = some f') : Quiet f f' := by
  obtain ⟨r, -, rfl⟩ := Option.map_eq_some_iff.mp h
  change Quiet f (f.write r i fails)
  cases fails with
  | true => exact ⟨rfl, rfl, fun _ => List.prefix_rfl⟩
  | false =>
    refine ⟨rfl, rfl, fun j => ?_⟩
    change f.got j <+: Function.update f.got i (f.got i ++ f.sent.getLast?.toList) j
    by_cases hj : j = i
    · subst hj
      rw [Function.update_self]
      exact List.prefix_append _ _
    · rw [Function.update_of_ne hj]

lemma quiet_finish (h : f.step tsconn unmarshal (.finish, m) = some f') : Quiet f f' := by
  obtain ⟨r, -, rfl⟩ := Option.map_eq_some_iff.mp h
  exact ⟨rfl, rfl, fun _ => List.prefix_rfl⟩

lemma quiet_read {p : Option ClientPackage} (h : f.step tsconn unmarshal (.read i p, m) = some f') :
    Quiet f f' := by
  obtain ⟨r, -, rfl⟩ := Option.map_eq_some_iff.mp h
  exact ⟨rfl, rfl, fun _ => List.prefix_rfl⟩

lemma begin_fields {chan : MessageChan} (h : f.step tsconn unmarshal (.begin chan, m) = some f') :
    f'.sent = f.sent ++ [m] ∧ f'.first = f.first ∧ f'.got = f.got := by
  obtain ⟨r, -, rfl⟩ := Option.map_eq_some_iff.mp h
  exact ⟨rfl, rfl, rfl⟩

lemma connect_fields {visited : Bool} (h : f.step tsconn unmarshal (.connect i visited, m) = some f') :
    f'.sent = f.sent ∧ (∀ j ≠ i, f'.first j = f.first j) ∧ f'.got = f.got := by
  obtain ⟨r, -, rfl⟩ := Option.map_eq_some_iff.mp h
  exact ⟨rfl, fun j hj => Function.update_of_ne hj _ _, rfl⟩

end Server

section Step

variable {w : Transport} {c : ChatRoom ι} {f : Feed ι ServerEvent} {i : ι}

omit [DecidableEq ι] in
lemma PageLaw.congr {c' : ChatRoom ι} (h : PageLaw w c i) (hseen : c'.seen i = c.seen i)
    (hentered : c'.entered i = c.entered i) (hshown : c'.shown i = c.shown i)
    (hpage : c'.pages i = c.pages i) (hgot : c.feed.got i <+: c'.feed.got i) : PageLaw w c' i := by
  obtain ⟨more, hmore⟩ := hgot
  refine ⟨?_, ?_, ?_, ?_⟩
  · rw [hseen, hentered, h.own]
  · rw [hseen, hshown, h.told, ← hmore, List.take_append_of_le_length h.shown]
  · rw [hshown, ← hmore, List.length_append]
    exact h.shown.trans (Nat.le_add_right _ _)
  · rw [hpage, hseen, h.log]

lemma Inv.quiet (h : Inv w c) (hf : f.Inv) (hq : Quiet c.feed f) : Inv w { c with feed := f } where
  feed := hf
  page i := (h.page i).congr rfl rfl rfl rfl (hq.got i)
  typed := h.typed
  said := h.said
  whole := h.whole
  relayed := by
    rw [hq.sent]
    exact h.relayed
  proper := h.proper
  joined i := by
    rw [hq.sent, hq.first]
    exact h.joined i

lemma Inv.connect (h : Inv w c) (hf : f.Inv) (hsent : f.sent = c.feed.sent)
    (hfirst : ∀ j ≠ i, f.first j = c.feed.first j) (hgot : f.got = c.feed.got) :
    Inv w { c with feed := f, joined := Function.update c.joined i c.spoken.length } where
  feed := hf
  page j := (h.page j).congr rfl rfl rfl rfl (by rw [hgot])
  typed := h.typed
  said := h.said
  whole := h.whole
  relayed := by
    rw [hsent]
    exact h.relayed
  proper := h.proper
  joined j := by
    change ((f.sent.take (f.first j)).filterMap ServerEvent.chat).length ≤
      Function.update c.joined i c.spoken.length j
    by_cases hj : j = i
    · subst hj
      -- no more has been taken off the channels than has been said
      have hlen := congrArg List.length h.relayed
      simp only [List.length_map, List.length_append] at hlen
      have hsub := ((List.take_sublist (f.first j) c.feed.sent).filterMap ServerEvent.chat).length_le
      rw [Function.update_self, hsent]
      omega
    · rw [Function.update_of_ne hj, hfirst j hj, hsent]
      exact h.joined j

lemma filterMap_typed (o : Option JsString) :
    (o.toList.map PageEvent.typed).filterMap PageEvent.own = o.toList ∧
      (o.toList.map PageEvent.typed).filterMap PageEvent.event = [] ∧
      (o.toList.map PageEvent.typed).filterMap (PageEvent.line w.text) = o.toList.map (· ++ units "\n") := by
  cases o with
  | none => exact ⟨rfl, rfl, rfl⟩
  | some t => exact ⟨rfl, rfl, rfl⟩

lemma Inv.enter (h : Inv w c) (i : ι) (value : JsString) : Inv w (c.enter i value) := by
  rw [ChatRoom.enter, sendChatMessage_eq]
  have hvalue : [value].filterMap chatText = (chatText value).toList := by
    cases hv : chatText value <;> simp [hv]
  obtain ⟨hown, hevent, hline⟩ := filterMap_typed (w := w) (chatText value)
  refine ⟨h.feed, fun j => ?_, fun j => ?_, h.said, h.whole, h.relayed, h.proper, h.joined⟩
  · by_cases hj : j = i
    · subst hj
      have hpage := h.page j
      refine ⟨?_, ?_, hpage.shown, ?_⟩
      · simp only [Function.update_self, List.filterMap_append, hpage.own, hown, hvalue]
      · simp only [Function.update_self, List.filterMap_append, hpage.told, hevent, List.append_nil]
      · simp only [Function.update_self, List.filterMap_append, hpage.log, hline]
    · refine (h.page j).congr ?_ ?_ rfl ?_ List.prefix_rfl
      · exact Function.update_of_ne hj _ _
      · exact Function.update_of_ne hj _ _
      · exact Function.update_of_ne hj _ _
  · by_cases hj : j = i
    · subst hj
      simp only [Function.update_self, List.filterMap_append, h.typed, hvalue, List.append_assoc]
    · simp only [Function.update_of_ne hj, h.typed]

lemma Inv.look (browser : Sorting) (h : Inv w c) {m : ServerEvent} (hm : (c.feed.got i)[c.shown i]? = some m) :
    Inv w (look browser w c i m) := by
  refine ⟨h.feed, fun j => ?_, h.typed, h.said, h.whole, h.relayed, h.proper, h.joined⟩
  by_cases hj : j = i
  · subst hj
    have hpage := h.page j
    obtain ⟨hlt, -⟩ := List.getElem?_eq_some_iff.mp hm
    refine ⟨?_, ?_, ?_, ?_⟩
    · simp [ChatRoom.look, List.filterMap_append, hpage.own, PageEvent.own]
    · simp only [ChatRoom.look, Function.update_self, List.filterMap_append, hpage.told]
      rw [List.take_add_one, hm]
      rfl
    · simp only [ChatRoom.look, Function.update_self]
      exact hlt
    · simp only [ChatRoom.look, Function.update_self, List.filterMap_append, ← hpage.log]
      cases m with
      | broadcast => exact (List.append_nil _).symm
      | clientList p => exact (List.append_nil _).symm
      | serverMsg msg => rfl
  · refine (h.page j).congr ?_ rfl ?_ ?_ List.prefix_rfl
    · exact Function.update_of_ne hj _ _
    · exact Function.update_of_ne hj _ _
    · exact Function.update_of_ne hj _ _

lemma saidBy_append (c : ChatRoom ι) (more : List (Option ι × Bytes)) (j : ι) :
    saidBy { c with spoken := c.spoken ++ more } j =
      c.saidBy j ++ (more.filter (·.1 = some j)).map Prod.snd := by
  rw [saidBy, List.filter_append, List.map_append]
  rfl

lemma Inv.serve (h : Inv w c) {q : QueryLine} (hq : q.Proper) : Inv w (c.serve q) := by
  have hsaid (j : ι) : (c.serve q).saidBy j = c.saidBy j := by
    refine (saidBy_append c _ j).trans ?_
    cases q.message with
    | none => exact List.append_nil _
    | some msg => exact List.append_nil _
  refine ⟨h.feed, fun j => (h.page j).congr rfl rfl rfl rfl List.prefix_rfl, h.typed, fun j => ?_,
    fun j hj => ?_, ?_, ?_, h.joined⟩
  · rw [hsaid]
    exact h.said j
  · rw [hsaid]
    exact h.whole j hj
  · have hmessage : [q].filterMap QueryLine.message = q.message.toList := by
      cases q <;> rfl
    simp only [ChatRoom.serve, underWay, List.map_append, List.filterMap_append, hmessage, h.relayed]
    simp [List.append_assoc, Function.comp_def]
  · exact List.forall_mem_append.mpr ⟨h.proper, List.forall_mem_singleton.mpr hq⟩

lemma typed_hear (h : Inv w c) {t : JsString} {rest : List JsString} (ho : c.outbox i = t :: rest) (j : ι) :
    (c.entered j).filterMap chatText =
      Function.update c.heard i (c.heard i ++ [t]) j ++ Function.update c.outbox i rest j := by
  by_cases hj : j = i
  · subst hj
    rw [Function.update_self, Function.update_self, h.typed, ho, ← List.append_cons]
  · rw [Function.update_of_ne hj, Function.update_of_ne hj, h.typed]

lemma Inv.refuse (h : Inv w c) {t : JsString} {rest : List JsString} (ho : c.outbox i = t :: rest) :
    Inv w (relay w { c with
      outbox := Function.update c.outbox i rest
      heard := Function.update c.heard i (c.heard i ++ [t]) } i t none) := by
  refine ⟨h.feed, fun j => (h.page j).congr rfl rfl rfl rfl List.prefix_rfl, typed_hear h ho, fun j => ?_,
    fun j hj => ?_, h.relayed, h.proper, h.joined⟩
  · change (c.saidBy j).Sublist ((Function.update c.heard i (c.heard i ++ [t]) j).map w.message)
    by_cases hj : j = i
    · subst hj
      rw [Function.update_self, List.map_append]
      exact (h.said j).trans (List.sublist_append_left _ _)
    · rw [Function.update_of_ne hj]
      exact h.said j
  · change c.saidBy j = (Function.update c.heard i (c.heard i ++ [t]) j).map w.message
    obtain ⟨hne, hj⟩ := not_or.mp (mt Finset.mem_insert.mpr hj)
    rw [Function.update_of_ne hne]
    exact h.whole j hj

lemma Inv.relay (h : Inv w c) {t : JsString} {rest : List JsString} (ho : c.outbox i = t :: rest) (k : ℕ+)
    {nickname : Bytes} (hu : Unmarked (w.message t) nickname) :
    Inv w (relay w { c with
      outbox := Function.update c.outbox i rest
      heard := Function.update c.heard i (c.heard i ++ [t]) } i t (some (k, nickname))) := by
  set c' := ChatRoom.relay w { c with
    outbox := Function.update c.outbox i rest
    heard := Function.update c.heard i (c.heard i ++ [t]) } i t (some (k, nickname)) with hc'
  have hself : c'.saidBy i = c.saidBy i ++ [w.message t] ∧ c'.heard i = c.heard i ++ [t] := by
    refine ⟨(saidBy_append c [(some i, w.message t)] i).trans ?_, Function.update_self _ _ _⟩
    simp
  have hother (j : ι) (hj : j ≠ i) : c'.saidBy j = c.saidBy j ∧ c'.heard j = c.heard j := by
    refine ⟨(saidBy_append c [(some i, w.message t)] j).trans ?_, Function.update_of_ne hj _ _⟩
    simp [hj.symm]
  refine ⟨h.feed, fun j => (h.page j).congr rfl rfl rfl rfl List.prefix_rfl, typed_hear h ho, fun j => ?_,
    fun j hj => ?_, ?_, ?_, h.joined⟩
  · by_cases hj : j = i
    · subst hj
      rw [hself.1, hself.2, List.map_append]
      exact (h.said j).append_right _
    · rw [(hother j hj).1, (hother j hj).2]
      exact h.said j
  · by_cases hi : j = i
    · subst hi
      rw [hself.1, hself.2, List.map_append, h.whole j hj]
      rfl
    · rw [(hother j hi).1, (hother j hi).2]
      exact h.whole j hj
  · have hrelayed := h.relayed
    simp only [underWay, List.map_append] at hrelayed
    simp only [hc', ChatRoom.relay, underWay, List.map_append, List.filterMap_append, hrelayed, List.append_assoc]
    rfl
  · exact List.forall_mem_append.mpr ⟨h.proper, List.forall_mem_singleton.mpr hu⟩

lemma Inv.listen (h : Inv w c) {q : QueryLine} {rest : List QueryLine} {held : Option Bytes}
    (hheld : c.held = none) (hlines : c.lines = q :: rest) (hq : listenForMessages q.text = some held) :
    Inv w { c with lines := rest, held } := by
  have hproper : ∀ q' ∈ q :: rest, q'.Proper := hlines ▸ h.proper
  obtain ⟨hfirst, hrest⟩ := List.forall_mem_cons.mp hproper
  have hwords : held.toList.map words = ([q].filterMap QueryLine.message).map words := by
    cases q with
    | chat msg k nickname =>
      obtain ⟨s, hs, hsw⟩ : Kept msg k nickname := kept_of_unmarked hfirst
      obtain rfl := Option.some.inj (hq.symm.trans hs)
      exact congrArg (fun ws => [ws]) hsw
    | other l =>
      obtain rfl := Option.some.inj (hq.symm.trans (listenForMessages_other hfirst))
      rfl
  refine ⟨h.feed, fun j => (h.page j).congr rfl rfl rfl rfl List.prefix_rfl, h.typed, h.said, h.whole, ?_,
    hrest, h.joined⟩
  have hrelayed := h.relayed
  rw [underWay, hheld, hlines, ← List.singleton_append, List.filterMap_append] at hrelayed
  simp only [underWay, List.map_append, Option.toList_none, List.nil_append] at hrelayed ⊢
  rw [hrelayed, hwords]

lemma Inv.take (h : Inv w c) (hf : f.Inv) {m : ServerEvent} (hm : m.chat = none ∨ m.chat = c.held)
    (hsent : f.sent = c.feed.sent ++ [m]) (hfirst : f.first = c.feed.first) (hgot : f.got = c.feed.got) :
    Inv w { c with feed := f, held := if m.chat = none then c.held else none } := by
  refine ⟨hf, fun j => (h.page j).congr rfl rfl rfl rfl (by rw [hgot]), h.typed, h.said, h.whole, ?_, h.proper,
    fun j => ?_⟩
  · have hmessage : [m].filterMap ServerEvent.chat ++ (if m.chat = none then c.held else none).toList =
        c.held.toList := by
      by_cases hnone : m.chat = none
      · rw [if_pos hnone, List.filterMap_cons_none hnone]
        rfl
      · obtain ⟨msg, hmsg⟩ := Option.ne_none_iff_exists'.mp hnone
        rw [if_neg hnone, List.filterMap_cons_some hmsg, ← hm.resolve_left hnone, hmsg]
        rfl
    have hrelayed := h.relayed
    rw [underWay, ← hmessage] at hrelayed
    rw [hrelayed, hsent, underWay, List.filterMap_append, List.append_assoc, List.append_assoc]
  · have hrange : c.feed.first j ≤ c.feed.sent.length := (h.feed.heard j).range
    change ((f.sent.take (f.first j)).filterMap ServerEvent.chat).length ≤ c.joined j
    rw [hsent, hfirst, List.take_append_of_le_length hrange]
    exact h.joined j

lemma Inv.step {browser : Sorting} {tsconn : Bool} {c' : ChatRoom ι} {l : ChatStep ι} (h : Inv w c)
    (hok : ChatRoom.proper w c l = true) (hs : c.step browser w tsconn l = some c') : Inv w c' := by
  cases l with
  | connect i visited =>
    obtain ⟨f, hf, rfl⟩ := Option.map_eq_some_iff.mp hs
    obtain ⟨hsent, hfirst, hgot⟩ := connect_fields hf
    exact h.connect (h.feed.step hf) hsent hfirst hgot
  | enter i value =>
    rw [ChatRoom.step] at hs
    split at hs
    case isTrue => cases hs
    case isFalse =>
      obtain rfl := Option.some.inj hs
      exact h.enter i value
  | hear i r =>
    rw [ChatRoom.step] at hs
    split at hs
    case h_1 => cases hs
    case h_2 t rest ho =>
      split at hs
      case isFalse => cases hs
      case isTrue =>
        obtain ⟨f, hf, rfl⟩ := Option.map_eq_some_iff.mp hs
        have hquiet := h.quiet (h.feed.step hf) (quiet_read hf)
        cases r with
        | none => exact hquiet.refuse ho
        | some p =>
          obtain ⟨k, nickname⟩ := p
          rw [ChatRoom.proper, ho, List.head?_cons, Option.all_some] at hok
          exact hquiet.relay ho k (of_decide_eq_true hok)
  | serve q =>
    obtain rfl := Option.some.inj hs
    exact h.serve (of_decide_eq_true hok)
  | listen =>
    rw [ChatRoom.step] at hs
    split at hs
    case h_1 q rest hheld hlines =>
      obtain ⟨held, hq, rfl⟩ := Option.map_eq_some_iff.mp hs
      exact h.listen hheld hlines hq
    case h_2 => cases hs
  | take m =>
    rw [ChatRoom.step] at hs
    split at hs
    case isFalse => cases hs
    case isTrue hm =>
      obtain ⟨f, hf, rfl⟩ := Option.map_eq_some_iff.mp hs
      obtain ⟨hsent, hfirst, hgot⟩ := begin_fields hf
      exact h.take (h.feed.step hf) hm hsent hfirst hgot
  | write i fails =>
    obtain ⟨f, hf, rfl⟩ := Option.map_eq_some_iff.mp hs
    exact h.quiet (h.feed.step hf) (quiet_write hf)
  | finish =>
    obtain ⟨f, hf, rfl⟩ := Option.map_eq_some_iff.mp hs
    exact h.quiet (h.feed.step hf) (quiet_finish hf)
  | leave i =>
    obtain ⟨f, hf, rfl⟩ := Option.map_eq_some_iff.mp hs
    exact h.quiet (h.feed.step hf) (quiet_read hf)
  | look i =>
    obtain ⟨m, hm, rfl⟩ := Option.map_eq_some_iff.mp hs
    exact h.look browser hm

lemma start_inv (w : Transport) : Inv w (start : ChatRoom ι) where
  feed := Feed.start_inv
  page _ := ⟨rfl, rfl, le_rfl, rfl⟩
  typed _ := rfl
  said _ := List.Sublist.refl _
  whole _ _ := rfl
  relayed := rfl
  proper _ hq := by cases hq
  joined _ := le_rfl

end Step

theorem chat_reaches_pages {browser : Sorting} {w : Transport} {tsconn : Bool} {c : ChatRoom ι} {j : ι}
    (h : Reaches (step browser w tsconn) (proper w) start c) (hj : j ∈ c.feed.registry.clients)
    (hl : j ∉ c.feed.lost) (hp : c.feed.pending j = []) (hs : c.shown j = (c.feed.got j).length) :
    (∃ events : List PageEvent, ∃ n ≤ c.joined j,
      (c.pages j).chatLog = events.filterMap (PageEvent.line w.text) ∧
      events.filterMap PageEvent.own = (c.entered j).filterMap chatText ∧
      (((events.filterMap PageEvent.event).filterMap ServerEvent.chat) ++ c.underWay).map words =
        ((c.spoken.drop n).map Prod.snd).map words) ∧
    ∀ i, (c.entered i).filterMap chatText = c.heard i ++ c.outbox i ∧
      (c.saidBy i).Sublist ((c.heard i).map w.message) ∧
      (i ∉ c.refused → c.saidBy i = (c.heard i).map w.message) := by
  have hinv : Inv w c := h.invariant (start_inv w) fun _ _ _ ht hok hs => ht.step hok hs
  refine ⟨?_, fun i => ⟨hinv.typed i, hinv.said i, hinv.whole i⟩⟩
  obtain ⟨hown, htold, -, hlog⟩ := hinv.page j
  refine ⟨c.seen j, ((c.feed.sent.take (c.feed.first j)).filterMap ServerEvent.chat).length, hinv.joined j,
    hlog, hown, ?_⟩
  have hgot := (hinv.feed.heard j).complete hl hj
  rw [hp, List.append_nil] at hgot
  have hrelayed := hinv.relayed
  rw [← List.take_append_drop (c.feed.first j) c.feed.sent, List.filterMap_append, List.append_assoc,
    List.map_append] at hrelayed
  rw [htold, hs, List.take_length, hgot, List.map_drop, List.map_drop, hrelayed, List.drop_left' (List.length_map _)]

section Hello

def opening : Bytes := ascii "\x7b\"ip\":\"blah.blah.blah\",\"message\":\""

def closing : Bytes := ascii "\",\"time\":\"69:69 PM\"\x7d"

def toAscii (t : JsString) : Bytes := t.map fun c => UInt8.ofNat c.val

def plainTransport : Transport where
  payload t := opening ++ (toAscii t ++ closing)
  unmarshal b := some ((b.drop opening.length).take (b.length - (opening.length + closing.length)))
  message := toAscii
  unmarshal_payload t := by
    have hlen : (opening ++ (toAscii t ++ closing)).length - (opening.length + closing.length) =
        (toAscii t).length := by
      rw [List.length_append, List.length_append]
      omega
    rw [hlen, List.drop_left, List.take_left]
  text := fromAscii

/-- Two pages; on the first one a number is entered, which is not sent, and then a greeting. -/
def greeting : List (ChatStep ℕ) :=
  [.connect 0 false, .connect 1 false, .enter 0 (units " 0"), .enter 0 (units "hello  all "),
    .hear 0 (some (7, ascii "web")), .serve (.other (ascii "notifyclientleftview reasonid=8")), .listen,
    .take (.serverMsg (ascii "hello all   ")), .write 1 false, .write 0 false, .finish, .look 1, .listen]

theorem chat_reaches_pages_greeting : ∃ c : ChatRoom ℕ, (c.pages 1).chatLog = [units "hello all   \n"] ∧
    (∃ events : List PageEvent, ∃ n ≤ c.joined 1,
      [units "hello all   \n"] = events.filterMap (PageEvent.line fromAscii) ∧
      (((events.filterMap PageEvent.event).filterMap ServerEvent.chat) ++ c.underWay).map words =
        ((c.spoken.drop n).map Prod.snd).map words) ∧
    c.saidBy 0 = (c.heard 0).map toAscii := by
  have hrun : (run (step .stable plainTransport true) (proper plainTransport) start greeting).map
      (fun c => (decide (1 ∈ c.feed.registry.clients ∧ 1 ∉ c.feed.lost ∧ (c.feed.pending 1).isEmpty ∧
        c.shown 1 = (c.feed.got 1).length ∧ 0 ∉ c.refused), (c.pages 1).chatLog)) =
      some (true, [units "hello all   \n"]) := by
    decide +kernel
  obtain ⟨c, hc, he⟩ := Option.map_eq_some_iff.mp hrun
  simp only [Prod.mk.injEq, decide_eq_true_eq, List.isEmpty_iff] at he
  obtain ⟨⟨hclient, hlost, hpending, hshown, hrefused⟩, hlog⟩ := he
  obtain ⟨⟨events, n, hn, hevents, -, hwords⟩, hsaid⟩ :=
    chat_reaches_pages (reaches_of_run hc) hclient hlost hpending hshown
  exact ⟨c, hlog, ⟨events, n, hn, hlog.symm.trans hevents, hwords⟩, (hsaid 0).2.2 hrefused⟩

end Hello

end ChatRoom

end TeamspeakWebserver.Webserver
