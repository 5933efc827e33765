import Mathlib.Data.List.Lex
import Mathlib.Data.List.Sort
import TeamspeakWebserver.Webserver.Broadcasts
import TeamspeakWebserver.Webserver.ClientList

/-! What the script of the front page (`static/app.js`) shows of the messages it is told. -/

namespace TeamspeakWebserver.Webserver

open Labelled Maps

/-- Strings are compared by their code units. -/
abbrev JsString := List (Fin 65536)

def units (s : String) : JsString := s.toList.map fun c => Fin.ofNat 65536 c.toNat

structure ChannelClients where
  channelName : JsString
  clients : List JsString
deriving DecidableEq

/-- How a browser sorts an array: by where the comparator is negative. Which of two items comes first
when the comparator is negative for neither order is left to the browser. -/
structure Sorting where
  sort : (ChannelClients → ChannelClients → ℤ) → List ChannelClients → List ChannelClients
  perm : ∀ cmp items, (sort cmp items).Perm items
  ordered : ∀ cmp : ChannelClients → ChannelClients → ℤ, (∀ a b, cmp a b < 0 → ¬ cmp b a < 0) →
    (∀ a b c, ¬ cmp b a < 0 → ¬ cmp c b < 0 → ¬ cmp c a < 0) →
      ∀ items, (sort cmp items).Pairwise fun a b => ¬ cmp b a < 0

def descending {κ : Type} [LinearOrder κ] (key : ChannelClients → κ) (a b : ChannelClients) : ℤ :=
  if key a > key b then -1 else 1

def byName : ChannelClients → ChannelClients → ℤ := descending ChannelClients.channelName

def byClients : ChannelClients → ChannelClients → ℤ := descending fun item => item.clients.length

/-- The argument of `updateTable`. -/
inductive ClientListData where
  | undefined
  | null
  | list (items : List ChannelClients)

def sortClients (item : ChannelClients) : ChannelClients :=
  { item with clients := item.clients.insertionSort (· ≤ ·) }

/-- Nothing is escaped. -/
def row (item : ChannelClients) : JsString :=
  units "<ul class=\"list-channels\">" ++ item.channelName ++ units "<li><ul class='list-clients'>" ++
    item.clients.flatMap (fun client => units "<li>" ++ client ++ units "</li>") ++ units "</ul></ul>"

def loading : JsString := units "<p>Loading...</p>"

def nobody : JsString := units "<p>No one is currently online :(</p>"

def updateTable (browser : Sorting) : ClientListData → JsString
  | .undefined => units "<p>Error while loading clientlist</p>"
  | .null => nobody
  | .list clientListData =>
    (browser.sort byClients (browser.sort byName clientListData)).flatMap fun item => row (sortClients item)

/-- A message as `JSON.parse` gives it, by its header. -/
inductive PageMessage where
  | clientList (payload : ClientListData)
  | serverMsg (payload : JsString)
  | other

structure FrontPage where
  channelList : JsString
  chatLog : List JsString

def FrontPage.load : FrontPage := ⟨loading, []⟩

def FrontPage.onmessage (browser : Sorting) (page : FrontPage) : PageMessage → FrontPage
  | .clientList payload => { page with channelList := updateTable browser payload }
  | .serverMsg payload => { page with chatLog := page.chatLog ++ [payload ++ units "\n"] }
  | .other => page

/-! ### The messages of the server -/

/-- A round of `PushClientList` whose two queries have been answered. The ids of the channels are those
of the TeamSpeak server. -/
structure ClientListPush where
  clientList : List OnlineClient
  channelList : List Channel
  ids : (channelList.map Channel.ID).Nodup
  pairs : List ChannelClientPair
  pushes : Pushes (buildChannelClientMap (.ok clientList : Except Unit _) (.ok channelList)) pairs

/-- What `handleMessages` takes off its channels. -/
inductive ServerEvent where
  | broadcast
  | clientList (p : ClientListPush)
  | serverMsg (msg : Bytes)

def ServerEvent.push : ServerEvent → Option ClientListPush
  | .clientList p => some p
  | _ => none

def ServerEvent.chat : ServerEvent → Option Bytes
  | .serverMsg msg => some msg
  | _ => none

def lastPush (ms : List ServerEvent) : Option ClientListPush := (ms.filterMap ServerEvent.push).getLast?

section Told

variable (browser : Sorting) (text : Bytes → JsString)

/-- `text` is what becomes of a string through `json.Marshal` and `JSON.parse`. -/
def ChannelClientPair.parsed (pair : ChannelClientPair) : ChannelClients where
  channelName := text pair.channelName
  clients := pair.clients.map text

/-- A slice that nothing was appended to is sent as `null`. -/
def ClientListPush.payload (p : ClientListPush) : ClientListData :=
  match p.pairs with
  | [] => .null
  | pairs => .list (pairs.map (ChannelClientPair.parsed text))

def ServerEvent.parsed : ServerEvent → PageMessage
  | .broadcast => .other
  | .clientList p => .clientList (p.payload text)
  | .serverMsg msg => .serverMsg (text msg)

def FrontPage.told (ms : List ServerEvent) : FrontPage :=
  (ms.map (ServerEvent.parsed text)).foldl (FrontPage.onmessage browser) FrontPage.load

variable {browser text} {ms : List ServerEvent}

lemma told_concat (ms : List ServerEvent) (m : ServerEvent) : FrontPage.told browser text (ms ++ [m]) =
    (FrontPage.told browser text ms).onmessage browser (m.parsed text) := by
  rw [FrontPage.told, List.map_append, List.foldl_append]
  rfl

lemma lastPush_concat (ms : List ServerEvent) (m : ServerEvent) :
    lastPush (ms ++ [m]) = m.push.or (lastPush ms) := by
  rw [lastPush, List.filterMap_append, List.getLast?_append]
  cases m with
  | clientList p => rfl
  | broadcast => rfl
  | serverMsg msg => rfl

lemma told_channelList : (FrontPage.told browser text ms).channelList =
    ((lastPush ms).map fun p => updateTable browser (p.payload text)).getD loading := by
  induction ms using List.reverseRecOn with
  | nil => rfl
  | append_singleton ms m ih =>
    rw [told_concat, lastPush_concat]
    cases m with
    | clientList p => rfl
    | broadcast => exact ih
    | serverMsg msg => exact ih

lemma told_chatLog : (FrontPage.told browser text ms).chatLog =
    (ms.filterMap ServerEvent.chat).map fun msg => text msg ++ units "\n" := by
  induction ms using List.reverseRecOn with
  | nil => rfl
  | append_singleton ms m ih =>
    rw [told_concat, List.filterMap_append, List.map_append, ← ih]
    cases m with
    | serverMsg msg => rfl
    | broadcast => exact (List.append_nil _).symm
    | clientList p => exact (List.append_nil _).symm

lemma lastPush_drop (n : ℕ) (h : lastPush (ms.drop n) ≠ none) : lastPush (ms.drop n) = lastPush ms := by
  have hsplit : lastPush ms = (lastPush (ms.drop n)).or (lastPush (ms.take n)) := by
    conv_lhs => rw [← List.take_append_drop n ms, lastPush, List.filterMap_append, List.getLast?_append]
    rfl
  obtain ⟨p, hp⟩ := Option.ne_none_iff_exists'.mp h
  rw [hsplit, hp, Option.some_or]

end Told

section Sorted

variable {browser : Sorting} {κ : Type} [LinearOrder κ] {items items' : List ChannelClients}

lemma descending_neg {key : ChannelClients → κ} {a b : ChannelClients} :
    descending key a b < 0 ↔ key b < key a := by
  rw [descending]
  split
  case isTrue h => exact iff_of_true (by decide) h
  case isFalse h => exact iff_of_false (by decide) h

lemma Sorting.descends (browser : Sorting) (key : ChannelClients → κ) (items : List ChannelClients) :
    (browser.sort (descending key) items).Pairwise fun a b => key b ≤ key a := by
  have hordered := browser.ordered (descending key)
    (fun a b h => by rw [descending_neg] at h ⊢; exact h.le.not_gt)
    (fun a b c h h' => by simp only [descending_neg, not_lt] at h h' ⊢; exact h'.trans h) items
  refine hordered.imp fun {a b} h => ?_
  rwa [descending_neg, not_lt] at h

/-- Where no two channels have one name, the first sort leaves nothing to the browser. -/
lemma sort_byName_eq (hn : (items.map ChannelClients.channelName).Nodup) (hp : items.Perm items') :
    browser.sort byName items = browser.sort byName items' := by
  have hperm := browser.perm byName items
  refine List.Perm.eq_of_pairwise (fun a b ha hb hab hba => ?_) (browser.descends _ items)
    (browser.descends _ items') ((hperm.trans hp).trans (browser.perm byName items').symm)
  have hb' : b ∈ items := hp.mem_iff.mpr ((browser.perm byName items').mem_iff.mp hb)
  exact List.inj_on_of_nodup_map hn (hperm.mem_iff.mp ha) hb' (le_antisymm hba hab)

lemma updateTable_eq (hn : (items.map ChannelClients.channelName).Nodup) (hp : items.Perm items') :
    updateTable browser (.list items) = updateTable browser (.list items') := by
  rw [updateTable, updateTable, sort_byName_eq hn hp]

end Sorted

section Html

variable {item item' : ChannelClients} {items items' : List ChannelClients} {rest rest' : JsString}

def ChannelClients.Tagless (item : ChannelClients) : Prop :=
  60 ∉ item.channelName ∧ ∀ client ∈ item.clients, 60 ∉ client

lemma units_entry : units "<li>" = 60 :: units "li>" ∧ units "</li>" = 60 :: units "/li>" ∧
    units "</ul></ul>" = 60 :: 47 :: units "ul></ul>" ∧
    units "<li><ul class='list-clients'>" = 60 :: units "li><ul class='list-clients'>" := by
  decide

lemma entries_inj {cs ds : List JsString} (hc : ∀ c ∈ cs, 60 ∉ c) (hd : ∀ d ∈ ds, 60 ∉ d)
    (h : cs.flatMap (fun c => units "<li>" ++ c ++ units "</li>") ++ (units "</ul></ul>" ++ rest) =
      ds.flatMap (fun d => units "<li>" ++ d ++ units "</li>") ++ (units "</ul></ul>" ++ rest')) :
    cs = ds ∧ rest = rest' := by
  have hli : units "li>" = 108 :: units "i>" := by decide
  obtain ⟨hopen, hclose, hend, -⟩ := units_entry
  -- behind `<`, an entry goes on with `l` and the end of the list with `/`
  have hne (c : JsString) (tail : JsString) :
      units "<li>" ++ c ++ units "</li>" ++ tail ≠ units "</ul></ul>" ++ rest := by
    rw [hopen, hend, hli]
    intro he
    exact absurd (List.cons.inj (List.cons.inj he).2).1 (by decide)
  have hne' (c : JsString) (tail : JsString) :
      units "</ul></ul>" ++ rest' ≠ units "<li>" ++ c ++ units "</li>" ++ tail := by
    rw [hopen, hend, hli]
    intro he
    exact absurd (List.cons.inj (List.cons.inj he).2).1 (by decide)
  induction cs generalizing ds with
  | nil =>
    cases ds with
    | nil => exact ⟨rfl, List.append_cancel_left h⟩
    | cons d ds =>
      rw [List.flatMap_nil, List.nil_append, List.flatMap_cons, List.append_assoc] at h
      exact absurd h.symm (hne d _)
  | cons c cs ih =>
    cases ds with
    | nil =>
      rw [List.flatMap_nil, List.nil_append, List.flatMap_cons, List.append_assoc] at h
      exact absurd h.symm (hne' c _)
    | cons d ds =>
      obtain ⟨hc₁, hcs⟩ := List.forall_mem_cons.mp hc
      obtain ⟨hd₁, hds⟩ := List.forall_mem_cons.mp hd
      simp only [List.flatMap_cons, List.append_assoc] at h
      rw [hclose] at h
      obtain ⟨rfl, htail⟩ := Text.append_cons_inj hc₁ hd₁ (List.append_cancel_left h)
      rw [← hclose] at htail
      simp only [List.append_assoc] at ih
      obtain ⟨rfl, hrest⟩ := ih hcs hds (List.append_cancel_left htail)
      exact ⟨rfl, hrest⟩

lemma row_inj (hi : item.Tagless) (hi' : item'.Tagless) (h : row item ++ rest = row item' ++ rest') :
    item = item' ∧ rest = rest' := by
  simp only [row, List.append_assoc] at h
  have hname := List.append_cancel_left h
  rw [units_entry.2.2.2] at hname
  obtain ⟨hn, htail⟩ := Text.append_cons_inj hi.1 hi'.1 hname
  obtain ⟨hc, hrest⟩ := entries_inj hi.2 hi'.2 (by
    simp only [List.append_assoc]
    exact List.append_cancel_left htail)
  refine ⟨?_, hrest⟩
  cases item
  cases item'
  rw [ChannelClients.mk.injEq]
  exact ⟨hn, hc⟩

lemma rows_inj (hi : ∀ item ∈ items, item.Tagless) (hi' : ∀ item ∈ items', item.Tagless)
    (h : items.flatMap row = items'.flatMap row) : items = items' := by
  have hne (item : ChannelClients) (rest : JsString) : row item ++ rest ≠ [] := by
    have hopen : units "<ul class=\"list-channels\">" = 60 :: units "ul class=\"list-channels\">" := by decide
    rw [row, hopen]
    exact List.cons_ne_nil _ _
  induction items generalizing items' with
  | nil =>
    cases items' with
    | nil => rfl
    | cons item' items' => exact absurd h.symm (hne item' _)
  | cons item items ih =>
    cases items' with
    | nil => exact absurd h (hne item _)
    | cons item' items' =>
      obtain ⟨hitem, hitems⟩ := List.forall_mem_cons.mp hi
      obtain ⟨hitem', hitems'⟩ := List.forall_mem_cons.mp hi'
      obtain ⟨rfl, hrest⟩ := row_inj hitem hitem' h
      rw [ih hitems hitems' hrest]

end Html

section Content

variable {browser : Sorting} {text : Bytes → JsString} {clientList : List OnlineClient}
  {channelList : List Channel}

def shownUnder (clientList : List OnlineClient) (channelList : List Channel) (name : Bytes) : List Bytes :=
  (clientList.filter fun client => (appended channelList client).any fun channel =>
    channel.channelName = name).map OnlineClient.nickname

lemma values_eq_shownUnder (hids : (channelList.map Channel.ID).Nodup) (name : Bytes) :
    values (placements clientList channelList) name = shownUnder clientList channelList name := by
  induction clientList with
  | nil => rfl
  | cons client clientList ih =>
    have hcons : placements (client :: clientList) channelList =
        (appended channelList client).map (fun channel => (channel.channelName, client.nickname)) ++
          placements clientList channelList := List.flatMap_cons
    have hvalues : values (placements (client :: clientList) channelList) name =
        values ((appended channelList client).map fun channel => (channel.channelName, client.nickname))
          name ++ values (placements clientList channelList) name := by
      rw [hcons, values, List.filter_append, List.map_append]
      rfl
    rw [hvalues, ih, shownUnder, shownUnder, List.filter_cons]
    cases ha : appended channelList client with
    | nil => rfl
    | cons channel rest =>
      have hone : channel :: rest = [channel] :=
        ha.symm.trans (appended_unique hids (ha ▸ List.mem_cons_self))
      rw [hone]
      by_cases hname : channel.channelName = name
      · simp [values, hname]
      · simp [values, hname]

lemma channelName_mem {name : Bytes}
    (h : name ∈ (placements clientList channelList).map Prod.fst) :
    name ∈ channelList.map Channel.channelName := by
  rw [placements, List.map_flatMap, List.mem_flatMap] at h
  obtain ⟨client, -, h⟩ := h
  rw [List.map_map] at h
  obtain ⟨channel, hchannel, rfl⟩ := List.mem_map.mp h
  exact List.mem_map_of_mem (mem_appended.mp hchannel).1

def ClientListPush.Tagless (text : Bytes → JsString) (p : ClientListPush) : Prop :=
  (∀ channel ∈ p.channelList, 60 ∉ text channel.channelName) ∧
    ∀ client ∈ p.clientList, 60 ∉ text client.nickname

/-- The page tells who is online: each visible client once, under the name of its channel, and the
channels with more clients first. -/
structure Shows (text : Bytes → JsString) (p : ClientListPush) (html : JsString) : Prop where
  empty : visible p.clientList p.channelList = [] → html = nobody
  table : visible p.clientList p.channelList ≠ [] → ∃ items : List ChannelClients,
    html = items.flatMap row ∧
    (items.Pairwise fun a b => b.clients.length ≤ a.clients.length) ∧
    (items.flatMap ChannelClients.clients).Perm
      ((visible p.clientList p.channelList).map fun client => text client.nickname) ∧
    (∀ item ∈ items, item.clients.Pairwise (· ≤ ·) ∧ ∃ name, item.channelName = text name ∧
      item.clients.Perm ((shownUnder p.clientList p.channelList name).map text)) ∧
    (p.Tagless text → ∀ items' : List ChannelClients, (∀ item ∈ items', item.Tagless) →
      items'.flatMap row = html → items' = items)

variable {p q : ClientListPush}

lemma ClientListPush.pairs_perm (p : ClientListPush) :
    p.pairs.Perm ((group (placements p.clientList p.channelList)).keys.map fun name =>
      ⟨name, values (placements p.clientList p.channelList) name⟩) := by
  apply Webserver.pairs_perm (ε := Unit)
  rw [← buildChannelClientMap_ok]
  exact p.pushes

lemma ClientListPush.clients_perm (p : ClientListPush) :
    (p.pairs.flatMap ChannelClientPair.clients).Perm
      ((visible p.clientList p.channelList).map OnlineClient.nickname) := by
  apply Webserver.clients_perm (ε := Unit) p.ids
  rw [← buildChannelClientMap_ok]
  exact p.pushes

lemma ClientListPush.mem_pairs {pair : ChannelClientPair} (h : pair ∈ p.pairs) :
    pair.channelName ∈ (placements p.clientList p.channelList).map Prod.fst ∧
      pair.clients = shownUnder p.clientList p.channelList pair.channelName := by
  obtain ⟨name, hname, rfl⟩ := List.mem_map.mp (p.pairs_perm.mem_iff.mp h)
  exact ⟨mem_group.mp (AList.mem_keys.mpr hname), values_eq_shownUnder p.ids name⟩

lemma ClientListPush.pairs_eq_nil : p.pairs = [] ↔ visible p.clientList p.channelList = [] := by
  constructor
  · intro h
    have hperm := p.clients_perm
    rw [h, List.flatMap_nil] at hperm
    exact List.map_eq_nil_iff.mp hperm.nil_eq.symm
  · intro h
    have hnone : placements p.clientList p.channelList = [] := by
      apply List.map_eq_nil_iff.mp
      rw [placements_snd p.ids, h, List.map_nil]
    apply List.eq_nil_iff_forall_not_mem.mpr
    intro pair hpair
    have hname := (ClientListPush.mem_pairs hpair).1
    rw [hnone] at hname
    exact List.not_mem_nil hname

lemma ClientListPush.payload_list (h : p.pairs ≠ []) :
    p.payload text = .list (p.pairs.map (ChannelClientPair.parsed text)) := by
  rw [ClientListPush.payload]
  split
  case h_1 he => exact absurd he h
  case h_2 => rfl

lemma sortClients_length (item : ChannelClients) :
    (sortClients item).clients.length = item.clients.length :=
  List.length_insertionSort _ _

lemma sortClients_flatMap (items : List ChannelClients) :
    ((items.map sortClients).flatMap ChannelClients.clients).Perm
      (items.flatMap ChannelClients.clients) := by
  rw [List.flatMap_map]
  exact List.Perm.flatMap_left items fun item _ => List.perm_insertionSort _ _

lemma parsed_flatMap (pairs : List ChannelClientPair) :
    (pairs.map (ChannelClientPair.parsed text)).flatMap ChannelClients.clients =
      (pairs.flatMap ChannelClientPair.clients).map text := by
  rw [List.flatMap_map, List.map_flatMap]
  rfl

lemma mem_shownUnder {name nickname : Bytes} (h : nickname ∈ shownUnder clientList channelList name) :
    ∃ client ∈ clientList, client.nickname = nickname := by
  obtain ⟨client, hclient, hname⟩ := List.mem_map.mp h
  exact ⟨client, (List.mem_filter.mp hclient).1, hname⟩

lemma ClientListPush.Tagless.parsed (h : p.Tagless text) {pair : ChannelClientPair} (hp : pair ∈ p.pairs) :
    (sortClients (pair.parsed text)).Tagless := by
  obtain ⟨hname, hclients⟩ := ClientListPush.mem_pairs hp
  obtain ⟨channel, hchannel, he⟩ := List.mem_map.mp (channelName_mem hname)
  refine ⟨?_, fun c hc => ?_⟩
  · have hchan := h.1 channel hchannel
    rw [he] at hchan
    exact hchan
  · obtain ⟨nickname, hnick, rfl⟩ := List.mem_map.mp ((List.perm_insertionSort _ _).mem_iff.mp hc)
    rw [hclients] at hnick
    obtain ⟨client, hclient, rfl⟩ := mem_shownUnder hnick
    exact h.2 client hclient

lemma shows_push (p : ClientListPush) : Shows text p (updateTable browser (p.payload text)) := by
  refine ⟨fun hempty => ?_, fun hne => ?_⟩
  · have hnil : p.pairs = [] := ClientListPush.pairs_eq_nil.mpr hempty
    have hnull : p.payload text = .null := by
      rw [ClientListPush.payload, hnil]
    rw [hnull, updateTable]
  · have hpairs : p.pairs ≠ [] := mt ClientListPush.pairs_eq_nil.mp hne
    set pairs := p.pairs.map (ChannelClientPair.parsed text) with hparsed
    set sorted := browser.sort byClients (browser.sort byName pairs) with hsorted
    have hperm : sorted.Perm pairs := (browser.perm _ _).trans (browser.perm _ _)
    have hhtml : updateTable browser (p.payload text) = (sorted.map sortClients).flatMap row := by
      rw [ClientListPush.payload_list hpairs, List.flatMap_map]
      rfl
    refine ⟨sorted.map sortClients, hhtml, ?_, ?_, fun item hitem => ?_, fun htagless items' hi' he => ?_⟩
    · rw [List.pairwise_map]
      refine (browser.descends (fun item => item.clients.length) _).imp fun {a b} h => ?_
      rw [sortClients_length, sortClients_length]
      exact h
    · refine (sortClients_flatMap sorted).trans ((hperm.flatMap_right _).trans ?_)
      rw [hparsed, parsed_flatMap]
      refine (p.clients_perm.map text).trans ?_
      rw [List.map_map]
      rfl
    · obtain ⟨a, ha, rfl⟩ := List.mem_map.mp hitem
      obtain ⟨pair, hpair, rfl⟩ := List.mem_map.mp (hperm.mem_iff.mp ha)
      refine ⟨List.pairwise_insertionSort _ _, pair.channelName, rfl, ?_⟩
      rw [← (ClientListPush.mem_pairs hpair).2]
      exact List.perm_insertionSort _ _
    · refine rows_inj hi' (fun item hitem => ?_) (he.trans hhtml)
      obtain ⟨a, ha, rfl⟩ := List.mem_map.mp hitem
      obtain ⟨pair, hpair, rfl⟩ := List.mem_map.mp (hperm.mem_iff.mp ha)
      exact htagless.parsed hpair

lemma payload_eq (hclients : q.clientList = p.clientList) (hchannels : q.channelList = p.channelList)
    (htext : Set.InjOn text {name | name ∈ p.channelList.map Channel.channelName}) :
    updateTable browser (p.payload text) = updateTable browser (q.payload text) := by
  have hperm : p.pairs.Perm q.pairs := by
    have hq := q.pairs_perm
    rw [hclients, hchannels] at hq
    exact p.pairs_perm.trans hq.symm
  by_cases hnil : p.pairs = []
  · have hnil' : q.pairs = [] := by
      rw [hnil] at hperm
      exact hperm.nil_eq.symm
    rw [ClientListPush.payload, ClientListPush.payload, hnil, hnil']
  · have hnil' : q.pairs ≠ [] := by
      intro h
      rw [h] at hperm
      exact hnil hperm.eq_nil
    rw [ClientListPush.payload_list hnil, ClientListPush.payload_list hnil']
    refine updateTable_eq ?_ (hperm.map _)
    have hnames : (p.pairs.map ChannelClientPair.channelName).Nodup := by
      rw [(p.pairs_perm.map _).nodup_iff, List.map_map]
      simpa [Function.comp_def] using AList.keys_nodup _
    rw [List.map_map]
    refine (List.nodup_map_iff_inj_on hnames.of_map).mpr fun a ha b hb hab => ?_
    refine List.inj_on_of_nodup_map hnames ha hb (htext ?_ ?_ hab)
    · exact channelName_mem (ClientListPush.mem_pairs ha).1
    · exact channelName_mem (ClientListPush.mem_pairs hb).1

end Content

section Pages

variable {ι : Type} [DecidableEq ι] {tsconn : Bool} {unmarshal : Bytes → Option Bytes}
  {f : Feed ι ServerEvent} {i : ι}

theorem pages_show (browser : Sorting) (text : Bytes → JsString)
    (h : Reaches (Feed.step tsconn unmarshal) free (Feed.start : Feed ι ServerEvent) f)
    (hi : i ∈ f.registry.clients) (hl : i ∉ f.lost) (hp : f.pending i = []) :
    (FrontPage.told browser text (f.got i)).chatLog =
        ((f.sent.drop (f.first i)).filterMap ServerEvent.chat).map (fun msg => text msg ++ units "\n") ∧
      match lastPush (f.sent.drop (f.first i)) with
      | none => (FrontPage.told browser text (f.got i)).channelList = loading
      | some p => Shows text p (FrontPage.told browser text (f.got i)).channelList ∧
          (Set.InjOn text {name | name ∈ p.channelList.map Channel.channelName} →
            ∀ q : ClientListPush, q.clientList = p.clientList → q.channelList = p.channelList →
              updateTable browser (q.payload text) = (FrontPage.told browser text (f.got i)).channelList) ∧
          ∀ j ∈ f.registry.clients, j ∉ f.lost → f.pending j = [] →
            lastPush (f.sent.drop (f.first j)) ≠ none →
              (FrontPage.told browser text (f.got j)).channelList =
                (FrontPage.told browser text (f.got i)).channelList := by
  have hgot (k : ι) (hk : k ∈ f.registry.clients) (hkl : k ∉ f.lost) (hkp : f.pending k = []) :
      f.got k = f.sent.drop (f.first k) := by
    have hall := (Feed.heard_of_reaches h k).complete hkl hk
    rwa [hkp, List.append_nil] at hall
  rw [told_chatLog, told_channelList, hgot i hi hl hp]
  refine ⟨rfl, ?_⟩
  split
  case h_1 hnone => rw [hnone, Option.map_none, Option.getD_none]
  case h_2 p hsome =>
    rw [hsome, Option.map_some, Option.getD_some]
    refine ⟨shows_push p, fun htext q hc hch => (payload_eq hc hch htext).symm,
      fun j hj hjl hjp hne => ?_⟩
    have hlast : lastPush (f.sent.drop (f.first j)) = some p := by
      rw [lastPush_drop _ hne, ← lastPush_drop (f.first i), hsome]
      rw [hsome]
      exact Option.some_ne_none p
    rw [told_channelList, hgot j hj hjl hjp, hlast, Option.map_some, Option.getD_some]

def Sorting.stable : Sorting where
  sort cmp := List.insertionSort fun a b => ¬ cmp b a < 0
  perm _ items := List.perm_insertionSort _ items
  ordered cmp hasymm htrans items := by
    have : Std.Total fun a b : ChannelClients => ¬ cmp b a < 0 :=
      ⟨fun a b => (em (cmp b a < 0)).elim (fun h => Or.inr (hasymm b a h)) Or.inl⟩
    have : IsTrans ChannelClients fun a b => ¬ cmp b a < 0 := ⟨htrans⟩
    exact List.pairwise_insertionSort _ items

def fromAscii (b : Bytes) : JsString := b.map fun c => Fin.ofNat 65536 c.toNat

def loungePush : ClientListPush where
  clientList := guests
  channelList := lounge
  ids := by decide
  pairs := [⟨ascii "AFK", [ascii "cat"]⟩, ⟨ascii "Lobby", [ascii "ann", ascii "dan"]⟩]
  pushes := ⟨_, rfl, by decide⟩

def visited : List (RegistryStep ℕ × ServerEvent) :=
  [(.connect 0 false, .broadcast), (.begin .serverMsg, .serverMsg (ascii "hi")), (.write 0 false, .broadcast),
    (.finish, .broadcast), (.begin .clientList, .clientList loungePush), (.write 0 false, .broadcast),
    (.finish, .broadcast)]

theorem pages_show_lounge : ∃ f : Feed ℕ ServerEvent,
    (FrontPage.told .stable fromAscii (f.got 0)).chatLog = [units "hi\n"] ∧
      Shows fromAscii loungePush (FrontPage.told .stable fromAscii (f.got 0)).channelList := by
  have hrun : (run (Feed.step true fun _ => none) free (Feed.start : Feed ℕ ServerEvent)
      visited).isSome := by
    decide
  obtain ⟨f, hf⟩ := Option.isSome_iff_exists.mp hrun
  have hf' := hf
  cases hf'
  have h := pages_show .stable fromAscii (reaches_of_run hf) (i := 0) (by decide) (by decide) rfl
  exact ⟨_, h.1, h.2.1⟩

end Pages

end TeamspeakWebserver.Webserver
