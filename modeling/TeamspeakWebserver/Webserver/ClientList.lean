import TeamspeakWebserver.Maps.Grouping
import TeamspeakWebserver.Text.Bytes

/-! The client list of the website (`cmd/tsc/tsconn.go`, `cmd/tsc/clientlist.go`). -/

namespace TeamspeakWebserver.Webserver

open Text Maps

structure Channel where
  ID : ℤ
  channelName : Bytes

/-- `ID` is the one of the channel that the client is in. -/
structure OnlineClient where
  ID : ℤ
  nickname : Bytes
  type : ℤ

structure ChannelClientPair where
  channelName : Bytes
  clients : List Bytes
deriving DecidableEq

def hiddenChannels : List ℤ := [98]

def shouldHide (c : Channel) : Bool := hiddenChannels.any fun id => c.ID = id

/-- The clients of type 1 are the ones that query the server. -/
def clientInChannel (chnl : Channel) (client : OnlineClient) : Bool :=
  client.ID = chnl.ID && client.type ≠ 1

variable {ε : Type} (clientList : List OnlineClient) (channelList : List Channel)

/-- The arguments are what `methods.ClientList()` and `methods.ChannelList()` answer. -/
def buildChannelClientMap (clientList : Except ε (List OnlineClient)) (channelList : Except ε (List Channel)) :
    Except ε (Groups Bytes Bytes) := do
  let clientList ← clientList
  let channelList ← channelList
  return clientList.foldl (fun channelClientMap client =>
    channelList.foldl (fun channelClientMap channel =>
      if !shouldHide channel && clientInChannel channel client then
        append channel.channelName client.nickname channelClientMap
      else channelClientMap) channelClientMap) ∅

/-- What a round of `PushClientList` sends: a map is ranged over in any order, and an error sends
nothing. -/
def Pushes (chanClientMap : Except ε (Groups Bytes Bytes)) (pairs : List ChannelClientPair) : Prop :=
  ∃ m, chanClientMap = .ok m ∧ pairs.Perm (m.entries.map fun entry => ⟨entry.1, entry.2⟩)

/-! What the website is to show, by the ids of the channels. -/

def occupied : List Channel :=
  channelList.filter fun channel => !shouldHide channel && clientList.any (clientInChannel channel)

def occupants (channel : Channel) : List Bytes :=
  (clientList.filter (clientInChannel channel)).map OnlineClient.nickname

def visible : List OnlineClient :=
  clientList.filter fun client =>
    channelList.any fun channel => !shouldHide channel && clientInChannel channel client

structure Faithful (pairs : List ChannelClientPair) : Prop where
  entries : pairs.Perm ((occupied clientList channelList).map fun channel =>
    ⟨channel.channelName, occupants clientList channel⟩)
  once : (pairs.flatMap ChannelClientPair.clients).Perm
    ((visible clientList channelList).map OnlineClient.nickname)

/-! The nested loop appends these values in this order. -/

def appended (client : OnlineClient) : List Channel :=
  channelList.filter fun channel => !shouldHide channel && clientInChannel channel client

def placements : List (Bytes × Bytes) :=
  clientList.flatMap fun client =>
    (appended channelList client).map fun channel => (channel.channelName, client.nickname)

lemma buildChannelClientMap_ok :
    buildChannelClientMap (.ok clientList : Except ε _) (.ok channelList) =
      .ok (group (placements clientList channelList)) := by
  rw [group, placements, List.foldl_flatMap]
  simp only [appended, List.foldl_map, List.foldl_filter]
  rfl

variable {clientList channelList} {client : OnlineClient} {channel : Channel}

lemma mem_appended : channel ∈ appended channelList client ↔
    channel ∈ channelList ∧ shouldHide channel = false ∧ clientInChannel channel client = true := by
  rw [appended, List.mem_filter, Bool.and_eq_true, Bool.not_eq_true']

lemma mem_occupied : channel ∈ occupied clientList channelList ↔
    ∃ client ∈ clientList, channel ∈ appended channelList client := by
  simp only [occupied, mem_appended, List.mem_filter, Bool.and_eq_true, Bool.not_eq_true', List.any_eq_true]
  grind

section Ids

variable (hids : (channelList.map Channel.ID).Nodup)
include hids

lemma appended_unique (h : channel ∈ appended channelList client) : appended channelList client = [channel] := by
  have hnodup : (appended channelList client).Nodup := hids.of_map.filter _
  refine List.perm_singleton.mp ((List.perm_ext_iff_of_nodup hnodup (List.nodup_singleton _)).mpr
    fun other => ?_)
  rw [List.mem_singleton]
  refine ⟨fun hother => ?_, fun hother => hother ▸ h⟩
  rw [mem_appended, clientInChannel, Bool.and_eq_true, decide_eq_true_eq] at h hother
  exact List.inj_on_of_nodup_map hids hother.1 h.1 (hother.2.2.1.symm.trans h.2.2.1)

lemma placements_snd : (placements clientList channelList).map Prod.snd =
    (visible clientList channelList).map OnlineClient.nickname := by
  rw [placements, visible, List.map_flatMap]
  induction clientList with
  | nil => rfl
  | cons client clientList ih =>
    rw [List.flatMap_cons, ih, List.filter_cons]
    split
    case isTrue h =>
      obtain ⟨channel, hc⟩ : ∃ channel, channel ∈ appended channelList client := by
        simpa [mem_appended] using h
      rw [appended_unique hids hc]
      rfl
    case isFalse h =>
      have hnil : appended channelList client = [] := by
        simpa [appended, List.filter_eq_nil_iff] using h
      rw [hnil]
      rfl

lemma filter_appended (hnames : ((occupied clientList channelList).map Channel.channelName).Nodup)
    (hch : channel ∈ occupied clientList channelList) (hclient : client ∈ clientList) :
    (appended channelList client).filter (fun other => other.channelName = channel.channelName) =
      if clientInChannel channel client then [channel] else [] := by
  have hsame : ∀ other ∈ appended channelList client, other.channelName = channel.channelName →
      other = channel := fun other hother hname =>
    List.inj_on_of_nodup_map hnames (mem_occupied.mpr ⟨client, hclient, hother⟩) hch hname
  obtain ⟨_, _, hvis⟩ := mem_occupied.mp hch
  rw [mem_appended] at hvis
  split
  case isTrue hin =>
    rw [appended_unique hids (mem_appended.mpr ⟨hvis.1, hvis.2.1, hin⟩)]
    simp
  case isFalse hin =>
    refine List.filter_eq_nil_iff.mpr fun other hother hname => hin ?_
    have heq := hsame other hother (of_decide_eq_true hname)
    exact heq ▸ (mem_appended.mp hother).2.2

lemma values_placements (hnames : ((occupied clientList channelList).map Channel.channelName).Nodup)
    (hch : channel ∈ occupied clientList channelList) :
    values (placements clientList channelList) channel.channelName = occupants clientList channel := by
  have hclient : ∀ client ∈ clientList,
      values ((appended channelList client).map fun other => (other.channelName, client.nickname))
        channel.channelName = if clientInChannel channel client then [client.nickname] else [] := by
    intro client hclient
    rw [values, List.filter_map, List.map_map]
    have hfilter := filter_appended hids hnames hch hclient
    rw [show (fun p : Bytes × Bytes => decide (p.1 = channel.channelName)) ∘
      (fun other : Channel => (other.channelName, client.nickname)) =
      fun other => decide (other.channelName = channel.channelName) from rfl, hfilter]
    split
    case isTrue => rfl
    case isFalse => rfl
  rw [placements, values_flatMap, List.flatMap_congr hclient, occupants]
  clear hch hnames hclient
  induction clientList with
  | nil => rfl
  | cons client clientList ih =>
    rw [List.flatMap_cons, ih, List.filter_cons]
    split
    case isTrue => rfl
    case isFalse => rfl

end Ids

lemma mem_keys (name : Bytes) : name ∈ (group (placements clientList channelList)).keys ↔
    name ∈ (occupied clientList channelList).map Channel.channelName := by
  rw [← AList.mem_keys, mem_group, placements, List.map_flatMap]
  simp only [List.mem_flatMap, List.mem_map, mem_occupied, Prod.exists]
  grind

lemma pairs_perm {pairs : List ChannelClientPair}
    (hp : Pushes (.ok (group (placements clientList channelList)) : Except ε _) pairs) :
    pairs.Perm ((group (placements clientList channelList)).keys.map fun name =>
      ⟨name, values (placements clientList channelList) name⟩) := by
  obtain ⟨_, hm, hperm⟩ := hp
  cases hm
  rwa [entries_group, List.map_map] at hperm

/-- Each visible client is sent once, also where channels of one name are merged. -/
theorem clients_perm (hids : (channelList.map Channel.ID).Nodup) {pairs : List ChannelClientPair}
    (hp : Pushes (.ok (group (placements clientList channelList)) : Except ε _) pairs) :
    (pairs.flatMap ChannelClientPair.clients).Perm
      ((visible clientList channelList).map OnlineClient.nickname) := by
  rw [← placements_snd hids]
  refine ((pairs_perm hp).flatMap_right _).trans ?_
  rw [List.flatMap_map]
  exact flatMap_values_perm _

lemma names_of_faithful {pairs : List ChannelClientPair}
    (hp : Pushes (.ok (group (placements clientList channelList)) : Except ε _) pairs)
    (hf : Faithful clientList channelList pairs) :
    ((occupied clientList channelList).map Channel.channelName).Nodup := by
  have hnames := (hf.entries.symm.trans (pairs_perm hp)).map ChannelClientPair.channelName
  simp only [List.map_map, Function.comp_def, List.map_id'] at hnames
  exact hnames.nodup_iff.mpr (AList.keys_nodup _)

lemma faithful_of_names (hids : (channelList.map Channel.ID).Nodup) {pairs : List ChannelClientPair}
    (hp : Pushes (.ok (group (placements clientList channelList)) : Except ε _) pairs)
    (hnames : ((occupied clientList channelList).map Channel.channelName).Nodup) :
    Faithful clientList channelList pairs := by
  refine ⟨?_, clients_perm hids hp⟩
  have hkeys : (group (placements clientList channelList)).keys.Perm
      ((occupied clientList channelList).map Channel.channelName) :=
    (List.perm_ext_iff_of_nodup (AList.keys_nodup _) hnames).mpr mem_keys
  refine (pairs_perm hp).trans ((hkeys.map _).trans ?_)
  rw [List.map_map]
  refine List.Perm.of_eq (List.map_congr_left fun channel hch => ?_)
  rw [Function.comp_apply, values_placements hids hnames hch]

/-- The map is keyed by the display name, so that channels that share one become one entry. -/
theorem faithful_iff_names (clientList : List OnlineClient) (hids : (channelList.map Channel.ID).Nodup) :
    ∃ m, buildChannelClientMap (.ok clientList : Except ε _) (.ok channelList) = .ok m ∧
      ∀ pairs, Pushes (.ok m : Except ε _) pairs →
        (Faithful clientList channelList pairs ↔
          ((occupied clientList channelList).map Channel.channelName).Nodup) :=
  ⟨_, buildChannelClientMap_ok clientList channelList, fun _ hp =>
    ⟨names_of_faithful hp, faithful_of_names hids hp⟩⟩

def lounge : List Channel := [⟨1, ascii "Lobby"⟩, ⟨2, ascii "AFK"⟩, ⟨98, ascii "Quarters"⟩]

def guests : List OnlineClient :=
  [⟨1, ascii "ann", 0⟩, ⟨98, ascii "bob", 0⟩, ⟨2, ascii "cat", 0⟩, ⟨1, ascii "dan", 0⟩, ⟨1, ascii "query", 1⟩]

theorem lounge_faithful : ∃ m, buildChannelClientMap (.ok guests : Except Unit _) (.ok lounge) = .ok m ∧
    ∀ pairs, Pushes (.ok m : Except Unit _) pairs → Faithful guests lounge pairs := by
  obtain ⟨m, hm, hfaithful⟩ := faithful_iff_names (ε := Unit) guests (show (lounge.map Channel.ID).Nodup by decide)
  exact ⟨m, hm, fun pairs hp => (hfaithful pairs hp).mpr (by decide)⟩

theorem same_names_merged : ¬ ∀ (clientList : List OnlineClient) (channelList : List Channel),
    (channelList.map Channel.ID).Nodup → ∀ m pairs,
      buildChannelClientMap (.ok clientList : Except Unit _) (.ok channelList) = .ok m →
      Pushes (.ok m : Except Unit _) pairs → Faithful clientList channelList pairs := by
  intro h
  have hf := h [⟨1, ascii "ann", 0⟩, ⟨2, ascii "bob", 0⟩] [⟨1, ascii "AFK"⟩, ⟨2, ascii "AFK"⟩] (by decide)
    _ [⟨ascii "AFK", [ascii "ann", ascii "bob"]⟩] rfl ⟨_, rfl, by decide⟩
  exact absurd hf.entries.length_eq (by decide)

end TeamspeakWebserver.Webserver
