import Mathlib.Data.List.AList
import TeamspeakWebserver.Bot.Dispatch

/-! The file finder of `bot.py`, and the names of the channels that its `tsc` keeps. -/

namespace TeamspeakWebserver.Bot

open Python

inductive Folder where
  | mk (dirs : List (Str × Folder)) (files : List Str)

mutual

def Folder.walk : Folder → List (List Str × List Str)
  | .mk dirs files => (dirs.map Prod.fst, files) :: walkDirs dirs

def walkDirs : List (Str × Folder) → List (List Str × List Str)
  | [] => []
  | dir :: dirs => dir.2.walk ++ walkDirs dirs

end

def Folder.sub : Folder → Str → Option Folder
  | .mk dirs _, name => dirs.lookup name

/-- What the bot finds when an event has come: `fileDir` is `FILE_DIR`, and `channelList` has the `cid`
and the `channel_name` of each channel. -/
structure World where
  surroundings : Surroundings
  fileDir : Folder
  channelList : List (Str × Str)

inductive Message where
  | globalMsg (gmsg : Str)
  | privateMsg (clid : Value) (cmsg : Str)
deriving DecidableEq

abbrev CidMap := AList fun _ : Str => Str

def buildCidToNameMap (channelList : List (Str × Str)) (map : CidMap) : CidMap :=
  channelList.foldl (fun map chan => map.insert chan.1 chan.2) map

/-- The map that a lookup goes by: it is only built where nothing is in it. -/
def current (w : World) (map : CidMap) : CidMap :=
  if map.entries.length = 0 then buildCidToNameMap w.channelList map else map

def translateCidToName (w : World) (map : CidMap) (cid : Str) : Except Exn (Str × CidMap) :=
  match (current w map).lookup cid with
  | some name => .ok (name, current w map)
  | none => .error .keyError

def possibleFilesHeader : Str := "[B][COLOR=#C02F1D]##### POSSIBLE FILES #####[/COLOR][/B]".toList

def endOfFileList : Str := "[B][COLOR=#C02F1D]##### END OF FILE LIST #####[/COLOR][/B]".toList

def cidOf (channelName : Str) : Str := channelName.drop 8

def channelMessages (invokerid : Value) (realChannelname : Str) (files : List Str) : List Message :=
  .privateMsg invokerid ("[COLOR=#1287A8]".toList ++ realChannelname ++ "[/COLOR]".toList) ::
    files.map fun file =>
      .privateMsg invokerid ("\t[COLOR=#DA621E]".toList ++ file ++ "[/COLOR]".toList)

/-- The second loop of `start_file_finder`. -/
def tellFiles (w : World) (invokerid : Value) :
    List (Str × List Str) → CidMap → Except Exn (List Message × CidMap)
  | [], map => .ok ([], map)
  | d :: ds, map => do
    let name ← translateCidToName w map (cidOf d.1)
    let rest ← tellFiles w invokerid ds name.2
    return (channelMessages invokerid name.1 d.2 ++ rest.1, rest.2)

section Finder

variable (extract : Str → List Str → List (Str × ℕ))

/-- `extract` is `process.extract`, which has the best matches with their ratios. -/
def ffIterateFiles (fileDir : Folder) (topdir toFind : Str) : Option (Str × List Str) :=
  let possibleFiles := (((fileDir.sub topdir).map Folder.walk).getD []).flatMap fun found =>
    ((extract toFind found.2).filter fun tr => 60 ≤ tr.2).map Prod.fst
  if possibleFiles.length ≠ 0 then some (topdir, possibleFiles) else none

/-- The first loop of `start_file_finder`. -/
def possibleFiles (fileDir : Folder) (fileToFind : Str) : List (Str × List Str) :=
  fileDir.walk.flatMap fun found =>
    (found.1.filter (· ≠ "internal".toList)).filterMap fun dirp =>
      ffIterateFiles extract fileDir dirp fileToFind

def startFileFinder (w : World) (fileToFind : Str) (invokerid : Value) (map : CidMap) :
    Except Exn (List Message × CidMap) := do
  let told ← tellFiles w invokerid (possibleFiles extract w.fileDir fileToFind) map
  return (.privateMsg invokerid possibleFilesHeader :: (told.1 ++ [.privateMsg invokerid endOfFileList]),
    told.2)

def perform (w : World) : Call → CidMap → Except Exn (List Message × CidMap)
  | .globalMsg gmsg, map => .ok ([.globalMsg gmsg], map)
  | .startFileFinder file _ userid, map => startFileFinder extract w file userid map

def performAll (w : World) : List Call → CidMap → Except Exn (List Message × CidMap)
  | [], map => .ok ([], map)
  | call :: calls, map => do
    let done ← perform extract w call map
    let rest ← performAll w calls done.2
    return (done.1 ++ rest.1, rest.2)

/-- The loop of `start`, with what the calls of a turn do before the next event is waited for. -/
def Globals.serve (bot : Globals) : CidMap → List (World × Event) → Except Exn (List Message × CidMap)
  | map, [] => .ok ([], map)
  | map, (w, e) :: rest => do
    let calls ← bot.process w.surroundings e
    let done ← performAll extract w calls map
    let others ← bot.serve done.2 rest
    return (done.1 ++ others.1, others.2)

/-! ### What is told, by the names that the bot goes by -/

def Call.hits (w : World) : Call → List (Str × List Str)
  | .globalMsg _ => []
  | .startFileFinder file _ _ => possibleFiles extract w.fileDir file

def Call.reply (names : CidMap) (w : World) : Call → List Message
  | .globalMsg gmsg => [.globalMsg gmsg]
  | .startFileFinder file user userid =>
    .privateMsg userid possibleFilesHeader ::
      ((Call.hits extract w (.startFileFinder file user userid)).flatMap (fun hit =>
        channelMessages userid ((names.lookup (cidOf hit.1)).getD []) hit.2) ++
      [.privateMsg userid endOfFileList])

namespace Globals

variable (bot : Globals)

def calls (p : World × Event) : List Call :=
  match bot.process p.1.surroundings p.2 with
  | .ok calls => calls
  | .error _ => []

def hits (p : World × Event) : List (Str × List Str) := (bot.calls p).flatMap (Call.hits extract p.1)

def replies (names : CidMap) (p : World × Event) : List Message :=
  (bot.calls p).flatMap (Call.reply extract names p.1)

def names : List (World × Event) → CidMap
  | [] => ∅
  | p :: rest => if bot.hits extract p ≠ [] then buildCidToNameMap p.1.channelList ∅ else names rest

def Survives (names : CidMap) (p : World × Event) : Prop :=
  (p.2.invokerid = .int 0 ∨ bot.Tolerable (bot.tokenized p.2)) ∧
    ∀ hit ∈ bot.hits extract p, (names.lookup (cidOf hit.1)).isSome = true

end Globals

end Finder

section Lookup

variable {w : World} {map : CidMap} {cid : Str} {clid : Value} {ds : List (Str × List Str)}

lemma current_of_named (h : (map.lookup cid).isSome = true) : current w map = map := by
  rw [current, if_neg]
  intro h0
  have hempty : map = ∅ := AList.ext (List.length_eq_zero_iff.mp h0)
  rw [hempty, AList.lookup_empty] at h
  cases h

lemma current_idem (h : ((current w map).lookup cid).isSome = true) :
    current w (current w map) = current w map :=
  current_of_named h

lemma translateCidToName_ok (h : ((current w map).lookup cid).isSome = true) :
    translateCidToName w map cid = .ok (((current w map).lookup cid).getD [], current w map) := by
  obtain ⟨name, hname⟩ := Option.isSome_iff_exists.mp h
  rw [translateCidToName, hname]
  rfl

lemma named_of_returns (h : Returns (translateCidToName w map cid)) :
    ((current w map).lookup cid).isSome = true := by
  rw [translateCidToName] at h
  split at h
  case h_1 name hname => rw [hname, Option.isSome_some]
  case h_2 => exact absurd h (not_returns_error _)

def after {α : Type} (w : World) (map : CidMap) (hits : List α) : CidMap :=
  if hits.isEmpty then map else current w map

lemma tellFiles_ok (h : ∀ d ∈ ds, ((current w map).lookup (cidOf d.1)).isSome = true) :
    tellFiles w clid ds map = .ok (ds.flatMap (fun d =>
      channelMessages clid (((current w map).lookup (cidOf d.1)).getD []) d.2), after w map ds) := by
  induction ds generalizing map with
  | nil => rfl
  | cons d ds ih =>
    obtain ⟨hd, hds⟩ := List.forall_mem_cons.mp h
    have hstay := current_idem hd
    have hrest : tellFiles w clid ds (current w map) = _ := ih (by rwa [hstay])
    have hafter : after w (current w map) ds = current w map := by
      rw [after, hstay, ite_self]
    rw [tellFiles, translateCidToName_ok hd]
    simp only [bind, Except.bind, hrest, hafter, hstay]
    rfl

lemma named_of_tellFiles (h : Returns (tellFiles w clid ds map)) :
    ∀ d ∈ ds, ((current w map).lookup (cidOf d.1)).isSome = true := by
  induction ds generalizing map with
  | nil => exact List.forall_mem_nil _
  | cons d ds ih =>
    rw [tellFiles] at h
    obtain ⟨name, hname, hrest⟩ := returns_bind_iff.mp h
    have hd := named_of_returns ⟨name, hname⟩
    rw [translateCidToName_ok hd] at hname
    obtain rfl := Except.ok.inj hname
    obtain ⟨rest, hrest, -⟩ := returns_bind_iff.mp hrest
    have hds := ih ⟨rest, hrest⟩
    rw [current_idem hd] at hds
    exact List.forall_mem_cons.mpr ⟨hd, hds⟩

end Lookup

section Calls

variable {extract : Str → List Str → List (Str × ℕ)} {w : World} {map : CidMap} {calls : List Call}
  {call : Call}

lemma perform_ok (h : ∀ hit ∈ call.hits extract w, ((current w map).lookup (cidOf hit.1)).isSome = true) :
    perform extract w call map =
      .ok (call.reply extract (current w map) w, after w map (call.hits extract w)) := by
  cases call with
  | globalMsg gmsg => rfl
  | startFileFinder file user userid =>
    have htold : tellFiles w userid (possibleFiles extract w.fileDir file) map = _ := tellFiles_ok h
    rw [perform, startFileFinder, htold]
    rfl

lemma named_of_perform (h : Returns (perform extract w call map)) :
    ∀ hit ∈ call.hits extract w, ((current w map).lookup (cidOf hit.1)).isSome = true := by
  cases call with
  | globalMsg gmsg => exact List.forall_mem_nil _
  | startFileFinder file user userid =>
    rw [perform, startFileFinder] at h
    obtain ⟨told, htold, -⟩ := returns_bind_iff.mp h
    exact named_of_tellFiles ⟨told, htold⟩

lemma current_after {α : Type} (hits : List (Str × α))
    (h : ∀ hit ∈ hits, ((current w map).lookup (cidOf hit.1)).isSome = true) :
    current w (after w map hits) = current w map := by
  cases hits with
  | nil => rfl
  | cons hit hits => exact current_idem (h hit List.mem_cons_self)

lemma after_append {α : Type} (hits hits' : List (Str × α))
    (h : ∀ hit ∈ hits, ((current w map).lookup (cidOf hit.1)).isSome = true) :
    after w (after w map hits) hits' = after w map (hits ++ hits') := by
  cases hits with
  | nil => rfl
  | cons hit hits =>
    have hstay : current w (current w map) = current w map := current_idem (h hit List.mem_cons_self)
    have hleft : after w map (hit :: hits) = current w map := rfl
    rw [hleft, after, hstay, ite_self]
    rfl

lemma performAll_ok (h : ∀ hit ∈ calls.flatMap (Call.hits extract w),
    ((current w map).lookup (cidOf hit.1)).isSome = true) :
    performAll extract w calls map = .ok (calls.flatMap (Call.reply extract (current w map) w),
      after w map (calls.flatMap (Call.hits extract w))) := by
  induction calls generalizing map with
  | nil => rfl
  | cons call calls ih =>
    rw [List.flatMap_cons, List.forall_mem_append] at h
    have hcurrent := current_after _ h.1
    have hrest : performAll extract w calls (after w map (call.hits extract w)) = _ :=
      ih (by rw [hcurrent]; exact h.2)
    rw [hcurrent, after_append _ _ h.1] at hrest
    rw [performAll, perform_ok h.1]
    simp only [bind, Except.bind, hrest]
    rfl

lemma named_of_performAll (h : Returns (performAll extract w calls map)) :
    ∀ hit ∈ calls.flatMap (Call.hits extract w), ((current w map).lookup (cidOf hit.1)).isSome = true := by
  induction calls generalizing map with
  | nil => exact List.forall_mem_nil _
  | cons call calls ih =>
    rw [performAll] at h
    obtain ⟨done, hdone, hrest⟩ := returns_bind_iff.mp h
    have hcall := named_of_perform ⟨done, hdone⟩
    rw [perform_ok hcall] at hdone
    obtain rfl := Except.ok.inj hdone
    obtain ⟨rest, hrest, -⟩ := returns_bind_iff.mp hrest
    have hcalls := ih ⟨rest, hrest⟩
    rw [current_after _ hcall] at hcalls
    rw [List.flatMap_cons, List.forall_mem_append]
    exact ⟨hcall, hcalls⟩

end Calls

namespace Globals

variable {extract : Str → List Str → List (Str × ℕ)} {bot : Globals} {map : CidMap} {w : World}
  {e : Event} {rest : List (World × Event)}

def known (extract : Str → List Str → List (Str × ℕ)) (bot : Globals) (map : CidMap)
    (events : List (World × Event)) : CidMap :=
  if map.entries.length = 0 then bot.names extract events else map

lemma known_of_hits (h : bot.hits extract (w, e) ≠ []) :
    bot.known extract map ((w, e) :: rest) = current w map := by
  rw [known, current, names, if_pos h]
  split
  case isTrue h0 =>
    have hempty : map = ∅ := AList.ext (List.length_eq_zero_iff.mp h0)
    rw [hempty]
  case isFalse => rfl

lemma known_of_no_hits (h : bot.hits extract (w, e) = []) :
    bot.known extract map ((w, e) :: rest) = bot.known extract map rest := by
  rw [known, known, names, if_neg (not_not.mpr h)]

lemma known_after (h : ∀ hit ∈ bot.hits extract (w, e),
    ((bot.known extract map ((w, e) :: rest)).lookup (cidOf hit.1)).isSome = true) :
    bot.known extract (after w map (bot.hits extract (w, e))) rest =
      bot.known extract map ((w, e) :: rest) := by
  cases hhits : bot.hits extract (w, e) with
  | nil =>
    rw [known_of_no_hits hhits]
    rfl
  | cons hit hits =>
    have hne : bot.hits extract (w, e) ≠ [] := hhits ▸ List.cons_ne_nil hit hits
    rw [known_of_hits hne] at h ⊢
    have hnamed := h hit (hhits ▸ List.mem_cons_self)
    have hafter : after w map (hit :: hits) = current w map := rfl
    rw [hafter, known, if_neg]
    intro h0
    have hempty : current w map = ∅ := AList.ext (List.length_eq_zero_iff.mp h0)
    rw [hempty, AList.lookup_empty] at hnamed
    cases hnamed

lemma current_eq_known (h : ∃ hit, hit ∈ bot.hits extract (w, e)) :
    current w map = bot.known extract map ((w, e) :: rest) := by
  obtain ⟨hit, hhit⟩ := h
  exact (known_of_hits (List.ne_nil_of_mem hhit)).symm

lemma reply_congr {call : Call} {names names' : CidMap}
    (h : (∃ hit, hit ∈ call.hits extract w) → names = names') :
    call.reply extract names w = call.reply extract names' w := by
  cases call with
  | globalMsg gmsg => rfl
  | startFileFinder file user userid =>
    rw [Call.reply, Call.reply]
    congr 2
    exact List.flatMap_congr fun hit hhit => by rw [h ⟨hit, hhit⟩]

lemma process_of_survives {N : CidMap} (h : bot.Survives extract N (w, e)) :
    bot.process w.surroundings e = .ok (bot.calls (w, e)) := by
  obtain ⟨calls, hcalls⟩ := process_returns_iff (w := w.surroundings) e |>.mpr h.1
  rw [Globals.calls, hcalls]

lemma serve_ok (events : List (World × Event)) (map : CidMap)
    (h : ∀ p ∈ events, bot.Survives extract (bot.known extract map events) p) :
    ∃ map', bot.serve extract map events =
      .ok (events.flatMap (bot.replies extract (bot.known extract map events)), map') := by
  induction events generalizing map with
  | nil => exact ⟨map, rfl⟩
  | cons p rest ih =>
    obtain ⟨w, e⟩ := p
    obtain ⟨hp, hrest⟩ := List.forall_mem_cons.mp h
    have hnamed : ∀ hit ∈ bot.hits extract (w, e),
        ((current w map).lookup (cidOf hit.1)).isSome = true := by
      intro hit hhit
      have hcurrent : current w map = bot.known extract map ((w, e) :: rest) :=
        current_eq_known ⟨hit, hhit⟩
      rw [hcurrent]
      exact hp.2 hit hhit
    have hdone := performAll_ok hnamed
    have hreplies : (bot.calls (w, e)).flatMap (Call.reply extract (current w map) w) =
        bot.replies extract (bot.known extract map ((w, e) :: rest)) (w, e) := by
      refine List.flatMap_congr fun call hcall => reply_congr fun ⟨hit, hhit⟩ => ?_
      exact current_eq_known ⟨hit, List.mem_flatMap.mpr ⟨call, hcall, hhit⟩⟩
    have hknown := known_after hp.2
    obtain ⟨map', hothers⟩ := ih (after w map (bot.hits extract (w, e))) (by rwa [hknown])
    rw [hknown] at hothers
    refine ⟨map', ?_⟩
    rw [serve, process_of_survives hp]
    simp only [bind, Except.bind]
    rw [hdone]
    simp only [hreplies]
    rw [show after w map ((bot.calls (w, e)).flatMap (Call.hits extract w)) =
      after w map (bot.hits extract (w, e)) from rfl, hothers]
    rfl

lemma survives_of_serve (events : List (World × Event)) (map : CidMap)
    (h : Returns (bot.serve extract map events)) :
    ∀ p ∈ events, bot.Survives extract (bot.known extract map events) p := by
  induction events generalizing map with
  | nil => exact List.forall_mem_nil _
  | cons p rest ih =>
    obtain ⟨w, e⟩ := p
    rw [serve] at h
    obtain ⟨calls, hcalls, h⟩ := returns_bind_iff.mp h
    obtain ⟨done, hdone, h⟩ := returns_bind_iff.mp h
    obtain ⟨others, hothers, -⟩ := returns_bind_iff.mp h
    have heq : bot.calls (w, e) = calls := by
      rw [Globals.calls, hcalls]
    have hnamed : ∀ hit ∈ bot.hits extract (w, e),
        ((current w map).lookup (cidOf hit.1)).isSome = true := by
      rw [hits, heq]
      exact named_of_performAll ⟨done, hdone⟩
    have hp : bot.Survives extract (bot.known extract map ((w, e) :: rest)) (w, e) := by
      refine ⟨(process_returns_iff e).mp ⟨calls, hcalls⟩, fun hit hhit => ?_⟩
      rw [← current_eq_known ⟨hit, hhit⟩]
      exact hnamed hit hhit
    rw [← heq, performAll_ok hnamed] at hdone
    obtain rfl := Except.ok.inj hdone
    have hrest := ih _ ⟨others, hothers⟩
    have hknown := known_after hp.2
    rw [hits] at hknown
    rw [hknown] at hrest
    exact List.forall_mem_cons.mpr ⟨hp, hrest⟩

theorem names_frozen (extract : Str → List Str → List (Str × ℕ)) (bot : Globals)
    (events : List (World × Event)) :
    (Returns (bot.serve extract ∅ events) ↔
      ∀ p ∈ events, bot.Survives extract (bot.names extract events) p) ∧
    ∀ done, bot.serve extract ∅ events = .ok done →
      done.1 = events.flatMap (bot.replies extract (bot.names extract events)) := by
  have hknown : bot.known extract ∅ events = bot.names extract events := rfl
  have hsurvives : Returns (bot.serve extract ∅ events) → _ := survives_of_serve events ∅
  have hok : (∀ p ∈ events, bot.Survives extract (bot.known extract ∅ events) p) → _ := serve_ok events ∅
  rw [hknown] at hsurvives hok
  refine ⟨⟨hsurvives, fun h => ?_⟩, fun done hdone => ?_⟩
  · obtain ⟨map', hserve⟩ := hok h
    exact ⟨_, hserve⟩
  · obtain ⟨map', hserve⟩ := hok (hsurvives ⟨done, hdone⟩)
    rw [hserve] at hdone
    rw [← Except.ok.inj hdone]

def sameName (toFind : Str) (fns : List Str) : List (Str × ℕ) :=
  fns.map fun fn => (fn, if fn = toFind then 100 else 0)

def uploads : Folder :=
  .mk [("channel_1".toList, .mk [] ["map".toList]), ("channel_2".toList, .mk [] ["song".toList]),
    ("internal".toList, .mk [] ["song".toList])] []

def searching (file : Str) (channelList : List (Str × Str)) : World × Event :=
  (⟨still, uploads, channelList⟩, message ("!find ".toList ++ file))

theorem names_frozen_later :
    let bot : Globals := ⟨latin, fun _ => none⟩
    let first := searching "map".toList [("1".toList, "Lobby".toList)]
    let later := searching "song".toList [("1".toList, "Hall".toList), ("2".toList, "Music".toList)]
    (∃ done, bot.serve sameName ∅ [first, first] = .ok done ∧
      done.1 = [first, first].flatMap (bot.replies sameName (bot.names sameName [first, first]))) ∧
    ¬ ∀ p ∈ [first, later], bot.Survives sameName (bot.names sameName [first, later]) p := by
  intro bot first later
  have hfound : Returns (bot.serve sameName ∅ [first, first]) := ⟨_, rfl⟩
  have hlost : bot.serve sameName ∅ [first, later] = .error .keyError := rfl
  obtain ⟨done, hdone⟩ := hfound
  refine ⟨⟨done, hdone, (names_frozen sameName bot [first, first]).2 done hdone⟩, fun h => ?_⟩
  have hreturns := (names_frozen sameName bot [first, later]).1.mpr h
  rw [hlost] at hreturns
  exact not_returns_error _ hreturns

end Globals

end TeamspeakWebserver.Bot
