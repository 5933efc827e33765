import Mathlib.Data.PNat.Basic
import TeamspeakWebserver.Text.Decimal
import TeamspeakWebserver.Webserver.GlobalMessage

/-! From the line of a text message on the ServerQuery connection to the web clients
(`cmd/tsc/smsg.go`). -/

namespace TeamspeakWebserver.Webserver

open Text

def joinWords (onlyMsg : Bytes) : Bytes :=
  (split (ascii "\\s") onlyMsg).foldl (fun serverMsg word => serverMsg ++ (word ++ ascii " ")) []

/-- One turn of the inner loop of `listenForMessages`: what it sends on `ServerMsgChan`, if anything.
`none` is a slice out of range. -/
def listenForMessages (l : Bytes) : Option (Option Bytes) :=
  match find (ascii "invokerid=0") l with
  | some _ => some none
  | none => match find (ascii "msg=") l with
    | none => some none
    | some msgIDStart => match find (ascii "invokerid=") l with
      | none => some none
      | some msgEnd =>
        if msgIDStart + 4 ≤ msgEnd then
          some (some (joinWords ((l.take msgEnd).drop (msgIDStart + 4))))
        else none

def relayed (msg : Bytes) (k : ℕ+) (nickname : Bytes) : Bytes :=
  ascii "notifytextmessage targetmode=3 " ++ ((sendGlobalMsg msg).drop (ascii "gm ").length ++
    (ascii " invokerid=" ++ (decimal k ++ (ascii " invokername=" ++ nickname))))

def words (s : Bytes) : List Bytes := (s.splitOn space).filter fun word => 0 < word.length

def Kept (msg : Bytes) (k : ℕ+) (nickname : Bytes) : Prop :=
  ∃ s, listenForMessages (relayed msg k nickname) = some (some s) ∧ words s = words msg

def Unmarked (msg nickname : Bytes) : Prop :=
  (∀ word ∈ words msg, ¬ ascii "\\s" <:+: word ∧ ¬ ascii "invokerid=" <:+: word) ∧
    ¬ ascii "invokerid=0" <:+: nickname

section Words

variable {s word msg pat : Bytes} {b : UInt8}

lemma words_append (p q : Bytes) : words (p ++ space :: q) = words p ++ words q := by
  rw [words, List.splitOn_append_cons_self, List.filter_append, words, words]

lemma words_of_not_mem (h : space ∉ word) (hne : word ≠ []) : words word = [word] := by
  rw [words, List.splitOn_eq_singleton h, List.filter_cons_of_pos]
  · rfl
  · simpa using List.length_pos_of_ne_nil hne

lemma mem_words (h : word ∈ words s) : space ∉ word ∧ word ≠ [] := by
  obtain ⟨hm, hl⟩ := List.mem_filter.mp h
  exact ⟨not_mem_of_splitOn hm, List.ne_nil_of_length_pos (by simpa using hl)⟩

lemma words_ended (ps : List Bytes) : words (ps.flatMap fun p => p ++ [space]) = ps.flatMap words := by
  induction ps with
  | nil => rfl
  | cons p ps ih =>
    rw [List.flatMap_cons, List.append_assoc, List.singleton_append, words_append, ih,
      List.flatMap_cons]

lemma words_flatten (s : Bytes) : (words s).flatten = s.filter fun b => !b == space := by
  have hne : words s = (s.splitOn space).filter fun word => word ≠ [] := by
    rw [words]
    refine List.filter_congr fun word _ => ?_
    simp [List.length_pos_iff]
  rw [hne, List.flatten_filter_ne_nil, splitOn_flatten]

lemma argument_words (msg : Bytes) : argument msg = (words msg).flatMap fun word => word ++ ascii "\\s" :=
  rfl

lemma joinWords_eq (onlyMsg : Bytes) :
    joinWords onlyMsg = (split (ascii "\\s") onlyMsg).flatMap fun word => word ++ [space] := by
  have hfold (ps : List Bytes) (s : Bytes) : ps.foldl (fun serverMsg word => serverMsg ++ (word ++ ascii " ")) s =
      s ++ ps.flatMap fun word => word ++ [space] := by
    induction ps generalizing s with
    | nil => simp
    | cons p ps ih =>
      rw [List.foldl_cons, ih, List.flatMap_cons, List.append_assoc]
      rfl
  exact hfold _ []

lemma length_words_joinWords (onlyMsg : Bytes) : (words (joinWords onlyMsg)).flatten.length ≤
    ((split (ascii "\\s") onlyMsg).flatten.filter fun b => !b == space).length := by
  rw [words_flatten, joinWords_eq]
  generalize split (ascii "\\s") onlyMsg = ps
  induction ps with
  | nil => rfl
  | cons p ps ih =>
    rw [List.flatMap_cons, List.flatten_cons, List.filter_append, List.filter_append,
      List.filter_append, List.length_append, List.length_append, List.length_append]
    have hspace : ([space].filter fun b => !b == space) = [] := by decide
    rw [hspace, List.length_nil]
    omega

lemma sep_ascii : ascii "\\s" = 92 :: [115] := by decide

lemma infix_argument (h92 : 92 ∉ b :: pat) (h115 : b ≠ 115) :
    b :: pat <:+: argument msg ↔ ∃ word ∈ words msg, b :: pat <:+: word := by
  rw [argument_words, sep_ascii]
  induction words msg with
  | nil => simp
  | cons word ws ih =>
    have h : b ∉ [115] := fun hm => h115 (List.mem_singleton.mp hm)
    rw [List.flatMap_cons, List.append_assoc, List.cons_append, infix_separator h92, infix_skip h, ih,
      List.exists_mem_cons_iff]

end Words

section Line

variable {msg nickname : Bytes} {k : ℕ+}

def signature (k : ℕ+) (nickname : Bytes) : Bytes :=
  ascii "invokerid=" ++ (decimal k ++ space :: (ascii "invokername=" ++ nickname))

lemma relayed_eq (msg : Bytes) (k : ℕ+) (nickname : Bytes) : relayed msg k nickname =
    ascii "notifytextmessage" ++ space :: (ascii "targetmode=3" ++ space ::
      (ascii "msg=" ++ (argument msg ++ space :: signature k nickname))) := by
  have hdrop : (sendGlobalMsg msg).drop (ascii "gm ").length = ascii "msg=" ++ argument msg := by
    rw [sendGlobalMsg_eq, show ascii "gm msg=" = ascii "gm " ++ ascii "msg=" by decide,
      List.append_assoc, List.drop_left]
  rw [relayed, hdrop, signature, show ascii " invokerid=" = space :: ascii "invokerid=" by decide,
    show ascii " invokername=" = space :: ascii "invokername=" by decide,
    show ascii "notifytextmessage targetmode=3 " =
      ascii "notifytextmessage" ++ space :: (ascii "targetmode=3" ++ [space]) by decide]
  simp

lemma serverCheck_relayed : ascii "invokerid=0" <:+: relayed msg k nickname ↔
    (∃ word ∈ words msg, ascii "invokerid=0" <:+: word) ∨ ascii "invokerid=0" <:+: nickname := by
  have hcons : ascii "invokerid=0" = 105 :: ascii "nvokerid=0" := by decide
  have hspace : space ∉ ascii "invokerid=0" := by decide
  have harg : ascii "invokerid=0" <:+: ascii "msg=" ++ argument msg ↔
      ∃ word ∈ words msg, ascii "invokerid=0" <:+: word := by
    rw [hcons, infix_skip (by decide), infix_argument (by decide) (by decide)]
  have hid : ¬ ascii "invokerid=0" <:+: ascii "invokerid=" ++ decimal k := by
    obtain ⟨d, ds, hd, h48⟩ := head_decimal k.ne_zero
    have hdigits := isDigit_decimal k
    rw [hd] at hdigits ⊢
    have hmem : d ∉ ascii "invokerid=0" := by
      intro hm
      have hall : (ascii "invokerid=").any isDigit = false := by decide
      rw [show ascii "invokerid=0" = ascii "invokerid=" ++ [48] by decide] at hm
      rcases List.mem_append.mp hm with hm | hm
      · have hdigit := hdigits d List.mem_cons_self
        exact List.any_eq_false.mp hall d hm hdigit
      · exact h48 (List.mem_singleton.mp hm)
    rw [infix_separator hmem, not_or]
    refine ⟨by decide, fun hi => ?_⟩
    have h105 := hdigits 105 (List.mem_cons_of_mem d (hi.subset (by decide)))
    exact absurd h105 (by decide)
  have hname : ascii "invokerid=0" <:+: ascii "invokername=" ++ nickname ↔
      ascii "invokerid=0" <:+: nickname := by
    rw [show ascii "invokername=" ++ nickname = ascii "invokern" ++ 97 :: (ascii "me=" ++ nickname) by
      simp [ascii], infix_separator (by decide), or_iff_right (by decide)]
    rw [hcons, infix_skip (by decide)]
  rw [relayed_eq, infix_separator hspace, infix_separator hspace, ← List.append_assoc (ascii "msg="),
    infix_separator hspace, signature, ← List.append_assoc (ascii "invokerid="),
    infix_separator hspace, harg, hname]
  have h1 : ¬ ascii "invokerid=0" <:+: ascii "notifytextmessage" := by decide
  have h2 : ¬ ascii "invokerid=0" <:+: ascii "targetmode=3" := by decide
  simp only [h1, h2, hid, false_or]

lemma msgIDStart_relayed : find (ascii "msg=") (relayed msg k nickname) = some 31 := by
  rw [relayed_eq, find_separator (by decide) (by decide), find_separator (by decide) (by decide),
    find_prefix]
  decide

lemma msgEnd_relayed (msg : Bytes) (k : ℕ+) (nickname : Bytes) : find (ascii "invokerid=") (relayed msg k nickname) =
    (find (ascii "invokerid=") (argument msg ++ space :: signature k nickname)).map (· + 35) := by
  have hcons : ascii "invokerid=" = 105 :: ascii "nvokerid=" := by decide
  rw [relayed_eq, find_separator (by decide) (by decide), find_separator (by decide) (by decide),
    hcons, find_skip (by decide), Option.map_map, Option.map_map]
  rfl

lemma listenForMessages_relayed (h : ¬ ascii "invokerid=0" <:+: relayed msg k nickname) {j : ℕ}
    (hj : find (ascii "invokerid=") (argument msg ++ space :: signature k nickname) = some j) :
    listenForMessages (relayed msg k nickname) =
      some (some (joinWords ((argument msg ++ space :: signature k nickname).take j))) := by
  have hdrop : ((relayed msg k nickname).take (j + 35)).drop 35 =
      (argument msg ++ space :: signature k nickname).take j := by
    have hsplit : relayed msg k nickname = ascii "notifytextmessage targetmode=3 msg=" ++
        (argument msg ++ space :: signature k nickname) := by
      rw [relayed_eq, show ascii "notifytextmessage targetmode=3 msg=" = ascii "notifytextmessage" ++
        space :: (ascii "targetmode=3" ++ space :: ascii "msg=") by decide]
      simp
    have hlen : (ascii "notifytextmessage targetmode=3 msg=").length = 35 := by decide
    rw [hsplit, List.drop_take, Nat.add_sub_cancel, ← hlen, List.drop_left]
  have hmsgEnd := msgEnd_relayed msg k nickname
  rw [hj, Option.map_some] at hmsgEnd
  simp only [listenForMessages, find_of_absent h, msgIDStart_relayed, hmsgEnd]
  rw [if_pos (by omega), show 31 + 4 = 35 by rfl, hdrop]

lemma listenForMessages_unmarked (h : ¬ ascii "invokerid=0" <:+: relayed msg k nickname)
    (hmark : ¬ ascii "invokerid=" <:+: argument msg) :
    listenForMessages (relayed msg k nickname) = some (some (joinWords (argument msg ++ [space]))) := by
  have hj : find (ascii "invokerid=") (argument msg ++ space :: signature k nickname) =
      some ((argument msg).length + 1) := by
    rw [find_separator (by decide) hmark, signature, find_prefix, Option.map_some, Nat.zero_add]
  rw [listenForMessages_relayed h hj, List.take_length_add_append]
  rfl

end Line

section Kept

variable {msg nickname : Bytes} {k : ℕ+}

lemma kept_of_unmarked (h : Unmarked msg nickname) : Kept msg k nickname := by
  obtain ⟨hwords, hnick⟩ := h
  have hcheck : ¬ ascii "invokerid=0" <:+: relayed msg k nickname := by
    rw [serverCheck_relayed]
    rintro (⟨word, hw, hi⟩ | hi)
    · apply (hwords word hw).2
      have hpre : ascii "invokerid=" <:+: ascii "invokerid=0" := by decide
      exact hpre.trans hi
    · exact hnick hi
  have hmark : ¬ ascii "invokerid=" <:+: argument msg := by
    rw [show ascii "invokerid=" = 105 :: ascii "nvokerid=" by decide,
      infix_argument (by decide) (by decide)]
    rintro ⟨word, hw, hi⟩
    exact (hwords word hw).2 hi
  refine ⟨_, listenForMessages_unmarked hcheck hmark, ?_⟩
  have hsame (word : Bytes) (hw : word ∈ words msg) : split (92 :: [115]) word = [word] := by
    apply split_of_absent
    rw [← sep_ascii]
    exact (hwords word hw).1
  rw [joinWords_eq, words_ended, argument_words, sep_ascii, split_ended (by decide),
    split_of_absent (by decide), List.flatMap_congr hsame, List.flatMap_singleton', List.flatMap_append,
    List.flatMap_singleton, show words [space] = [] by decide, List.append_nil]
  have hword (word : Bytes) (hw : word ∈ words msg) : words word = [word] :=
    words_of_not_mem (mem_words hw).1 (mem_words hw).2
  rw [List.flatMap_congr hword, List.flatMap_singleton']

/-- Without the escaped spaces, the encoded message is not longer than the words of the message, and
shorter if one of them has an escaped space itself. -/
lemma length_split_argument (msg : Bytes) :
    (split (ascii "\\s") (argument msg)).flatten.length ≤ (words msg).flatten.length ∧
      ((∃ word ∈ words msg, ascii "\\s" <:+: word) →
        (split (ascii "\\s") (argument msg)).flatten.length < (words msg).flatten.length) := by
  have hend : split (92 :: [115]) (((words msg).flatMap fun w => w ++ 92 :: [115]) ++ []) = _ :=
    split_ended (by decide) (words msg) []
  rw [List.append_nil, split_of_absent (s := []) (by decide)] at hend
  rw [argument_words, sep_ascii, hend]
  clear hend
  induction words msg with
  | nil => simp
  | cons word ws ih =>
    have hword : (split (92 :: [115]) word).flatten.length ≤ word.length ∧ _ :=
      length_split_flatten (by decide) word
    obtain ⟨hle, hlt⟩ := hword
    rw [List.flatMap_cons, List.append_assoc, List.flatten_append, List.flatten_cons,
      List.exists_mem_cons_iff]
    simp only [List.length_append]
    constructor
    · have := ih.1
      omega
    · rintro (h | h)
      · have h1 := hlt h
        have h2 := ih.1
        omega
      · have := ih.2 h
        omega

lemma unmarked_of_kept (h : Kept msg k nickname) : Unmarked msg nickname := by
  obtain ⟨s, hs, hwords⟩ := h
  have hcheck : ¬ ascii "invokerid=0" <:+: relayed msg k nickname := by
    intro hi
    obtain ⟨i, hi⟩ := Option.isSome_iff_exists.mp (find_isSome.mpr hi)
    rw [listenForMessages, hi] at hs
    cases hs
  obtain ⟨hle, hlt⟩ := length_split_argument msg
  by_cases hmark : ascii "invokerid=" <:+: argument msg
  · exfalso
    obtain ⟨j, hj⟩ := Option.isSome_iff_exists.mp (find_isSome.mpr hmark)
    rw [listenForMessages_relayed hcheck (find_append hj _)] at hs
    obtain rfl := Option.some.inj (Option.some.inj hs)
    obtain ⟨hjle, rest, hrest⟩ := find_eq_some hj
    rw [List.take_append_of_le_length hjle] at hwords
    have hsplit : argument msg = (argument msg).take j ++ 105 :: (ascii "nvokerid=" ++ rest) := by
      rw [← List.cons_append, show 105 :: ascii "nvokerid=" = ascii "invokerid=" by decide, hrest,
        List.take_append_drop]
    have hflat : (split (92 :: [115])
        ((argument msg).take j ++ 105 :: (ascii "nvokerid=" ++ rest))).flatten = _ :=
      split_flatten_append (by decide) (by decide)
    rw [← hsplit, ← sep_ascii] at hflat
    have hshort := length_words_joinWords ((argument msg).take j)
    have hfilter := List.length_filter_le (fun b => !b == space)
      (split (ascii "\\s") ((argument msg).take j)).flatten
    rw [hwords] at hshort
    rw [hflat, List.length_append, List.length_cons] at hle
    omega
  · rw [listenForMessages_unmarked hcheck hmark] at hs
    obtain rfl := Option.some.inj (Option.some.inj hs)
    have hshort := length_words_joinWords (argument msg ++ [space])
    rw [hwords, sep_ascii, split_flatten_append (by decide) (by decide), ← sep_ascii,
      List.filter_append, List.length_append, split_of_absent (s := []) (by decide)] at hshort
    have hfilter := List.length_filter_le (fun b => !b == space)
      (split (ascii "\\s") (argument msg)).flatten
    have hspace : (space :: ([[]] : List Bytes).flatten).filter (fun b => !b == space) = [] := by decide
    rw [hspace, List.length_nil] at hshort
    refine ⟨fun word hw => ⟨fun hi => ?_, fun hi => ?_⟩, fun hi => ?_⟩
    · have := hlt ⟨word, hw, hi⟩
      omega
    · apply hmark
      rw [show ascii "invokerid=" = 105 :: ascii "nvokerid=" by decide] at hi ⊢
      exact (infix_argument (by decide) (by decide)).mpr ⟨word, hw, hi⟩
    · exact hcheck (serverCheck_relayed.mpr (Or.inr hi))

end Kept

theorem kept_iff_unmarked (msg nickname : Bytes) (k : ℕ+) :
    Kept msg k nickname ↔ Unmarked msg nickname :=
  ⟨unmarked_of_kept, kept_of_unmarked⟩

theorem backslash_lost : ¬ ∀ (msg nickname : Bytes) (k : ℕ+), Kept msg k nickname := by
  intro h
  have hpath := (unmarked_of_kept (h (ascii "C:\\stuff") (ascii "bob") 1)).1 (ascii "C:\\stuff") (by decide)
  exact hpath.1 (by decide)

/-! ### Lines of any form -/

def Handled (l : Bytes) : Prop :=
  listenForMessages l ≠ none ∧ ∀ serverMsg, listenForMessages l = some (some serverMsg) →
    ∃ p m q, l = p ++ (ascii "msg=" ++ (m ++ (ascii "invokerid=" ++ q)))

section Lines

variable {l p q : Bytes}

lemma handled_of_none (h : listenForMessages l = some none) : Handled l := by
  rw [Handled, h]
  refine ⟨Option.some_ne_none _, fun serverMsg hs => ?_⟩
  cases Option.some.inj hs

lemma handled_of_absent (hp : ¬ ascii "msg=" <:+: p) (hid : ¬ ascii "invokerid=" <:+: p) :
    Handled (p ++ (ascii "msg=" ++ q)) := by
  cases hcheck : find (ascii "invokerid=0") (p ++ (ascii "msg=" ++ q)) with
  | some i => exact handled_of_none (by rw [listenForMessages, hcheck])
  | none =>
    have hstart : find (ascii "msg=") (p ++ (ascii "msg=" ++ q)) = some p.length :=
      find_unbordered (by decide) hp
    have hend : find (ascii "invokerid=") (p ++ (ascii "msg=" ++ q)) =
        (find (ascii "invokerid=") q).map (· + (p.length + 4)) := by
      rw [show ascii "msg=" ++ q = 109 :: (ascii "sg=" ++ q) by simp [ascii],
        find_separator (by decide) hid, show ascii "invokerid=" = 105 :: ascii "nvokerid=" by decide,
        find_skip (by decide), Option.map_map]
      congr 1
      funext k
      simp only [Function.comp_apply, show (ascii "sg=").length = 3 by decide]
      omega
    cases hq : find (ascii "invokerid=") q with
    | none =>
      rw [hq, Option.map_none] at hend
      exact handled_of_none (by simp only [listenForMessages, hcheck, hstart, hend])
    | some k =>
      rw [hq, Option.map_some] at hend
      obtain ⟨-, rest, hrest⟩ := find_eq_some hq
      refine ⟨?_, fun _ _ => ⟨p, q.take k, rest, ?_⟩⟩
      · simp only [listenForMessages, hcheck, hstart, hend]
        rw [if_pos (Nat.le_add_left _ _)]
        exact Option.some_ne_none _
      · rw [hrest, List.take_append_drop]

lemma not_handled_of_before (hcheck : ¬ ascii "invokerid=0" <:+: p ++ (ascii "msg=" ++ q))
    (hp : ¬ ascii "msg=" <:+: p) (hid : ascii "invokerid=" <:+: p) :
    ¬ Handled (p ++ (ascii "msg=" ++ q)) := by
  rintro ⟨hpanic, -⟩
  apply hpanic
  have hstart : find (ascii "msg=") (p ++ (ascii "msg=" ++ q)) = some p.length :=
    find_unbordered (by decide) hp
  obtain ⟨j, hj⟩ := Option.isSome_iff_exists.mp (find_isSome.mpr hid)
  have hle := (find_eq_some hj).1
  simp only [listenForMessages, find_of_absent hcheck, hstart, find_append hj]
  rw [if_neg (by omega)]

end Lines

theorem handled_iff_first (l : Bytes) : Handled l ↔ ascii "invokerid=0" <:+: l ∨
    ∀ p q, l = p ++ (ascii "msg=" ++ q) → ¬ ascii "msg=" <:+: p → ¬ ascii "invokerid=" <:+: p := by
  constructor
  · intro h
    by_cases hcheck : ascii "invokerid=0" <:+: l
    · exact Or.inl hcheck
    · right
      rintro p q rfl hp hid
      exact not_handled_of_before hcheck hp hid h
  · rintro (hcheck | h)
    · obtain ⟨i, hi⟩ := Option.isSome_iff_exists.mp (find_isSome.mpr hcheck)
      exact handled_of_none (by rw [listenForMessages, hi])
    · by_cases hmsg : ascii "msg=" <:+: l
      · obtain ⟨i, hi⟩ := Option.isSome_iff_exists.mp (find_isSome.mpr hmsg)
        obtain ⟨p, q, hl, hp, -⟩ := (find_first (by decide)).mp hi
        have hl : l = p ++ (ascii "msg=" ++ q) := hl
        rw [hl]
        exact handled_of_absent hp (h p q hl hp)
      · cases hcheck : find (ascii "invokerid=0") l with
        | some i => exact handled_of_none (by rw [listenForMessages, hcheck])
        | none => exact handled_of_none (by rw [listenForMessages, hcheck, find_of_absent hmsg])

/-- Any line of the peer may come, as this notice, which has `invokerid=` in front of its first `msg=`;
a server that has been asked for chat messages alone does not send it. -/
theorem marks_reversed : ¬ ∀ l, Handled l := by
  intro h
  have hline := h (ascii "notifyclientleftview reasonid=5 invokerid=2 invokername=bob reasonmsg=bye clid=7")
  exact hline.1 (by decide)

end TeamspeakWebserver.Webserver
