import TeamspeakWebserver.Sessions.Session

/-! Which reads keep what a session stores inside its buffer. -/

namespace TeamspeakWebserver.Sessions

open Session

namespace Session

def afterReads (s : Session) : List Read → Option Session
  | [] => some s
  | r :: rs => if (s.onRead r).2 = .close then none else (s.onRead r).1.afterReads rs

end Session

def InBounds (fd : Int) (reads : List Read) : Prop :=
  ∀ p r rest s, reads = p ++ r :: rest → (newSession fd).afterReads p = some s → s.cmdLen ≠ 0 →
    s.buf.length + s.request ≤ maxCmdLen ∧
      ∀ got, r.got = some got → (s.store got).buf.length ≤ maxCmdLen - 1

def Read.size (r : Read) : ℕ := (r.got.getD []).length

def total (body : List Read) : ℕ := (body.map Read.size).sum

def Read.announces (r : Read) (len : ℕ) : Prop :=
  ∃ got, r.got = some got ∧ ntohl (got ++ r.stale.drop got.length) = len

def Begun (len : ℕ) (body : List Read) : Prop :=
  (∀ r ∈ body, r.got ≠ none) ∧ ∀ q, q <+: body → total q ≠ len

inductive Whole : List Read → Prop
  | nil : Whole []
  | empty {p : List Read} {r : Read} (hp : Whole p) (hr : r.announces 0) : Whole (p ++ [r])
  | command {p body : List Read} {r last : Read} {len : ℕ} (hp : Whole p) (hr : r.announces len)
      (hlen : 0 < len) (hmax : len < maxCmdLen) (hb : Begun len body) (hl : last.got ≠ none)
      (ht : total body + last.size = len) : Whole (p ++ r :: body ++ [last])

def Fitting (reads : List Read) : Prop :=
  ∀ p r body last rest len, reads = p ++ r :: body ++ last :: rest → Whole p → r.announces len →
    0 < len → len < maxCmdLen → Begun len body →
      total body ≤ headerSize + 1 ∧ total body + last.size ≤ maxCmdLen - 1

section Reads

variable {fd : Int} {len : ℕ} {p body : List Read} {r : Read} {s : Session}

lemma total_snoc (body : List Read) (r : Read) : total (body ++ [r]) = total body + r.size := by
  simp [total]

lemma begun_nil (hlen : 0 < len) : Begun len [] := by
  constructor
  · intro r hr
    cases hr
  · intro q hq
    rw [List.prefix_nil.mp hq]
    exact (Nat.pos_iff_ne_zero.mp hlen).symm

lemma Begun.snoc (h : Begun len body) (hr : r.got ≠ none) (ht : total body + r.size ≠ len) :
    Begun len (body ++ [r]) := by
  constructor
  · intro r' hr'
    rcases List.mem_append.mp hr' with hb | hb
    · exact h.1 r' hb
    · rw [List.mem_singleton.mp hb]
      exact hr
  · intro q hq
    rcases List.prefix_concat_iff.mp hq with he | hb
    · rw [he, total_snoc]
      exact ht
    · exact h.2 q hb

lemma Begun.of_snoc (h : Begun len (body ++ [r])) :
    Begun len body ∧ r.got ≠ none ∧ total body + r.size ≠ len := by
  refine ⟨⟨?_, ?_⟩, ?_, ?_⟩
  · intro r' hr'
    exact h.1 r' (List.mem_append_left [r] hr')
  · intro q hq
    exact h.2 q (hq.trans (List.prefix_append body [r]))
  · exact h.1 r (List.mem_append_right body List.mem_cons_self)
  · rw [← total_snoc]
    exact h.2 _ (List.prefix_refl _)

lemma afterReads_append (s : Session) (p rest : List Read) :
    s.afterReads (p ++ rest) = (s.afterReads p).bind fun s => s.afterReads rest := by
  induction p generalizing s with
  | nil => rfl
  | cons r p ih =>
    simp only [List.cons_append, afterReads]
    split
    · rfl
    · exact ih _

lemma size_eq {got : Bytes} (h : r.got = some got) : r.size = got.length := by
  simp [Read.size, h]

lemma afterReads_header (br : ℕ) (hr : r.announces len) (hmax : len < maxCmdLen) :
    (waiting fd br).afterReads [r] = some (if len = 0 then waiting fd 0 else reading fd len []) := by
  obtain ⟨got, hg, hv⟩ := hr
  have hlen : len < 4096 := hmax
  obtain ⟨_, stale⟩ := r
  subst hg
  simp only [afterReads, onRead_waiting fd br hv]
  rw [if_neg (show ¬(len = 2 ^ 32 - 1 ∨ maxCmdLen ≤ len) by simp only [maxCmdLen]; omega)]
  by_cases h0 : len = 0
  · subst h0
    rfl
  · simp only [if_neg h0]
    rfl

lemma afterReads_part {got : Bytes} (hlen : 0 < len) (b : Bytes) (hg : r.got = some got) :
    (reading fd len b).afterReads [r] =
      some (if b.length + got.length = len then waiting fd len else reading fd len (b ++ got)) := by
  obtain ⟨_, stale⟩ := r
  subst hg
  simp only [afterReads, onRead_reading fd hlen]
  split <;> rfl

lemma afterReads_begun (fd : Int) (hlen : 0 < len) (h : Begun len body) :
    ∃ b : Bytes, (reading fd len []).afterReads body = some (reading fd len b) ∧
      b.length = total body := by
  induction body using List.reverseRecOn with
  | nil => exact ⟨[], rfl, rfl⟩
  | append_singleton body r ih =>
    obtain ⟨hb, hr, ht⟩ := h.of_snoc
    obtain ⟨b, hs, hbl⟩ := ih hb
    obtain ⟨got, hg⟩ := Option.ne_none_iff_exists'.mp hr
    rw [size_eq hg, ← hbl] at ht
    refine ⟨b ++ got, ?_, ?_⟩
    · rw [afterReads_append, hs, Option.bind_some, afterReads_part hlen b hg, if_neg ht]
    · rw [List.length_append, total_snoc, size_eq hg, hbl]

lemma afterReads_command (fd : Int) (br : ℕ) (hr : r.announces len) (hlen : 0 < len) (hmax : len < maxCmdLen)
    (hb : Begun len body) :
    ∃ b : Bytes, (waiting fd br).afterReads (r :: body) = some (reading fd len b) ∧
      b.length = total body := by
  obtain ⟨b, hs, hbl⟩ := afterReads_begun fd hlen hb
  refine ⟨b, ?_, hbl⟩
  rw [← List.singleton_append, afterReads_append, afterReads_header br hr hmax, Option.bind_some,
    if_neg (Nat.pos_iff_ne_zero.mp hlen), hs]

lemma afterReads_whole (fd : Int) (h : Whole p) :
    ∃ br, (newSession fd).afterReads p = some (waiting fd br) := by
  induction h with
  | nil => exact ⟨0, rfl⟩
  | empty hp hr ih =>
    obtain ⟨br, hs⟩ := ih
    refine ⟨0, ?_⟩
    rw [afterReads_append, hs, Option.bind_some, afterReads_header br hr (by decide), if_pos rfl]
  | @command p body r last len hp hr hlen hmax hb hl ht ih =>
    obtain ⟨br, hs⟩ := ih
    obtain ⟨b, hc, hbl⟩ := afterReads_command fd br hr hlen hmax hb
    obtain ⟨got, hg⟩ := Option.ne_none_iff_exists'.mp hl
    rw [size_eq hg, ← hbl] at ht
    refine ⟨len, ?_⟩
    rw [afterReads_append, afterReads_append, hs, Option.bind_some, hc, Option.bind_some,
      afterReads_part hlen b hg, if_pos ht]

lemma announces_of_onRead {br : ℕ} (ho : ((waiting fd br).onRead r).2 ≠ .close) :
    ∃ len, r.announces len ∧ len < maxCmdLen := by
  obtain ⟨got, stale⟩ := r
  cases got with
  | none => exact absurd rfl ho
  | some got =>
    rw [onRead_waiting fd br rfl] at ho
    split at ho
    case isTrue => exact absurd rfl ho
    case isFalse hn =>
      exact ⟨ntohl (got ++ stale.drop got.length), ⟨got, rfl, rfl⟩, by omega⟩

lemma got_of_onRead {b : Bytes} (hlen : 0 < len) (ho : ((reading fd len b).onRead r).2 ≠ .close) :
    r.got ≠ none := by
  intro hg
  obtain ⟨_, stale⟩ := r
  subst hg
  apply ho
  rw [onRead, if_neg (show (reading fd len b).cmdLen ≠ 0 from Nat.pos_iff_ne_zero.mp hlen)]
  rfl

lemma whole_or_begun (h : (newSession fd).afterReads p = some s) :
    (Whole p ∧ ∃ br, s = waiting fd br) ∨
      ∃ q r body len b, p = q ++ r :: body ∧ Whole q ∧ r.announces len ∧ 0 < len ∧
        len < maxCmdLen ∧ Begun len body ∧ b.length = total body ∧ s = reading fd len b := by
  induction p using List.reverseRecOn generalizing s with
  | nil => exact Or.inl ⟨.nil, 0, (Option.some.inj h).symm⟩
  | append_singleton p last ih =>
    rw [afterReads_append] at h
    obtain ⟨t, ht, hlast⟩ := Option.bind_eq_some_iff.mp h
    have ho : (t.onRead last).2 ≠ .close := by
      intro hc
      rw [afterReads, if_pos hc] at hlast
      cases hlast
    rcases ih ht with ⟨hp, br, rfl⟩ | ⟨q, r, body, len, b, rfl, hq, hr, hlen, hmax, hb, hbl, rfl⟩
    · obtain ⟨len, hr, hmax⟩ := announces_of_onRead ho
      rw [afterReads_header br hr hmax] at hlast
      by_cases h0 : len = 0
      · subst h0
        exact Or.inl ⟨.empty hp hr, 0, (Option.some.inj hlast).symm⟩
      · have hlen := Nat.pos_of_ne_zero h0
        rw [if_neg h0] at hlast
        exact Or.inr ⟨p, last, [], len, [], rfl, hp, hr, hlen, hmax, begun_nil hlen, rfl,
          (Option.some.inj hlast).symm⟩
    · have hl := got_of_onRead hlen ho
      obtain ⟨got, hg⟩ := Option.ne_none_iff_exists'.mp hl
      rw [afterReads_part hlen b hg] at hlast
      by_cases he : b.length + got.length = len
      · rw [if_pos he] at hlast
        refine Or.inl ⟨?_, len, (Option.some.inj hlast).symm⟩
        apply Whole.command hq hr hlen hmax hb hl
        rw [size_eq hg, ← hbl, he]
      · rw [if_neg he] at hlast
        refine Or.inr ⟨q, r, body ++ [last], len, b ++ got, ?_, hq, hr, hlen, hmax, ?_, ?_,
          (Option.some.inj hlast).symm⟩
        · rw [List.append_assoc, List.cons_append]
        · apply hb.snoc hl
          rw [size_eq hg, ← hbl]
          exact he
        · rw [List.length_append, total_snoc, size_eq hg, hbl]

lemma bounds_reading (hlen : 0 < len) (b : Bytes) (r : Read) :
    ((reading fd len b).buf.length + (reading fd len b).request ≤ maxCmdLen ∧
      ∀ got, r.got = some got → ((reading fd len b).store got).buf.length ≤ maxCmdLen - 1) ↔
    (b.length ≤ headerSize + 1 ∧ b.length + r.size ≤ maxCmdLen - 1) := by
  have hreq : (reading fd len b).request = bodyRequest :=
    if_neg (Nat.pos_iff_ne_zero.mp hlen)
  rw [hreq]
  simp only [reading, store, List.length_append, bodyRequest, headerSize, maxCmdLen]
  constructor
  · rintro ⟨ho, hs⟩
    refine ⟨by omega, ?_⟩
    cases hg : r.got with
    | none =>
      have h0 : r.size = 0 := by simp [Read.size, hg]
      omega
    | some got =>
      rw [size_eq hg]
      exact hs got hg
  · rintro ⟨ho, hs⟩
    refine ⟨by omega, ?_⟩
    intro got hg
    rw [size_eq hg] at hs
    exact hs

end Reads

theorem inBounds_iff_fitting (fd : Int) (reads : List Read) :
    InBounds fd reads ↔ Fitting reads := by
  constructor
  · intro h p r body last rest len he hp hr hlen hmax hb
    obtain ⟨br, hs⟩ := afterReads_whole fd hp
    obtain ⟨b, hc, hbl⟩ := afterReads_command fd br hr hlen hmax hb
    have hopen : (newSession fd).afterReads (p ++ r :: body) = some (reading fd len b) := by
      rw [afterReads_append, hs, Option.bind_some, hc]
    have hin := h (p ++ r :: body) last rest _ he hopen (Nat.pos_iff_ne_zero.mp hlen)
    rw [← hbl]
    exact (bounds_reading hlen b last).mp hin
  · intro h p last rest s he hopen hn
    rcases whole_or_begun hopen with ⟨-, br, rfl⟩ | ⟨q, r, body, len, b, rfl, hq, hr, hlen, hmax, hb,
      hbl, rfl⟩
    · exact absurd rfl hn
    · have hfit := h q r body last rest len he hq hr hlen hmax hb
      rw [← hbl] at hfit
      exact (bounds_reading hlen b last).mpr hfit

def Admissible : Session → List Read → Prop
  | _, [] => True
  | s, r :: rs =>
    (r.stale.length = 4 ∧ ∀ got, r.got = some got → 1 ≤ got.length ∧ got.length ≤ s.request) ∧
      ((s.onRead r).2 = .close ∨ Admissible (s.onRead r).1 rs)

def chunk (n : ℕ) : Read := ⟨some (List.replicate n 65), [0, 0, 0, 0]⟩

lemma onRead_announced (fd : Int) : (newSession fd).onRead ⟨some [0, 0, 15, 160], [0, 0, 0, 0]⟩ =
    (reading fd 4000 [], .body) := by
  have hlen : ntohl ([0, 0, 15, 160] ++ [0, 0, 0, 0].drop 4) = 4000 := by decide
  exact (onRead_waiting fd 0 hlen).trans (if_neg (by decide))

lemma onRead_chunk (fd : Int) : (reading fd 4000 []).onRead (chunk 3000) =
    (reading fd 4000 (List.replicate 3000 65), .wait) := by
  rw [chunk, onRead_reading fd (by decide), List.length_replicate, if_neg (by decide)]
  rfl

theorem buffer_overrun : ¬ ∀ (fd : Int) (reads : List Read), Admissible (newSession fd) reads →
    InBounds fd reads := by
  intro h
  have hh := onRead_announced 5
  have hb := onRead_chunk 5
  have hreq (b : Bytes) : 1 ≤ 3000 ∧ 3000 ≤ (reading 5 4000 b).request := by
    rw [request, if_neg (show (reading 5 4000 b).cmdLen ≠ 0 by simp only [reading]; decide)]
    decide
  have hadm : Admissible (newSession 5)
      [⟨some [0, 0, 15, 160], [0, 0, 0, 0]⟩, chunk 3000, chunk 3000] := by
    refine ⟨⟨rfl, ?_⟩, Or.inr ?_⟩
    · intro got hg
      obtain rfl := Option.some.inj hg
      decide
    · rw [hh]
      refine ⟨⟨rfl, ?_⟩, Or.inr ?_⟩
      · intro got hg
        rw [← Option.some.inj hg, List.length_replicate]
        exact hreq []
      · rw [hb]
        refine ⟨⟨rfl, ?_⟩, Or.inr trivial⟩
        intro got hg
        rw [← Option.some.inj hg, List.length_replicate]
        exact hreq _
  have hopen : (newSession 5).afterReads [⟨some [0, 0, 15, 160], [0, 0, 0, 0]⟩, chunk 3000] =
      some (reading 5 4000 (List.replicate 3000 65)) := by
    simp only [afterReads, hh, hb]
    rfl
  have hin := (h 5 _ hadm [⟨some [0, 0, 15, 160], [0, 0, 0, 0]⟩, chunk 3000] (chunk 3000) [] _ rfl
    hopen (show (4000 : ℕ) ≠ 0 by decide)).2 _ rfl
  rw [store, List.length_append, List.length_replicate, reading, List.length_replicate] at hin
  exact absurd hin (by decide)

end TeamspeakWebserver.Sessions
