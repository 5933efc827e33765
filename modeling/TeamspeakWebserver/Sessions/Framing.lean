import TeamspeakWebserver.Sessions.Session

/-! Which commands a connection hands to the manager, however its bytes are split over the reads. -/

namespace TeamspeakWebserver.Sessions

open Session Text

def frame (buf : Bytes) : Bytes := htonl buf.length ++ buf

def frames (cmds : List Bytes) : Bytes := (cmds.map frame).flatten

/-- The size of a `read()` that finds `cut` bytes arrived: at least one, and no more than were
asked for or are to come. -/
def readSize (cut request avail : ℕ) : ℕ := max 1 (min cut (min request avail))

def Outcome.hand : Outcome → List Bytes → List Bytes
  | .close, _ => []
  | .wait, later => later
  | .body, later => later
  | .command input, later => input :: later

/-- The strings handed to `manager_process_input` while `stream` lasts. The read with number `k`
finds `cuts k` bytes arrived and `stale k` in the local `len`; `n` bounds the number of reads. -/
def serve (cuts : ℕ → ℕ) (stale : ℕ → Bytes) : (n k : ℕ) → Session → Bytes → List Bytes
  | 0, _, _, _ => []
  | n + 1, k, s, stream =>
    if stream = [] then [] else
      let m := readSize (cuts k) s.request stream.length
      let x := s.onRead ⟨some (stream.take m), stale k⟩
      x.2.hand (serve cuts stale n (k + 1) x.1 (stream.drop m))

def served (cuts : ℕ → ℕ) (stale : ℕ → Bytes) (k : ℕ) (s : Session) (stream : Bytes) : List Bytes :=
  serve cuts stale stream.length k s stream

def handed (fd : Int) (cuts : ℕ → ℕ) (stale : ℕ → Bytes) (stream : Bytes) : List Bytes :=
  served cuts stale 0 (newSession fd) stream

/-- The reads from number `k` on take the `left` bytes of a body and none of the `rest` behind it;
the next one has number `k'`. -/
inductive InBody (cuts : ℕ → ℕ) (rest : ℕ) : (k left k' : ℕ) → Prop
  | done (k : ℕ) : InBody cuts rest k 0 k
  | read {k left k' : ℕ} (hl : 0 < left) (hs : readSize (cuts k) bodyRequest (left + rest) ≤ left)
      (h : InBody cuts rest (k + 1) (left - readSize (cuts k) bodyRequest (left + rest)) k') :
      InBody cuts rest k left k'

/-- Each header arrives whole, and no read of a body goes on into the next frame. -/
inductive Aligned (cuts : ℕ → ℕ) : ℕ → List Bytes → Prop
  | nil (k : ℕ) : Aligned cuts k []
  | cons {k k' : ℕ} {c : Bytes} {cs : List Bytes} (hh : headerSize ≤ cuts k)
      (hb : InBody cuts (frames cs).length (k + 1) c.length k') (h : Aligned cuts k' cs) :
      Aligned cuts k (c :: cs)

def Sendable (c : Bytes) : Prop := 1 ≤ c.length ∧ c.length < maxCmdLen ∧ 0 ∉ c

lemma readSize_pos (cut request avail : ℕ) : 0 < readSize cut request avail := by
  simp [readSize]

lemma readSize_le (cut : ℕ) {request avail : ℕ} (hr : 0 < request) (ha : 0 < avail) :
    readSize cut request avail ≤ request ∧ readSize cut request avail ≤ avail := by
  simp only [readSize]
  omega

lemma ntohl_htonl {n : ℕ} (h : n < 2 ^ 32) : ntohl (htonl n) = n := by
  simp only [ntohl, htonl, Nat.toUInt8, UInt8.toNat_ofNat']
  omega

lemma frames_cons (c : Bytes) (cs : List Bytes) :
    frames (c :: cs) = htonl c.length ++ (c ++ frames cs) := by
  simp [frames, frame]

lemma length_frames_cons (c : Bytes) (cs : List Bytes) :
    (frames (c :: cs)).length = headerSize + (c.length + (frames cs).length) := by
  rw [frames_cons]
  simp [htonl, headerSize]
  omega

section Serve

variable {cuts : ℕ → ℕ} {stale : ℕ → Bytes} {s : Session} {stream : Bytes} {fd : Int}

lemma serve_fuel {n n' k : ℕ} (h : stream.length ≤ n) (h' : stream.length ≤ n') :
    serve cuts stale n k s stream = serve cuts stale n' k s stream := by
  induction n generalizing n' k s stream with
  | zero =>
    obtain rfl := List.length_eq_zero_iff.mp (Nat.le_zero.mp h)
    cases n' <;> simp [serve]
  | succ n ih =>
    by_cases hs : stream = []
    · subst hs
      cases n' <;> simp [serve]
    · have hp := List.length_pos_iff.mpr hs
      cases n' with
      | zero => omega
      | succ n' =>
        have hm := readSize_pos (cuts k) s.request stream.length
        simp only [serve, if_neg hs]
        congr 1
        apply ih
        · rw [List.length_drop]
          omega
        · rw [List.length_drop]
          omega

lemma served_step (k : ℕ) (s : Session) (hs : stream ≠ []) {m : ℕ}
    (hm : readSize (cuts k) s.request stream.length = m) :
    served cuts stale k s stream = (s.onRead ⟨some (stream.take m), stale k⟩).2.hand
      (served cuts stale (k + 1) (s.onRead ⟨some (stream.take m), stale k⟩).1 (stream.drop m)) := by
  have hp := List.length_pos_iff.mpr hs
  obtain ⟨n, hn⟩ : ∃ n, stream.length = n + 1 := ⟨stream.length - 1, by omega⟩
  have h0 := readSize_pos (cuts k) s.request stream.length
  rw [served, hn, serve, if_neg hs]
  simp only [hm]
  congr 1
  apply serve_fuel _ le_rfl
  rw [List.length_drop]
  omega

lemma served_header (k br : ℕ) (hs : stream ≠ []) {m v : ℕ}
    (hm : readSize (cuts k) headerSize stream.length = m)
    (hv : ntohl (stream.take m ++ (stale k).drop m) = v) :
    served cuts stale k (waiting fd br) stream =
      if v = 2 ^ 32 - 1 ∨ maxCmdLen ≤ v then []
      else if v = 0 then served cuts stale (k + 1) (waiting fd 0) (stream.drop m)
      else served cuts stale (k + 1) (reading fd v []) (stream.drop m) := by
  have hp := List.length_pos_iff.mpr hs
  have hle := (readSize_le (cuts k) (by decide : 0 < headerSize) hp).2
  rw [served_step k (waiting fd br) hs hm]
  have hl : (stream.take m).length = m := by
    rw [List.length_take]
    omega
  rw [onRead_waiting fd br (by rw [hl, hv])]
  split
  · rfl
  · split
    case isTrue h0 =>
      subst h0
      rfl
    case isFalse h0 => rfl

lemma served_body (k : ℕ) {len : ℕ} (hl : 0 < len) (b : Bytes) (hs : stream ≠ []) {m : ℕ}
    (hm : readSize (cuts k) bodyRequest stream.length = m) :
    served cuts stale k (reading fd len b) stream =
      if b.length + m = len then cstring (b ++ stream.take m) ::
        served cuts stale (k + 1) (waiting fd len) (stream.drop m)
      else served cuts stale (k + 1) (reading fd len (b ++ stream.take m)) (stream.drop m) := by
  have hp := List.length_pos_iff.mpr hs
  have hle := (readSize_le (cuts k) (by decide : 0 < bodyRequest) hp).2
  have hn : len ≠ 0 := by omega
  have hreq : (reading fd len b).request = bodyRequest := by simp [request, reading, hn]
  rw [served_step (m := m) k (reading fd len b) hs (by rw [hreq]; exact hm)]
  have ht : (stream.take m).length = m := by
    rw [List.length_take]
    omega
  rw [onRead_reading fd hl, ht]
  split <;> rfl

lemma served_overrun {len : ℕ} (hl : 0 < len) (k : ℕ) (b : Bytes) (hb : len < b.length) :
    served cuts stale k (reading fd len b) stream = [] := by
  induction hn : stream.length using Nat.strong_induction_on generalizing k b stream with
  | _ n ih =>
    by_cases hs : stream = []
    · subst hs
      rfl
    · have hp := List.length_pos_iff.mpr hs
      have hm := readSize_pos (cuts k) bodyRequest stream.length
      have hne : b.length + readSize (cuts k) bodyRequest stream.length ≠ len := by omega
      rw [served_body k hl b hs rfl, if_neg hne]
      apply ih _ _ _ _ _ rfl
      · rw [List.length_drop]
        omega
      · rw [List.length_append]
        omega

lemma served_first {len : ℕ} (hl : 0 < len) (k : ℕ) (b : Bytes) :
    served cuts stale k (reading fd len b) stream = [] ∨ ∃ later,
      served cuts stale k (reading fd len b) stream =
        cstring ((b ++ stream).take len) :: later := by
  induction hn : stream.length using Nat.strong_induction_on generalizing k b stream with
  | _ n ih =>
    by_cases hs : stream = []
    · subst hs
      exact Or.inl rfl
    · have hp := List.length_pos_iff.mpr hs
      have hm := readSize_pos (cuts k) bodyRequest stream.length
      rw [served_body k hl b hs rfl]
      split
      case isTrue he =>
        refine Or.inr ⟨served cuts stale (k + 1) (waiting fd len)
          (stream.drop (readSize (cuts k) bodyRequest stream.length)), ?_⟩
        rw [List.take_append, List.take_of_length_le (l := b) (by omega)]
        rw [show len - b.length = readSize (cuts k) bodyRequest stream.length by omega]
      case isFalse =>
        have hd : (stream.drop (readSize (cuts k) bodyRequest stream.length)).length < n := by
          rw [List.length_drop]
          omega
        have hi := ih _ hd (k + 1) (b ++ stream.take (readSize (cuts k) bodyRequest stream.length))
          rfl
        rwa [List.append_assoc, List.take_append_drop] at hi

lemma inBody_zero {rest k k' : ℕ} (h : InBody cuts rest k 0 k') : k' = k := by
  cases h with
  | done => rfl
  | read hl => omega

lemma served_inBody {len k left k' : ℕ} {tail : Bytes} (h : InBody cuts tail.length k left k')
    (hleft : 0 < left) (b body : Bytes) (hbody : body.length = left) (hlen : b.length + left = len) :
    served cuts stale k (reading fd len b) (body ++ tail) =
      cstring (b ++ body) :: served cuts stale k' (waiting fd len) tail := by
  induction h generalizing b body with
  | done k => omega
  | @read k left k' hl hs h ih =>
    have hne : body ++ tail ≠ [] := by
      intro he
      have hl0 := congrArg List.length he
      simp only [List.length_append, List.length_nil] at hl0
      omega
    have hm := readSize_pos (cuts k) bodyRequest (left + tail.length)
    have hsize : (body ++ tail).length = left + tail.length := by rw [List.length_append, hbody]
    rw [served_body k (by omega) b hne (by rw [hsize])]
    have htake : (body ++ tail).take (readSize (cuts k) bodyRequest (left + tail.length)) =
        body.take (readSize (cuts k) bodyRequest (left + tail.length)) :=
      List.take_append_of_le_length (by omega)
    have hdrop : (body ++ tail).drop (readSize (cuts k) bodyRequest (left + tail.length)) =
        body.drop (readSize (cuts k) bodyRequest (left + tail.length)) ++ tail :=
      List.drop_append_of_le_length (by omega)
    rw [htake, hdrop]
    generalize readSize (cuts k) bodyRequest (left + tail.length) = m at *
    by_cases hml : m = left
    · subst hml
      rw [if_pos hlen, ← hbody, List.take_length, List.drop_length, List.nil_append]
      rw [Nat.sub_self] at h
      rw [inBody_zero h]
    · rw [if_neg (by omega)]
      have hi := ih (by omega) (b ++ body.take m) (body.drop m) (by rw [List.length_drop, hbody])
        (by rw [List.length_append, List.length_take]; omega)
      rw [hi, List.append_assoc, List.take_append_drop]

lemma inBody_of_served {len left : ℕ} {tail : Bytes} (k : ℕ) (hleft : 0 < left) (b body : Bytes)
    (hbody : body.length = left) (hlen : b.length + left = len)
    (hne : served cuts stale k (reading fd len b) (body ++ tail) ≠ []) :
    ∃ k', InBody cuts tail.length k left k' := by
  induction left using Nat.strong_induction_on generalizing k b body with
  | _ left ih =>
    have hs : body ++ tail ≠ [] := by
      intro he
      have hl0 := congrArg List.length he
      simp only [List.length_append, List.length_nil] at hl0
      omega
    have hm := readSize_pos (cuts k) bodyRequest (left + tail.length)
    have hsize : (body ++ tail).length = left + tail.length := by rw [List.length_append, hbody]
    have hle := (readSize_le (cuts k) (by decide : 0 < bodyRequest)
      (List.length_pos_iff.mpr hs)).2
    rw [hsize] at hle
    rw [served_body k (by omega) b hs (by rw [hsize])] at hne
    by_cases hml : readSize (cuts k) bodyRequest (left + tail.length) ≤ left
    · by_cases he : readSize (cuts k) bodyRequest (left + tail.length) = left
      · refine ⟨k + 1, .read hleft hml ?_⟩
        rw [he, Nat.sub_self]
        exact .done (k + 1)
      · rw [if_neg (by omega), List.take_append_of_le_length (by omega),
          List.drop_append_of_le_length (by omega)] at hne
        obtain ⟨k', hk⟩ := ih (left - readSize (cuts k) bodyRequest (left + tail.length)) (by omega)
          (k + 1) (by omega)
          (b ++ body.take (readSize (cuts k) bodyRequest (left + tail.length)))
          (body.drop (readSize (cuts k) bodyRequest (left + tail.length)))
          (by rw [List.length_drop, hbody])
          (by rw [List.length_append, List.length_take]; omega) hne
        exact ⟨k', .read hleft hml hk⟩
    · exfalso
      apply hne
      rw [if_neg (by omega)]
      apply served_overrun (by omega)
      rw [List.length_append, List.length_take, hsize]
      omega

lemma served_excessive (k br : ℕ) {a : UInt8} (ha : a ≠ 0) (rest : Bytes)
    (hstale : (stale k).length = 4) :
    served cuts stale k (waiting fd br) (a :: rest) = [] := by
  have hm := readSize_le (cuts k) (by decide : 0 < headerSize)
    (Nat.succ_pos rest.length)
  have hp := readSize_pos (cuts k) headerSize (a :: rest).length
  rw [served_header k br (List.cons_ne_nil a rest) rfl rfl, if_pos]
  rw [List.length_cons] at *
  generalize readSize (cuts k) headerSize (rest.length + 1) = m at *
  obtain ⟨m, rfl⟩ : ∃ m', m = m' + 1 := ⟨m - 1, by omega⟩
  have hl : (rest.take m ++ (stale k).drop (m + 1)).length = 3 := by
    simp only [List.length_append, List.length_take, List.length_drop, hstale]
    have h4 : m + 1 ≤ 4 := hm.1
    omega
  obtain ⟨b, c, d, h3⟩ := List.length_eq_three.mp hl
  have ha' : a.toNat ≠ 0 := by
    intro h0
    exact ha (UInt8.toNat_inj.mp h0)
  rw [List.take_succ_cons, List.cons_append, h3]
  simp only [ntohl, maxCmdLen]
  omega

lemma htonl_of_lt {n : ℕ} (h : n < maxCmdLen) :
    htonl n = [0, 0, (n / 2 ^ 8).toUInt8, n.toUInt8] := by
  have h4096 : n < 4096 := h
  have h1 : n / 2 ^ 24 = 0 := by omega
  have h2 : n / 2 ^ 16 = 0 := by omega
  simp only [htonl, h1, h2]
  rfl

lemma toUInt8_eq_zero_iff (n : ℕ) : n.toUInt8 = 0 ↔ n % 2 ^ 8 = 0 := by
  rw [← UInt8.toNat_inj]
  simp only [Nat.toUInt8, UInt8.toNat_ofNat', UInt8.toNat_zero]

/-- The low byte of the length in front of a command, and the rest of the length as its length, make
another command. -/
lemma shifted_command_ne {c rest : Bytes} (hone : 1 ≤ c.length) (h0 : c.length / 2 ^ 8 * 2 ^ 8 ≠ 0) :
    cstring ((c.length.toUInt8 :: (c ++ rest)).take (c.length / 2 ^ 8 * 2 ^ 8)) ≠ c := by
  intro hhead
  by_cases hz : c.length.toUInt8 = 0
  · obtain ⟨v, hv⟩ : ∃ v, c.length / 2 ^ 8 * 2 ^ 8 = v + 1 := ⟨_, (Nat.succ_pred h0).symm⟩
    rw [hv, hz, List.take_succ_cons, cstring] at hhead
    have hnil : c = [] := by simpa using hhead.symm
    rw [hnil] at hone
    exact absurd hone (by decide)
  · have hle := length_cstring_le
      ((c.length.toUInt8 :: (c ++ rest)).take (c.length / 2 ^ 8 * 2 ^ 8))
    rw [hhead, List.length_take] at hle
    rw [toUInt8_eq_zero_iff] at hz
    omega

lemma served_short_header (k br : ℕ) {c : Bytes} {cs : List Bytes} (hc : Sendable c)
    (hcut : cuts k < headerSize) (hstale : stale = fun _ => [0, 255, 255, 0]) :
    served cuts stale k (waiting fd br) (frames (c :: cs)) ≠ c :: cs := by
  have h4 : cuts k < 4 := hcut
  have hlen : c.length < 4096 := hc.2.1
  have hone := hc.1
  set m := readSize (cuts k) headerSize (frames (c :: cs)).length with hm
  have hm' : m = 1 ∨ m = 2 ∨ m = 3 := by
    rw [length_frames_cons] at hm
    simp only [readSize, headerSize] at hm
    omega
  have hs : frames (c :: cs) ≠ [] := by
    rw [frames_cons]
    simp [htonl]
  rw [served_header k br hs hm.symm rfl, frames_cons, htonl_of_lt hc.2.1, hstale]
  rcases hm' with h | h | h <;> rw [h]
  · simp [ntohl, maxCmdLen]
  · simp [ntohl, maxCmdLen]
  · set lo := c.length.toUInt8 with hlo
    have hv : ntohl (([0, 0, (c.length / 2 ^ 8).toUInt8, lo] ++ (c ++ frames cs)).take 3 ++
        List.drop 3 [0, 255, 255, 0]) = c.length / 2 ^ 8 * 2 ^ 8 := by
      simp only [List.cons_append, List.take_succ_cons, List.take_zero, List.nil_append,
        List.drop_succ_cons, List.drop_zero, ntohl, Nat.toUInt8, UInt8.toNat_ofNat']
      simp
      omega
    have hd : ([0, 0, (c.length / 2 ^ 8).toUInt8, lo] ++ (c ++ frames cs)).drop 3 =
        lo :: (c ++ frames cs) := rfl
    rw [hv, hd, if_neg (by simp only [maxCmdLen]; omega), ← hstale]
    split
    case isTrue h0 =>
      have hne : lo ≠ 0 := by
        rw [hlo, ne_eq, toUInt8_eq_zero_iff]
        omega
      rw [served_excessive (k + 1) 0 hne _ (by rw [hstale]; rfl)]
      exact (List.cons_ne_nil _ _).symm
    case isFalse h0 =>
      intro he
      have hfirst := @served_first cuts stale (lo :: (c ++ frames cs)) fd _
        (Nat.pos_of_ne_zero h0) (k + 1) []
      rcases hfirst with h1 | ⟨later, h1⟩
      · rw [h1] at he
        exact List.cons_ne_nil _ _ he.symm
      · rw [h1] at he
        have hhead := (List.cons.inj he).1
        rw [List.nil_append] at hhead
        exact shifted_command_ne hone h0 hhead

lemma served_frame (k br : ℕ) {c : Bytes} {cs : List Bytes} (hc : Sendable c)
    (hcut : headerSize ≤ cuts k) (hstale : (stale k).length = 4) :
    served cuts stale k (waiting fd br) (frames (c :: cs)) =
      served cuts stale (k + 1) (reading fd c.length []) (c ++ frames cs) := by
  have h4 : 4 ≤ cuts k := hcut
  have hlen : c.length < 4096 := hc.2.1
  have hone := hc.1
  have hm : readSize (cuts k) headerSize (frames (c :: cs)).length = 4 := by
    rw [length_frames_cons]
    simp only [readSize, headerSize]
    omega
  have hs : frames (c :: cs) ≠ [] := by
    rw [frames_cons]
    simp [htonl]
  have htake : (frames (c :: cs)).take 4 = htonl c.length := by
    rw [frames_cons]
    rfl
  have hdrop : (frames (c :: cs)).drop 4 = c ++ frames cs := by
    rw [frames_cons]
    rfl
  have hv : ntohl ((frames (c :: cs)).take 4 ++ (stale k).drop 4) = c.length := by
    rw [List.drop_eq_nil_of_le (by omega), List.append_nil, htake]
    exact ntohl_htonl (by omega)
  rw [served_header k br hs hm hv, hdrop, if_neg (by simp only [maxCmdLen]; omega),
    if_neg (by omega)]

lemma aligned_of_served {cmds : List Bytes} (hcmds : ∀ c ∈ cmds, Sendable c) (k br : ℕ)
    (h : ∀ stale : ℕ → Bytes, (∀ j, (stale j).length = 4) →
      served cuts stale k (waiting fd br) (frames cmds) = cmds) : Aligned cuts k cmds := by
  induction cmds generalizing k br with
  | nil => exact .nil k
  | cons c cs ih =>
    have hc := hcmds c List.mem_cons_self
    by_cases hcut : headerSize ≤ cuts k
    · have hbody : ∀ stale : ℕ → Bytes, (∀ j, (stale j).length = 4) →
          served cuts stale (k + 1) (reading fd c.length []) (c ++ frames cs) = c :: cs := by
        intro stale hstale
        rw [← served_frame k br hc hcut (hstale k)]
        exact h stale hstale
      have hzero := hbody (fun _ => [0, 0, 0, 0]) fun _ => rfl
      obtain ⟨k', hk⟩ := inBody_of_served (k + 1) hc.1 [] c rfl (Nat.zero_add _)
        (by rw [hzero]; exact List.cons_ne_nil c cs)
      refine .cons hcut hk (ih (fun d hd => hcmds d (List.mem_cons_of_mem c hd)) k' c.length ?_)
      intro stale hstale
      have hcs := hbody stale hstale
      rw [served_inBody hk hc.1 [] c rfl (Nat.zero_add _)] at hcs
      exact (List.cons.inj hcs).2
    · exact absurd (h (fun _ => [0, 255, 255, 0]) fun _ => rfl)
        (served_short_header k br hc (Nat.lt_of_not_le hcut) rfl)

lemma served_of_aligned {cmds : List Bytes} (hcmds : ∀ c ∈ cmds, Sendable c) {k : ℕ} (br : ℕ)
    (h : Aligned cuts k cmds) (hstale : ∀ j, (stale j).length = 4) :
    served cuts stale k (waiting fd br) (frames cmds) = cmds := by
  induction h generalizing br with
  | nil k => rfl
  | @cons k k' c cs hh hb h ih =>
    have hc := hcmds c List.mem_cons_self
    rw [served_frame k br hc hh (hstale k), served_inBody hb hc.1 [] c rfl (Nat.zero_add _)]
    rw [List.nil_append, cstring_eq hc.2.2]
    congr 1
    exact ih (fun d hd => hcmds d (List.mem_cons_of_mem c hd)) c.length

end Serve

theorem handed_iff_aligned (fd : Int) (cuts : ℕ → ℕ) (cmds : List Bytes)
    (hcmds : ∀ c ∈ cmds, Sendable c) :
    (∀ stale : ℕ → Bytes, (∀ j, (stale j).length = 4) →
      handed fd cuts stale (frames cmds) = cmds) ↔ Aligned cuts 0 cmds := by
  constructor
  · intro h
    exact aligned_of_served hcmds 0 0 h
  · intro h stale hstale
    exact served_of_aligned hcmds 0 h hstale

theorem handed_iff_aligned_pair :
    (∀ stale : ℕ → Bytes, (∀ j, (stale j).length = 4) →
      handed 5 (fun k => [4, 6, 4, 4].getD k 1) stale (frames [ascii "enable", ascii "stop"]) =
        [ascii "enable", ascii "stop"]) ↔
      Aligned (fun k => [4, 6, 4, 4].getD k 1) 0 [ascii "enable", ascii "stop"] := by
  apply handed_iff_aligned
  simp only [Sendable]
  decide

theorem frames_merged :
    ¬ ∀ (fd : Int) (cuts : ℕ → ℕ) (stale : ℕ → Bytes) (cmds : List Bytes),
      (∀ j, (stale j).length = 4) → (∀ c ∈ cmds, Sendable c) →
        handed fd cuts stale (frames cmds) = cmds := by
  intro h
  have hcmds : ∀ c ∈ [ascii "disable 0", ascii "stop"], Sendable c := by
    simp only [Sendable]
    decide
  have hlost : handed 5 (fun _ => 100) (fun _ => [0, 0, 0, 0])
      (frames [ascii "disable 0", ascii "stop"]) = [] := by decide
  have hboth := h 5 (fun _ => 100) (fun _ => [0, 0, 0, 0]) _ (fun _ => rfl) hcmds
  rw [hlost] at hboth
  exact List.cons_ne_nil _ _ hboth.symm

end TeamspeakWebserver.Sessions
