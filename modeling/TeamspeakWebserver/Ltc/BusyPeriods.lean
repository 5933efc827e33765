import TeamspeakWebserver.Ltc.Database

/-! What the tables hold, in terms of the busy periods of each client. -/

namespace TeamspeakWebserver.Ltc

open Occupancy

variable {τ : Type*} [AddCommGroup τ] [DecidableEq τ]

namespace Event

def effect (id : UInt32) (n : ℕ) : Event τ → ℕ
  | connect i _ _ => if i = id then n + 1 else n
  | disconnect i _ => if i = id then n - 1 else n
  | reset => 0

/-- A period that the end of the file cuts is not complete. -/
def closes (e : Event τ) : Prop := e ≠ reset

instance : DecidablePred (closes (τ := τ)) := fun e => inferInstanceAs (Decidable (e ≠ reset))

def time : Event τ → τ
  | connect _ _ t => t
  | disconnect _ t => t
  | reset => 0

def name : Event τ → Bytes
  | connect _ n _ => n
  | _ => []

def Proper : Event τ → Prop
  | connect id _ t => 2 ≤ id ∧ t ≠ 0
  | disconnect id _ => 2 ≤ id
  | reset => True

instance : DecidablePred (Proper (τ := τ))
  | connect id _ t => inferInstanceAs (Decidable (2 ≤ id ∧ t ≠ 0))
  | disconnect id _ => inferInstanceAs (Decidable (2 ≤ id))
  | reset => isTrue trivial

end Event

def connections (id : UInt32) (events : List (Event τ)) : ℕ := level (Event.effect id) events

def timeSpent (id : UInt32) (events : List (Event τ)) : τ :=
  total (Event.effect id) Event.closes Event.time events

def nameAt (events : List (Event τ)) (i : ℕ) : Bytes := (events[i]?).elim [] Event.name

def recorded (events : List (Event τ)) : ClientMap τ := fun id =>
  (opening (Event.effect id) events).map fun i =>
    { name := nameAt events i
      lastTimeConnected := if connections id events = 0 then 0 else timeAt Event.time events i
      totalTimeConnected := timeSpent id events
      numConn := (connections id events).toUInt32 }

lemma apply_eq (map : ClientMap τ) {e : Event τ} (he : e.Proper) :
    Rust.apply map e = Cpp.apply map e := by
  cases e with
  | connect id name t =>
    have hid : ¬id ≤ 1 := by
      intro h
      exact absurd (UInt32.le_trans he.1 h) (by decide)
    simp only [Rust.apply, Cpp.apply, Rust.logConnect, Cpp.logConn, if_neg hid]
    cases hc : map id with
    | none => simp [Cpp.newClient]
    | some client =>
      simp only [Option.getD_some, Cpp.clientLogConn]
      split <;> rfl
  | disconnect id t =>
    have hid : ¬id ≤ 1 := by
      intro h
      exact absurd (UInt32.le_trans he h) (by decide)
    simp only [Rust.apply, Cpp.apply, Rust.logDisconnect, Cpp.logDisconn, if_neg hid]
    cases hc : map id with
    | none => rfl
    | some client =>
      simp only [Cpp.clientLogDisconn, and_comm (a := client.numConn = 1)]
      split
      · rfl
      · rw [ClientMap.insert, ← hc, Function.update_eq_self]
  | reset => rfl

section Recorded

variable {events : List (Event τ)} {id : UInt32} {i : ℕ} {e : Event τ}

omit [AddCommGroup τ] [DecidableEq τ] in
lemma connections_snoc (id : UInt32) (events : List (Event τ)) (e : Event τ) :
    connections id (events ++ [e]) = e.effect id (connections id events) := level_snoc events e

omit [AddCommGroup τ] [DecidableEq τ] in
lemma connections_le (id : UInt32) (events : List (Event τ)) :
    connections id events ≤ events.length := by
  induction events using List.reverseRecOn with
  | nil => exact le_rfl
  | append_singleton events e ih =>
    rw [connections_snoc, List.length_append, List.length_singleton]
    cases e with
    | connect i name t =>
      rw [Event.effect]
      split <;> omega
    | disconnect i t =>
      rw [Event.effect]
      split <;> omega
    | reset => exact Nat.zero_le _

omit [AddCommGroup τ] [DecidableEq τ] in
lemma nameAt_snoc (e : Event τ) (h : i < events.length) :
    nameAt (events ++ [e]) i = nameAt events i := by
  rw [nameAt, nameAt, List.getElem?_append_left h]

omit [AddCommGroup τ] [DecidableEq τ] in
lemma nameAt_last (events : List (Event τ)) (e : Event τ) :
    nameAt (events ++ [e]) events.length = e.name := by
  rw [nameAt, List.getElem?_concat_length]
  rfl

omit [DecidableEq τ] in
lemma timeAt_opening (hp : ∀ e ∈ events, e.Proper)
    (ho : opening (Event.effect id) events = some i) : timeAt Event.time events i ≠ 0 := by
  obtain ⟨hi, h0, h1⟩ := opening_lt ho
  have htake : events.take (i + 1) = events.take i ++ [events[i]] := (List.take_concat_get' events i hi).symm
  rw [htake, level_snoc, h0] at h1
  have hproper := hp events[i] (List.getElem_mem hi)
  rw [timeAt, List.getElem?_eq_getElem hi, Option.elim_some]
  cases he : events[i] with
  | connect id' name t =>
    rw [he] at hproper
    exact hproper.2
  | disconnect id' t =>
    rw [he, Event.effect, Nat.zero_sub, ite_self] at h1
    exact absurd h1 (Nat.lt_irrefl 0)
  | reset =>
    rw [he] at h1
    exact absurd h1 (Nat.lt_irrefl 0)

lemma recorded_of_opening (ho : opening (Event.effect id) events = some i) :
    recorded events id = some
      { name := nameAt events i
        lastTimeConnected := if connections id events = 0 then 0 else timeAt Event.time events i
        totalTimeConnected := timeSpent id events
        numConn := (connections id events).toUInt32 } := by
  rw [recorded, ho]
  rfl

lemma recorded_of_none (ho : opening (Event.effect id) events = none) :
    recorded events id = none := by
  rw [recorded, ho]
  rfl

lemma recorded_snoc_same (h : e.effect id (connections id events) = connections id events) :
    recorded (events ++ [e]) id = recorded events id := by
  have hlevel : connections id (events ++ [e]) = connections id events := by
    rw [connections_snoc, h]
  have hopen : opening (Event.effect id) (events ++ [e]) = opening (Event.effect id) events := by
    rw [opening_snoc, if_neg]
    rintro ⟨h0, h1⟩
    rw [show level (Event.effect id) (events ++ [e]) = connections id events from hlevel] at h1
    exact absurd h0 (Nat.pos_iff_ne_zero.mp h1)
  have htotal : timeSpent id (events ++ [e]) = timeSpent id events := by
    apply total_snoc_same
    rintro ⟨h0, h1, -⟩
    rw [show level (Event.effect id) (events ++ [e]) = connections id events from hlevel] at h1
    exact absurd h1 (Nat.pos_iff_ne_zero.mp h0)
  cases ho : opening (Event.effect id) events with
  | none =>
    rw [recorded_of_none ho, recorded_of_none (hopen.trans ho)]
  | some i =>
    have hi := (opening_lt ho).1
    rw [recorded_of_opening ho, recorded_of_opening (hopen.trans ho), hlevel, htotal,
      nameAt_snoc e hi, timeAt_snoc Event.time e hi]

lemma recorded_first (name : Bytes) (t : τ) (h0 : connections id events = 0) :
    recorded (events ++ [.connect id name t]) id =
      some ⟨name, t, timeSpent id events, 1⟩ := by
  have hlevel : connections id (events ++ [.connect id name t]) = 1 := by
    rw [connections_snoc, h0, Event.effect, if_pos rfl]
  have hopen : opening (Event.effect id) (events ++ [.connect id name t]) = some events.length := by
    rw [opening_snoc, if_pos]
    refine ⟨h0, ?_⟩
    rw [show level (Event.effect id) (events ++ [.connect id name t]) = 1 from hlevel]
    exact Nat.one_pos
  have htotal : timeSpent id (events ++ [.connect id name t]) = timeSpent id events := by
    apply total_snoc_same
    rintro ⟨h1, -⟩
    exact absurd h0 (Nat.pos_iff_ne_zero.mp h1)
  rw [recorded_of_opening hopen, hlevel, htotal, nameAt_last, timeAt_last]
  rfl

lemma recorded_snoc (ho : opening (Event.effect id) events = some i)
    (h0 : connections id events ≠ 0 ∨ connections id (events ++ [e]) = 0)
    (htotal : timeSpent id (events ++ [e]) = timeSpent id events) :
    recorded (events ++ [e]) id = some
      { name := nameAt events i
        lastTimeConnected :=
          if connections id (events ++ [e]) = 0 then 0 else timeAt Event.time events i
        totalTimeConnected := timeSpent id events
        numConn := (connections id (events ++ [e])).toUInt32 } := by
  have hi := (opening_lt ho).1
  have hopen : opening (Event.effect id) (events ++ [e]) = some i := by
    rw [opening_snoc, if_neg, ho]
    rintro ⟨h1, h2⟩
    rcases h0 with h | h
    · exact h h1
    · exact Nat.pos_iff_ne_zero.mp h2 h
  rw [recorded_of_opening hopen, htotal, nameAt_snoc e hi, timeAt_snoc Event.time e hi]

lemma toUInt32_succ (n : ℕ) : n.toUInt32 + 1 = (n + 1).toUInt32 := by
  apply UInt32.toNat_inj.mp
  simp [Nat.toUInt32]

lemma toUInt32_pred {n : ℕ} (h0 : n ≠ 0) : n.toUInt32 - 1 = (n - 1).toUInt32 := by
  obtain ⟨m, rfl⟩ := Nat.exists_eq_succ_of_ne_zero h0
  rw [Nat.succ_sub_one, Nat.succ_eq_add_one, ← toUInt32_succ]
  simp

lemma toUInt32_eq {n m : ℕ} (hn : n < 2 ^ 32) (hm : m < 2 ^ 32) :
    n.toUInt32 = m.toUInt32 ↔ n = m := by
  rw [← UInt32.toNat_inj]
  simp only [Nat.toUInt32, UInt32.toNat_ofNat']
  omega

lemma logConn_recorded (name : Bytes) (t : τ) (hmax : connections id events + 1 < 2 ^ 32) :
    Cpp.logConn (recorded events) name id t id =
      recorded (events ++ [.connect id name t]) id := by
  have hstep : connections id (events ++ [.connect id name t]) = connections id events + 1 := by
    rw [connections_snoc, Event.effect, if_pos rfl]
  cases ho : opening (Event.effect id) events with
  | none =>
    have h0 : connections id events = 0 := by
      by_contra h
      obtain ⟨i, hi, -⟩ := opening_busy (Nat.pos_of_ne_zero h)
      rw [ho] at hi
      cases hi
    rw [recorded_first name t h0, Cpp.logConn, recorded_of_none ho]
    simp only [ClientMap.insert, Function.update_self, Cpp.newClient, timeSpent,
      total_of_opening_none Event.time ho]
  | some i =>
    rw [Cpp.logConn, recorded_of_opening ho]
    simp only [ClientMap.insert, Function.update_self, Cpp.clientLogConn, toUInt32_succ]
    have hone : ((connections id events + 1).toUInt32 = 1) ↔ connections id events = 0 := by
      rw [show (1 : UInt32) = (1 : ℕ).toUInt32 from rfl, toUInt32_eq hmax (by decide)]
      omega
    by_cases h0 : connections id events = 0
    · rw [if_pos (hone.mpr h0), recorded_first name t h0, h0]
      split
      · rfl
      · rename_i hname
        rw [not_not.mp hname]
        rfl
    · have hsame : timeSpent id (events ++ [.connect id name t]) = timeSpent id events := by
        apply total_snoc_same
        rintro ⟨-, h1, -⟩
        rw [show level _ _ = connections id (events ++ [.connect id name t]) from rfl, hstep] at h1
        exact absurd h1 (Nat.succ_ne_zero _)
      rw [if_neg (fun h => h0 (hone.mp h)), recorded_snoc ho (Or.inl h0) hsame, hstep, if_neg h0,
        if_neg (Nat.succ_ne_zero _)]

lemma logDisconn_recorded (t : τ) (hp : ∀ e ∈ events, e.Proper)
    (hmax : connections id events < 2 ^ 32) :
    Cpp.logDisconn (recorded events) id t id = recorded (events ++ [.disconnect id t]) id := by
  have hstep : connections id (events ++ [.disconnect id t]) = connections id events - 1 := by
    rw [connections_snoc, Event.effect, if_pos rfl]
  have hzero : (connections id events).toUInt32 = 0 ↔ connections id events = 0 := by
    rw [show (0 : UInt32) = (0 : ℕ).toUInt32 from rfl, toUInt32_eq hmax (by decide)]
  have hone : (connections id events).toUInt32 = 1 ↔ connections id events = 1 := by
    rw [show (1 : UInt32) = (1 : ℕ).toUInt32 from rfl, toUInt32_eq hmax (by decide)]
  by_cases h0 : connections id events = 0
  · rw [recorded_snoc_same (by rw [h0, Event.effect, if_pos rfl])]
    rw [Cpp.logDisconn]
    cases hc : recorded events id with
    | none => exact hc
    | some client =>
      obtain ⟨i, ho, hi⟩ := Option.map_eq_some_iff.mp hc
      have hn : client.numConn = 0 := by rw [← hi, hzero.mpr h0]
      simp only [ClientMap.insert, Function.update_self, Cpp.clientLogDisconn, hn, ne_eq,
        not_true_eq_false, if_false]
  · obtain ⟨i, ho, -⟩ := opening_busy (Nat.pos_of_ne_zero h0)
    rw [Cpp.logDisconn, recorded_of_opening ho]
    simp only [ClientMap.insert, Function.update_self, Cpp.clientLogDisconn, if_neg h0,
      if_pos (fun h => h0 (hzero.mp h))]
    by_cases h1 : connections id events = 1
    · have hend : level (Event.effect id) (events ++ [.disconnect id t]) = 0 := by
        rw [show level _ _ = connections id (events ++ [.disconnect id t]) from rfl, hstep, h1]
      have hopen : opening (Event.effect id) (events ++ [.disconnect id t]) = some i := by
        rw [opening_snoc, if_neg, ho]
        rintro ⟨-, h2⟩
        rw [hend] at h2
        exact absurd h2 (Nat.lt_irrefl 0)
      have hclose : timeSpent id (events ++ [.disconnect id t]) =
          timeSpent id events + (t - timeAt Event.time events i) := by
        apply total_snoc_close Event.time ho
        refine ⟨Nat.pos_of_ne_zero h0, hend, ?_⟩
        intro h
        cases h
      rw [if_pos ⟨timeAt_opening hp ho, hone.mpr h1⟩, recorded_of_opening hopen, hclose, hstep, h1,
        nameAt_snoc _ (opening_lt ho).1, if_pos rfl, toUInt32_pred Nat.one_ne_zero]
    · have hsame : timeSpent id (events ++ [.disconnect id t]) = timeSpent id events := by
        apply total_snoc_same
        rintro ⟨-, h2, -⟩
        rw [show level _ _ = connections id (events ++ [.disconnect id t]) from rfl, hstep] at h2
        omega
      rw [if_neg (fun h => h1 (hone.mp h.2)), recorded_snoc ho (Or.inl h0) hsame, hstep,
        if_neg (by omega), toUInt32_pred h0]

lemma resetClients_recorded (id : UInt32) (events : List (Event τ)) :
    Cpp.resetClients (recorded events) id = recorded (events ++ [.reset]) id := by
  have hend : connections id (events ++ [.reset]) = 0 := by
    rw [connections_snoc, Event.effect]
  have hsame : timeSpent id (events ++ [.reset]) = timeSpent id events := by
    apply total_snoc_same
    rintro ⟨-, -, h⟩
    exact h rfl
  cases ho : opening (Event.effect id) events with
  | none =>
    have hopen : opening (Event.effect id) (events ++ [.reset]) = none := by
      rw [opening_snoc, if_neg, ho]
      rintro ⟨-, h⟩
      exact absurd hend (Nat.pos_iff_ne_zero.mp h)
    rw [Cpp.resetClients, recorded_of_none ho, recorded_of_none hopen]
    rfl
  | some i =>
    rw [Cpp.resetClients, recorded_of_opening ho, recorded_snoc ho (Or.inr hend) hsame, hend,
      if_pos rfl]
    rfl

end Recorded

lemma apply_recorded {events : List (Event τ)} (hp : ∀ e ∈ events, e.Proper) {e : Event τ}
    (hmax : ∀ id, connections id events < 2 ^ 32 ∧ connections id (events ++ [e]) < 2 ^ 32) :
    Cpp.apply (recorded events) e = recorded (events ++ [e]) := by
  funext id
  cases e with
  | connect i name t =>
    by_cases hi : i = id
    · subst hi
      apply logConn_recorded
      have hm := (hmax i).2
      rwa [connections_snoc, Event.effect, if_pos rfl] at hm
    · rw [recorded_snoc_same (by rw [Event.effect, if_neg hi]), Cpp.apply, Cpp.logConn]
      cases recorded events i with
      | none => exact Function.update_of_ne (Ne.symm hi) _ _
      | some client => exact Function.update_of_ne (Ne.symm hi) _ _
  | disconnect i t =>
    by_cases hi : i = id
    · subst hi
      exact logDisconn_recorded t hp (hmax i).1
    · rw [recorded_snoc_same (by rw [Event.effect, if_neg hi]), Cpp.apply, Cpp.logDisconn]
      cases recorded events i with
      | none => rfl
      | some client => exact Function.update_of_ne (Ne.symm hi) _ _
  | reset => exact resetClients_recorded id events

def Countable (events : List (Event τ)) : Prop :=
  ∀ id past, past <+: events → connections id past < 2 ^ 32

lemma database_recorded {events : List (Event τ)} (hp : ∀ e ∈ events, e.Proper)
    (hmax : Countable events) : Cpp.database events = recorded events := by
  induction events using List.reverseRecOn with
  | nil => rfl
  | append_singleton events e ih =>
    have hpast : Cpp.database events = recorded events := by
      apply ih
      · intro e' he'
        exact hp e' (List.mem_append_left [e] he')
      · intro id past h
        exact hmax id past (h.trans (List.prefix_append events [e]))
    rw [Cpp.database, List.foldl_append, ← Cpp.database, hpast]
    apply apply_recorded
    · intro e' he'
      exact hp e' (List.mem_append_left [e] he')
    · intro id
      exact ⟨hmax id events (List.prefix_append events [e]), hmax id _ (List.prefix_refl _)⟩

lemma database_eq {events : List (Event τ)} (hp : ∀ e ∈ events, e.Proper) :
    Rust.database events = Cpp.database events := by
  induction events using List.reverseRecOn with
  | nil => rfl
  | append_singleton events e ih =>
    have hpast : Rust.database events = Cpp.database events :=
      ih fun e' he' => hp e' (List.mem_append_left [e] he')
    have he := hp e (List.mem_append_right events List.mem_cons_self)
    rw [Rust.database, Cpp.database, List.foldl_append, List.foldl_append, ← Rust.database,
      ← Cpp.database, hpast]
    exact apply_eq _ he

theorem databases_agree (events : List (Event τ)) (hp : ∀ e ∈ events, e.Proper)
    (hmax : Countable events) :
    Rust.database events = Cpp.database events ∧
      ∀ id, Rust.database events id = recorded events id := by
  have he := database_eq hp
  refine ⟨he, ?_⟩
  intro id
  rw [he, database_recorded hp hmax]

theorem databases_agree_overlap :
    let events : List (Event ℤ) :=
      [.connect 7 (ascii "bob") 10, .connect 7 (ascii "bob1") 20, .disconnect 7 30,
        .disconnect 7 45, .disconnect 7 50, .connect 7 (ascii "rob") 60, .reset]
    Rust.database events = Cpp.database events ∧
      ∀ id, Rust.database events id = recorded events id := by
  apply databases_agree
  · decide
  · intro id past h
    have hc : connections id past ≤ past.length := connections_le id past
    have hl := h.length_le
    simp only [List.length_cons, List.length_nil] at hl
    omega

end TeamspeakWebserver.Ltc
