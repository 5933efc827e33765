import TeamspeakWebserver.Manager.Restarts
import TeamspeakWebserver.Manager.Retries

/-! How often a module can be launched, and how often it can die. -/

namespace TeamspeakWebserver.Manager

open Interruptible Prog Rules Sessions

def boots (bot server : Bool) : Mod → ℕ
  | .tsBot => bot.toNat
  | .tsWebserver => server.toNat

def Module.up (M : Module) : ℕ := if M.state = .running then 1 else 0

/-- Every launch is paid for by `e`, by a request or by one of the failures a module is forgiven, with
`k` more launches to come; and every death and every running module by a launch, with `a` to come up. -/
structure Ledger (e k a : Mod → ℕ) (s : State) : Prop where
  numFails : ∀ m, (s.mods m).numFails = UInt32.ofNat (s.log.count (.failed m))
  budget : ∀ m, s.log.count (.failed m) < 2 ^ 32 → s.log.count (.launched m) + k m ≤
    e m + s.log.count (.requested m) + min (s.log.count (.failed m)) (maxFailForStop.toNat - 1)
  alive : ∀ m, s.log.count (.died m) + (s.mods m).up + a m ≤ s.log.count (.launched m)

lemma reap_count (dead status : Int) (s : State) {x : Event} (hx : ∀ m, x ≠ .died m) :
    (reap dead status s).log.count x = s.log.count x := by
  rw [reap_log, List.count_append, List.count_eq_zero.mpr, Nat.zero_add]
  intro hmem
  obtain ⟨m, -, rfl⟩ := List.mem_map.mp (List.mem_reverse.mp hmem)
  exact hx m rfl

namespace Ledger

variable {e k a : Mod → ℕ} {s s' : State} {m : Mod}

lemma quiet (h : Ledger e k a s) (hn : ∀ m, (s'.mods m).numFails = (s.mods m).numFails)
    (hu : ∀ m, (s'.mods m).up ≤ (s.mods m).up)
    (hl : ∀ m, s'.log.count (.launched m) = s.log.count (.launched m))
    (hf : ∀ m, s'.log.count (.failed m) = s.log.count (.failed m))
    (hd : ∀ m, s'.log.count (.died m) = s.log.count (.died m))
    (hr : ∀ m, s.log.count (.requested m) ≤ s'.log.count (.requested m)) : Ledger e k a s' where
  numFails m := by rw [hn, hf, h.numFails]
  budget m hm := by
    rw [hf] at hm ⊢
    have hb := h.budget m hm
    have hq := hr m
    rw [hl]
    omega
  alive m := by
    have hv := h.alive m
    have hq := hu m
    rw [hl, hd]
    omega

lemma record (h : Ledger e k a s) {x : Event} (hx : ∀ m, x ≠ .launched m ∧ x ≠ .failed m ∧ x ≠ .died m) :
    Ledger e k a (s.record x) := by
  refine h.quiet (fun _ => rfl) (fun _ => le_rfl) ?_ ?_ ?_ ?_
  · exact fun m => List.count_cons_of_ne (hx m).1
  · exact fun m => List.count_cons_of_ne (hx m).2.1
  · exact fun m => List.count_cons_of_ne (hx m).2.2
  · exact fun m => List.count_le_count_cons

lemma reap (h : Ledger e k a s) (dead status : Int) : Ledger e k a (Manager.reap dead status s) where
  numFails m := by
    rw [reap_mods, Module.onDeath_numFails, reap_count dead status s (by simp)]
    exact h.numFails m
  budget m hm := by
    rw [reap_count dead status s (by simp)] at hm
    rw [reap_count dead status s (by simp), reap_count dead status s (by simp),
      reap_count dead status s (by simp)]
    exact h.budget m hm
  alive m := by
    have hv := h.alive m
    have hd : (Manager.reap dead status s).log.count (.died m) =
        ((s.mods m).dies dead).toNat + s.log.count (.died m) := by
      rw [reap_log, List.count_append, count_deaths]
    rw [hd, reap_count dead status s (by simp), reap_mods, Module.onDeath]
    by_cases hm : dead = (s.mods m).pid ∧ (s.mods m).state = .running
    · rw [Module.up, if_pos hm.2] at hv
      rw [if_pos hm, Module.dies, decide_eq_true hm]
      simp only [Module.up, reduceCtorEq, if_false, Bool.toNat_true]
      omega
    · rw [if_neg hm, Module.dies, decide_eq_false hm]
      simpa using hv

lemma resists (e k a : Mod → ℕ) : Resists (Ledger e k a) where
  pending _ _ h := ⟨h.numFails, h.budget, h.alive⟩
  childExit _ _ _ h := ⟨h.numFails, h.budget, h.alive⟩
  reap _ dead status _ h := h.reap dead status
  term s _ h := by
    have hr : Ledger e k a (s.record .terminated) := h.record (by simp)
    exact ⟨hr.numFails, hr.budget, hr.alive⟩

lemma launched (h : Ledger e (k + Pi.single m 1) 0 s) (cs : List Child) :
    Ledger e k (Pi.single m 1) ({ s with children := cs }.record (.launched m)) where
  numFails m' := by simpa using h.numFails m'
  budget m' hm := by
    simp only [State.record_log, ne_eq, reduceCtorEq, not_false_eq_true, List.count_cons_of_ne] at hm
    have hb := h.budget m' hm
    by_cases he : m' = m
    · subst he
      simp only [Pi.add_apply, Pi.single_eq_same] at hb
      simp only [State.record_log, List.count_cons_self, ne_eq, reduceCtorEq, not_false_eq_true,
        List.count_cons_of_ne]
      omega
    · simpa [he, Ne.symm he] using hb
  alive m' := by
    have hv := h.alive m'
    by_cases he : m' = m
    · subst he
      simp only [Pi.zero_apply] at hv
      simp only [State.record_log, List.count_cons_self, ne_eq, reduceCtorEq, not_false_eq_true,
        List.count_cons_of_ne, Pi.single_eq_same, State.record_mods]
      omega
    · simpa [he, Ne.symm he] using hv

lemma comesUp (h : Ledger e k (Pi.single m 1) s) : Ledger e k 0 (s.setMod m ({ · with state := .running })) where
  numFails m' := by
    rw [State.setMod_field Module.numFails rfl]
    exact h.numFails m'
  budget := h.budget
  alive m' := by
    have hv := h.alive m'
    by_cases he : m' = m
    · subst he
      simp only [Pi.single_eq_same] at hv
      simp only [State.setMod_self, State.setMod_log, Module.up, if_true, Pi.zero_apply]
      omega
    · simpa [he] using hv

lemma bumped {c : ℕ} (h : Ledger e 0 a s)
    (hc : s.log.count (.failed m) + 1 < 2 ^ 32 → c + min (s.log.count (.failed m)) (maxFailForStop.toNat - 1) ≤
      min (s.log.count (.failed m) + 1) (maxFailForStop.toNat - 1)) :
    Ledger e (Pi.single m c) a
      ((s.setMod m fun M => { M with numFails := M.numFails + 1 }).record (.failed m)) where
  numFails m' := by
    have hn := h.numFails m'
    by_cases he : m' = m
    · subst he
      simp [hn, List.count_cons_self, UInt32.ofNat_add]
    · simpa [he, Ne.symm he] using hn
  budget m' hm := by
    have hb := h.budget m'
    by_cases he : m' = m
    · subst he
      simp only [State.record_log, State.setMod_log, List.count_cons_self] at hm
      have hq := hc hm
      have hb' := hb (by omega)
      simp only [Pi.zero_apply] at hb'
      simp only [State.record_log, State.setMod_log, List.count_cons_self, ne_eq, reduceCtorEq,
        not_false_eq_true, List.count_cons_of_ne, Pi.single_eq_same]
      omega
    · simp only [State.record_log, State.setMod_log, ne_eq, Event.failed.injEq, Ne.symm he,
        not_false_eq_true, List.count_cons_of_ne] at hm
      simpa [he, Ne.symm he] using hb hm
  alive m' := by
    have hv := h.alive m'
    by_cases he : m' = m
    · subst he
      simpa [Module.up] using hv
    · simpa [he] using hv

lemma forgiven (h : Ledger e 0 a s) (hf : (s.mods m).numFails + 1 < maxFailForStop) :
    Ledger e (Pi.single m 1) a
      ((s.setMod m fun M => { M with numFails := M.numFails + 1 }).record (.failed m)) := by
  apply h.bumped
  intro hlt
  have hmax : maxFailForStop.toNat = 5 := rfl
  have hof : (UInt32.ofNat (s.log.count (.failed m))).toNat = s.log.count (.failed m) :=
    UInt32.toNat_ofNat_of_lt' (by rw [UInt32.size]; omega)
  rw [h.numFails m, UInt32.lt_iff_toNat_lt, UInt32.toNat_add, hof, hmax, UInt32.toNat_one,
    Nat.mod_eq_of_lt hlt] at hf
  omega

lemma given_up (h : Ledger e 0 a s) : Ledger e 0 a
    ((s.setMod m fun M => { M with numFails := M.numFails + 1 }).record (.failed m)) := by
  have hb := h.bumped (m := m) (c := 0) fun _ => by omega
  rwa [Pi.single_zero] at hb

lemma requested (h : Ledger e 0 a s) : Ledger e (Pi.single m 1) a (s.record (.requested m)) where
  numFails m' := by simpa using h.numFails m'
  budget m' hm := by
    simp only [State.record_log, ne_eq, reduceCtorEq, not_false_eq_true, List.count_cons_of_ne] at hm
    have hb := h.budget m' hm
    by_cases he : m' = m
    · subst he
      simp only [Pi.zero_apply] at hb
      simp only [State.record_log, List.count_cons_self, ne_eq, reduceCtorEq, not_false_eq_true,
        List.count_cons_of_ne, Pi.single_eq_same]
      omega
    · simpa [he, Ne.symm he] using hb
  alive m' := by simpa using h.alive m'

lemma spare (h : Ledger e (k + Pi.single m 1) a s) : Ledger e k a s :=
  ⟨h.numFails, fun m hm => (Nat.add_le_add_left (Nat.le_add_right _ _) _).trans (h.budget m hm),
    h.alive⟩

lemma closed (h : Ledger e k a s) : Ledger e 0 0 s :=
  ⟨h.numFails, fun m hm => (Nat.add_le_add_left (Nat.zero_le _) _).trans (h.budget m hm),
    fun m => (Nat.add_le_add_left (Nat.zero_le _) _).trans (h.alive m)⟩

end Ledger

section Walk

abbrev ledgerRules (e : Mod → ℕ) : Rules Op.Res State Answer Signal :=
  rules (fun _ _ _ => True) fun _ => Ledger e 0 0

variable {e k a : Mod → ℕ} {op : Op} {m : Mod}

lemma ledger_none : (ledgerRules e).Holds none (Ledger e k a) :=
  (Ledger.resists e k a).holds fun _ h => h.closed

lemma exec_up {s s' : State} {i : Answer} {r : op.Res} (hs : ∀ m, op ≠ .setState m .running)
    (he : exec op s i = some (r, s')) (m : Mod) : (s'.mods m).up ≤ (s.mods m).up := by
  rw [exec_mods he]
  cases op with
  | setState m' st =>
    rw [Op.updates]
    split
    · have hst : st ≠ .running := fun h => hs m' (by rw [h])
      simp [Module.up, hst]
    · exact le_rfl
  | _ => first
    | exact le_rfl
    | (simp only [Op.updates]; split <;> exact le_rfl)

lemma ledger_keeps (hl : op.writesLog = false) (hs : ∀ m, op ≠ .setState m .running) :
    (ledgerRules e).Keeps (Ledger e k a) op := by
  apply (Ledger.resists e k a).atomic fun _ h => h.closed
  intro s i r s' h _ he
  have hlog := (exec_frame he).log hl
  refine h.quiet (fun m => exec_numFails ?_ he) (exec_up hs he) ?_ ?_ ?_ ?_
  · rintro rfl
    cases hl
  all_goals
    intro m
    rw [hlog]

lemma ledger_note {x : Event} (hx : ∀ m, x ≠ .launched m ∧ x ≠ .failed m ∧ x ≠ .died m) :
    (ledgerRules e).Keeps (Ledger e k a) (.note x) :=
  (Ledger.resists e k a).det (fun _ h => h.closed) (fun _ _ => rfl) fun _ h => h.record hx

lemma doModuleExit_ledger (m : Mod) :
    (ledgerRules e).Valid (Ledger e k a) (doModuleExit m) fun _ => Ledger e k a := by
  have hend : (endChild m).Uses ((ledgerRules e).Keeps (Ledger e k a)) := by
    refine (endChild_uses m).mono fun op h => ledger_keeps ?_ ?_
    · cases op <;> first | rfl | cases h
    · rintro m' rfl
      cases h
  refine .act (ledger_keeps rfl (by simp)) fun (b : Bool) => ?_
  cases b with
  | true => exact fun _ h => h
  | false =>
  refine .act (ledger_keeps rfl (by simp)) fun fl => (Valid.of_uses ledger_none hend).bind fun _ => ?_
  refine .act (ledger_keeps rfl (by simp)) fun _ => .act (ledger_keeps rfl (by simp)) fun _ => ?_
  refine .act (ledger_keeps rfl (by simp)) fun _ => .act (ledger_keeps rfl (by simp)) fun _ => ?_
  exact .call (ledger_keeps rfl (by simp))

lemma fork_ledger (fl : SigSet) : (ledgerRules e).Atomic (.fork m fl)
    (Ledger e (k + Pi.single m 1) 0) fun r s => r.elim (Ledger e k 0 s) fun _ =>
      Ledger e k (Pi.single m 1) s := by
  apply (Ledger.resists e _ 0).atomic fun _ h => h.closed
  intro s i r s' h _ he
  rcases exec_fork he with ⟨rfl, rfl⟩ | ⟨p, -, rfl, -, -, rfl⟩
  · exact h.spare
  · exact h.launched _

lemma doModuleInit_ledger (k : Mod → ℕ) (m : Mod) : (ledgerRules e).Valid
    (Ledger e (k + Pi.single m 1) 0) (doModuleInit m) fun _ => Ledger e k 0 := by
  refine .act (ledger_keeps rfl (by simp)) fun (b : Bool) => ?_
  cases b with
  | true => exact fun _ h => h.spare
  | false =>
  refine .act (ledger_keeps rfl (by simp)) fun (r : Option (Int × Int)) => ?_
  cases r with
  | none => exact fun _ h => h.spare
  | some p =>
  obtain ⟨r, w⟩ := p
  refine .act (ledger_keeps rfl (by simp)) fun _ => .act (ledger_keeps rfl (by simp)) fun fl => ?_
  refine .act (fork_ledger fl) fun (q : Option Int) => ?_
  cases q with
  | none =>
    refine .act (ledger_keeps rfl (by simp)) fun _ => .act (ledger_keeps rfl (by simp)) fun _ => ?_
    exact .act (ledger_keeps rfl (by simp)) fun _ => .act (ledger_keeps rfl (by simp)) fun _ _ h => h
  | some p =>
    refine .act (B := fun _ => Ledger e k 0) ?_ fun _ => ?_
    · exact (Ledger.resists e k _).det (fun _ h => h.closed) (fun _ _ => rfl) fun _ h => h.comesUp
    refine .act (ledger_keeps rfl (by simp)) fun _ => .act (ledger_keeps rfl (by simp)) fun _ => ?_
    exact .act (ledger_keeps rfl (by simp)) fun _ => .act (ledger_keeps rfl (by simp)) fun _ _ h => h

lemma doModuleInit_paid (m : Mod) : (ledgerRules e).Valid (Ledger e (Pi.single m 1) 0)
    (doModuleInit m) fun _ => Ledger e 0 0 := by
  have h := doModuleInit_ledger (e := e) 0 m
  rwa [zero_add] at h

lemma runCommand_ledger (cmd : ManagerCmds) (m : Mod) (errv : Int) :
    (ledgerRules e).Valid (Ledger e 0 0) (runCommand cmd m errv) fun _ => Ledger e 0 0 := by
  refine runCommand_valid (A := Ledger e (Pi.single m 1) 0) (D := Ledger e 0 0) ?_
    (doModuleExit_ledger m) (doModuleInit_paid m) (doModuleExit_ledger m) (ledger_note (by simp))
    cmd errv
  exact (Ledger.resists e 0 0).det (fun _ h => h.closed) (fun _ _ => rfl) fun _ h => h.requested

lemma retry_ledger (m : Mod) : (ledgerRules e).Valid (Ledger e 0 0) (retry m)
    (Sum.elim (fun _ => Ledger e 0 0) fun _ => Ledger e 0 0) := by
  apply retry_valid (doModuleExit_ledger m) (F := Ledger e 0 0)
    (B := fun r s => Ledger e 0 0 s ∧ (r < maxFailForStop → Ledger e (Pi.single m 1) 0 s))
  · apply (Ledger.resists e 0 0).det (fun _ h => h.closed) fun _ _ => rfl
    exact fun s h => ⟨h.given_up, h.forgiven⟩
  · exact fun _ _ _ h => h.1
  · intro r hr
    refine ((doModuleInit_paid m).weaken fun s h => h.2 hr).strengthen fun r s h => ?_
    split <;> exact h
  · exact ledger_note (by simp)

lemma restartMod_ledger (m : Mod) :
    (ledgerRules e).Valid (Ledger e 0 0) (restartMod m) fun _ => Ledger e 0 0 := by
  have hkeep {op : Op} (hl : op.writesLog = false) (hs : ∀ m, op ≠ .setState m .running) :
      (ledgerRules e).Keeps (Ledger e 0 0) op := ledger_keeps hl hs
  refine restartMod_valid (A := Ledger e 0 0) (I := Ledger e 0 0) (O := Ledger e 0 0) ?_
    (fun _ => hkeep rfl (by simp)) (fun _ h => h) (hkeep rfl (by simp)) (ledger_note (by simp))
    ledger_none (retry_ledger m) (hkeep rfl (by simp))
  exact (Ledger.resists e 0 0).det (fun _ h => h.closed) (fun _ _ => rfl) fun _ h => ⟨h, fun _ => h⟩

lemma looped_ledger : Looped (ledgerRules e) (Ledger e 0 0) fun _ => Ledger e 0 0 := by
  have hkeep {op : Op} (hl : op.writesLog = false) (hs : ∀ m, op ≠ .setState m .running) :
      (ledgerRules e).Keeps (Ledger e 0 0) op := ledger_keeps hl hs
  have hplain (op : Op) (h : op.Plain) : (ledgerRules e).Keeps (Ledger e 0 0) op :=
    hkeep (by cases op <;> first | rfl | cases h) (by rintro m rfl; cases h)
  have hrestart : (ledgerRules e).Valid (Ledger e 0 0) restartMods fun _ => Ledger e 0 0 :=
    restartMods_valid (B := fun _ => Ledger e 0 0) (hkeep rfl (by simp)) (fun _ => restartMod_ledger)
      (fun _ => hkeep rfl (by simp)) fun _ => hkeep rfl (by simp)
  exact looped_of_plain ledger_none hplain runCommand_ledger
    (managerCleanupDirt_valid (B := fun _ => Ledger e 0 0) (hkeep rfl (by simp)) (fun _ => hrestart)
      (fun _ => hkeep rfl (by simp)) fun _ => hkeep rfl (by simp))

lemma earlyModuleStartup_ledger (bot server : Bool) : (ledgerRules e).Valid
    (Ledger e (boots bot server) 0) (earlyModuleStartup bot server) fun _ => Ledger e 0 0 := by
  have hserver : (ledgerRules e).Valid (Ledger e (boots false server) 0)
      (earlyModuleStartup false server) fun _ => Ledger e 0 0 := by
    cases server with
    | false => exact fun _ h => h.closed
    | true =>
      have hb : boots false true = Pi.single .tsWebserver 1 := by
        funext m
        cases m <;> rfl
      rw [hb]
      exact (doModuleInit_paid .tsWebserver).bind fun _ _ h => h
  cases bot with
  | false => exact hserver
  | true =>
    have hb : boots true server = boots false server + Pi.single .tsBot 1 := by
      funext m
      cases m <;> simp [boots]
    rw [hb]
    exact (doModuleInit_ledger _ .tsBot).bind fun _ => hserver

lemma main_ledger (bot server : Bool) :
    (ledgerRules e).Valid (Ledger e (boots bot server) 0) (main bot server) fun _ => Ledger e 0 0 := by
  have hkeep {op : Op} (hl : op.writesLog = false) (hs : ∀ m, op ≠ .setState m .running) :
      (ledgerRules e).Keeps (Ledger e 0 0) op := ledger_keeps hl hs
  refine (earlyModuleStartup_ledger bot server).bind fun _ => .act (hkeep rfl (by simp)) fun _ => ?_
  exact looped_ledger.startManagerLoop (shutdownManager_valid (hkeep rfl (by simp))
    (hkeep rfl (by simp)) (hkeep rfl (by simp)) (hkeep rfl (by simp)) doModuleExit_ledger)

end Walk

lemma boot_ledger (b : Boot) (e : Mod → ℕ) : Ledger e e 0 b.state where
  numFails _ := rfl
  budget m _ := by simp [Boot.state]
  alive m := by simp [Boot.state, defineModule, Module.up]

theorem launches_budgeted (b : Boot) (bot server : Bool) {c : Config Op.Res State Unit}
    (h : machine.Reaches (fun _ _ _ => True) (start b bot server) c) {m : Mod}
    (hm : c.st.log.count (.failed m) < 2 ^ 32) :
    c.st.log.count (.died m) + (c.st.mods m).up ≤ c.st.log.count (.launched m) ∧
      c.st.log.count (.launched m) ≤ boots bot server m + c.st.log.count (.requested m) +
        min (c.st.log.count (.failed m)) (maxFailForStop.toNat - 1) := by
  have hl := (main_ledger bot server).guarantee (fun _ => ledger_none)
    (boot_ledger b (boots bot server)) h
  exact ⟨hl.alive m, hl.budget m hm⟩

set_option maxRecDepth 4000 in
theorem launches_budgeted_relaunch : ∃ c : Config Op.Res State Unit,
    c.st.log = [.launched .tsBot, .failed .tsBot, .retrying .tsBot, .died .tsBot, .launched .tsBot] ∧
      c.st.log.count (.launched .tsBot) ≤ boots true false .tsBot +
        c.st.log.count (.requested .tsBot) + min (c.st.log.count (.failed .tsBot)) 4 := by
  have hrun : (follow (fun _ _ _ => True) (start .terminal true false)
      (launching .tsBot ⟨false, false⟩ 4 5 10 ++ dying (.pollReturn 2) 10 ++
        launching .tsBot ⟨true, true⟩ 4 5 11 ++
        [(.setSessionsDirty false, .async .raiseChld)])).map (fun c => c.st.log) =
      some [.launched .tsBot, .failed .tsBot, .retrying .tsBot, .died .tsBot, .launched .tsBot] := by
    decide
  obtain ⟨c, hc, he⟩ := Option.map_eq_some_iff.mp hrun
  have hm : c.st.log.count (.failed .tsBot) < 2 ^ 32 := by
    rw [he]
    decide
  exact ⟨c, he, (launches_budgeted .terminal true false (Machine.reaches_of_follow hc) hm).2⟩

end TeamspeakWebserver.Manager
