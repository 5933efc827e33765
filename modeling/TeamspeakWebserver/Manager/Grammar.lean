import TeamspeakWebserver.Client.Commands
import TeamspeakWebserver.Manager.Replies

/-! Which inputs `manager_process_input` takes for commands, against the words `man/client.c` lets
through. -/

namespace TeamspeakWebserver.Manager

open Interruptible Prog Sessions

def commandWords : List Bytes := [ascii "stop", ascii "restart", ascii "disable", ascii "enable"]

def firstWord (input : Bytes) : Bytes := input.takeWhile (· ≠ space)

def Op.acts (op : Op) : Bool := op = .setStatus .stopped || mods.any fun m => op.on m

def Acts (input : Bytes) : Prop :=
  ∃ (s : State) (tr : Trace) (d : Config Op.Res State Bytes),
    machine.Runs ⟨managerProcessInput input, s⟩ tr d ∧
      ∃ op s₁ i, (some op, s₁, .main i) ∈ tr ∧ op.acts = true

/-! ### What the first word says of the command -/

lemma parseCommand_shutdown_iff (input : Bytes) :
    parseCommand input = .shutdown ↔ ascii "stop" <+: input := by
  rw [← List.isPrefixOf_iff_prefix, parseCommand]
  split
  case isTrue h => exact iff_of_true rfl h
  case isFalse h =>
    refine iff_of_false ?_ h
    split
    · decide
    split
    · decide
    split <;> decide

lemma parseCommand_none_iff (input : Bytes) :
    parseCommand input = .none ↔ ∀ w ∈ commandWords, ¬ w <+: input := by
  simp only [commandWords, List.forall_mem_cons, ← List.isPrefixOf_iff_prefix, parseCommand]
  repeat' split
  all_goals simp_all

lemma sanitizeCommand_of_mem {w : Bytes} (h : w ∈ commandWords) : 0 ≤ Client.sanitizeCommand w := by
  simp only [commandWords, List.mem_cons, List.not_mem_nil, or_false] at h
  rcases h with rfl | rfl | rfl | rfl <;> decide

/-! ### Inputs that do nothing -/

lemma known_nil : known [] = false := by decide

lemma known_words {input : Bytes} (h : ∀ word ∈ words input, known word = false) :
    ∀ arg ∈ arguments input, known arg = false := by
  intro arg ha
  by_cases hn : arg = []
  · rw [hn, known_nil]
  · exact h arg (List.mem_filter.mpr ⟨ha, by simpa using hn⟩)

lemma runArguments_unknown (cmd : ManagerCmds) {args : List Bytes} (h : ∀ arg ∈ args, known arg = false)
    (errv : Int) : runArguments cmd args errv = .ret errv := by
  induction args with
  | nil => rfl
  | cons arg args ih =>
    obtain ⟨ha, hargs⟩ := List.forall_mem_cons.mp h
    have hm : getMod arg = none := by simpa [known] using ha
    rw [runArguments, hm]
    exact ih hargs

lemma managerProcessInput_idle {input : Bytes} (hs : parseCommand input ≠ .shutdown)
    (h : (parseCommand input).onMods = true → ∀ word ∈ words input, known word = false) :
    ∃ reply, managerProcessInput input = .ret reply := by
  by_cases hc : (parseCommand input).onMods = true
  · rw [managerProcessInput_eq hc, runArguments_unknown _ (known_words (h hc))]
    split
    · exact ⟨_, rfl⟩
    · exact ⟨_, rfl⟩
  · rw [managerProcessInput]
    cases hp : parseCommand input with
    | none => exact ⟨_, rfl⟩
    | shutdown => exact absurd hp hs
    | _ => exact absurd (by rw [hp]; rfl) hc

lemma runs_ret {reply : Bytes} {s : State} {tr : Trace} {d : Config Op.Res State Bytes}
    (h : machine.Runs ⟨.ret reply, s⟩ tr d) : d.prog = .ret reply ∧ ∀ x ∈ tr, x.1 = none := by
  induction h with
  | nil => exact ⟨rfl, by simp⟩
  | @cons tr d e i _ hs ih =>
    obtain ⟨hd, htr⟩ := ih
    have hnext : d.prog.next = none := by rw [hd]; rfl
    refine ⟨?_, List.forall_mem_cons.mpr ⟨hnext, htr⟩⟩
    obtain ⟨p, s'⟩ := d
    obtain rfl : p = .ret reply := hd
    cases i with
    | async a =>
      obtain ⟨t, -, rfl⟩ := Option.map_eq_some_iff.mp hs
      rfl
    | main a =>
      rw [Machine.step] at hs
      split at hs <;> cases hs

/-! ### Inputs that do something -/

lemma runArguments_known {args : List Bytes} (h : ∃ arg ∈ args, known arg = true) (cmd : ManagerCmds)
    (errv : Int) : ∃ m k, runArguments cmd args errv = (runCommand cmd m errv).bind k := by
  induction args with
  | nil => simp at h
  | cons arg args ih =>
    rw [runArguments]
    cases hm : getMod arg with
    | some m => exact ⟨m, _, rfl⟩
    | none =>
      obtain ⟨arg', ha, hk⟩ := h
      rcases List.mem_cons.mp ha with rfl | ha
      · simp [known, hm] at hk
      · exact ih ⟨arg', ha, hk⟩

lemma managerProcessInput_known {input : Bytes} (hc : (parseCommand input).onMods = true)
    (h : ∃ word ∈ words input, known word = true) :
    ∃ m k, managerProcessInput input = (runCommand (parseCommand input) m 1).bind k := by
  obtain ⟨word, hword, hk⟩ := h
  have hs : space ∈ input := by
    by_contra hs
    rw [words_of_not_mem hs] at hword
    cases hword
  obtain ⟨m, k, hm⟩ := runArguments_known ⟨word, List.mem_of_mem_filter hword, hk⟩ (parseCommand input) 1
  rw [managerProcessInput_eq hc, if_neg (not_not.mpr hs), hm]
  exact ⟨m, _, bind_assoc _ _ _⟩

lemma mods_any {m : Mod} {op : Op} (h : op.on m = true) : op.acts = true := by
  have hm : m ∈ mods := by cases m <;> simp [mods]
  rw [Op.acts, Bool.or_eq_true]
  exact Or.inr (List.any_eq_true.mpr ⟨m, hm, h⟩)

lemma runCommand_acts {cmd : ManagerCmds} (hc : cmd.onMods = true) (m : Mod) (errv : Int)
    (k : Int → Code Bytes) : ∃ (tr : Trace) (d : Config Op.Res State Bytes),
      machine.Runs ⟨(runCommand cmd m errv).bind k, Boot.terminal.state⟩ tr d ∧
        ∃ op s₁ i, (some op, s₁, .main i) ∈ tr ∧ op.acts = true := by
  have hfirst {e : Config Op.Res State Bytes} := Machine.Runs.nil.cons (M := machine)
    (c := ⟨(runCommand cmd m errv).bind k, Boot.terminal.state⟩) (e := e) (.main Answer.ok)
  cases cmd with
  | none => cases hc
  | shutdown => cases hc
  | restartMod =>
    have hparked := (hfirst rfl).cons (.main Answer.ok) rfl
    exact ⟨_, _, hparked, .isParked m, _, _, List.mem_cons_self, mods_any (Op.on_self rfl)⟩
  | disableMod => exact ⟨_, _, hfirst rfl, .isParked m, _, _, List.mem_cons_self, mods_any (Op.on_self rfl)⟩
  | enableMod =>
    have hrunning := (hfirst rfl).cons (.main Answer.ok) rfl
    exact ⟨_, _, hrunning, .isRunning m, _, _, List.mem_cons_self, mods_any (Op.on_self rfl)⟩

lemma acts_iff (input : Bytes) : Acts input ↔ parseCommand input = .shutdown ∨
    (parseCommand input).onMods = true ∧ ∃ word ∈ words input, known word = true := by
  constructor
  · rintro ⟨s, tr, d, hr, op, s₁, i, hm, -⟩
    by_contra hno
    obtain ⟨hs, hw⟩ := not_or.mp hno
    obtain ⟨reply, hi⟩ := managerProcessInput_idle hs fun hc word hword => by
      by_contra hk
      exact hw ⟨hc, word, hword, by simpa using hk⟩
    rw [hi] at hr
    have hnone : (some op : Option Op) = none := (runs_ret hr).2 _ hm
    cases hnone
  · rintro (hs | ⟨hc, word, hword, hk⟩)
    · have hp : managerProcessInput input = (do
          stmt (.setStatus .stopped)
          return ascii "Shutting down...") := by rw [managerProcessInput, hs]
      have hstop := Machine.Runs.nil.cons (M := machine)
        (c := ⟨(do stmt (.setStatus .stopped); return ascii "Shutting down..." : Code Bytes), Boot.terminal.state⟩)
        (.main Answer.ok) rfl
      rw [Acts, hp]
      exact ⟨_, _, _, hstop, _, _, _, List.mem_cons_self, rfl⟩
    · obtain ⟨m, k, hp⟩ := managerProcessInput_known hc ⟨word, hword, hk⟩
      obtain ⟨tr, d, hr, ha⟩ := runCommand_acts hc m 1 k
      rw [← hp] at hr
      exact ⟨_, tr, d, hr, ha⟩

lemma onMods_iff (cmd : ManagerCmds) : cmd.onMods = true ↔ cmd ≠ .none ∧ cmd ≠ .shutdown := by
  cases cmd <;> decide

def Obeys (input : Bytes) : Prop :=
  Acts input → firstWord input ∈ commandWords ∧ 0 ≤ Client.sanitizeCommand (firstWord input)

/-- A command word may go on up to the first space, as long as that keeps the input from doing
anything. -/
theorem obeys_iff (input : Bytes) : Obeys input ↔ firstWord input ∈ commandWords ∨
    ¬ ascii "stop" <+: input ∧
      ((∀ w ∈ commandWords, ¬ w <+: input) ∨ ∀ word ∈ words input, known word = false) := by
  have hobeys : Obeys input ↔ (Acts input → firstWord input ∈ commandWords) :=
    ⟨fun h ha => (h ha).1, fun h ha => ⟨h ha, sanitizeCommand_of_mem (h ha)⟩⟩
  have hidle : ¬ Acts input ↔ ¬ ascii "stop" <+: input ∧
      ((∀ w ∈ commandWords, ¬ w <+: input) ∨ ∀ word ∈ words input, known word = false) := by
    rw [acts_iff, not_or, parseCommand_shutdown_iff, onMods_iff, ← parseCommand_none_iff]
    refine and_congr_right fun hs => ?_
    have hns : parseCommand input ≠ .shutdown := fun h => hs ((parseCommand_shutdown_iff input).mp h)
    by_cases hn : parseCommand input = .none
    · simp [hn]
    · simp [hn, hns]
  rw [hobeys, imp_iff_not_or, hidle, or_comm]

theorem longer_word_acts : ¬ ∀ input, Obeys input := by
  intro h
  have hacts : Acts (ascii "restartfoo ts_bot") :=
    (acts_iff _).mpr (Or.inr ⟨by decide, ascii "ts_bot", by decide, by decide⟩)
  exact absurd (h _ hacts).1 (by decide)

end TeamspeakWebserver.Manager
