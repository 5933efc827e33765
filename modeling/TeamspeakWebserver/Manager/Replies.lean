import TeamspeakWebserver.Interruptible.Observed
import TeamspeakWebserver.Manager.Composition

/-! What `manager_process_input` answers to a command on modules, and what has become of each of
the modules. -/

namespace TeamspeakWebserver.Manager

open Interruptible Prog Rules Sessions

def ManagerCmds.onMods : ManagerCmds → Bool
  | .restartMod | .disableMod | .enableMod => true
  | .none | .shutdown => false

/-- The arguments that the loop does not skip for being empty. -/
def words (input : Bytes) : List Bytes := (arguments input).filter (· ≠ [])

def known (word : Bytes) : Bool := (getMod word).isSome

/-- Whether the actions have succeeded, the last one first. A module that is to be started has been
once `fork` answers with a child. -/
def see : Op → Answer → List Bool → List Bool
  | .note (.disabled _), _, bs => true :: bs
  | .note (.requested _), _, bs => false :: bs
  | .fork _ _, .pid _, bs => true :: bs.tail
  | _, _, bs => bs

abbrev Trace := List (Option Op × State × Input Answer Signal)

def succeeded (tr : Trace) : List Bool := observed see tr []

def Op.Quiet (op : Op) : Prop := ∀ i bs, see op i bs = bs

abbrev Sees {α : Type} (bs : List Bool) (p : Code α) (Q : α → List Bool → Prop) : Prop :=
  (onlooker see machine).Valid (fun s => s.2 = bs) p fun a s => Q a s.2

variable {bs : List Bool} {m : Mod}

lemma atomic_sees {op : Op} {out : op.Res → List Bool}
    (h : ∀ s i r s', exec op s i = some (r, s') → see op i bs = out r) :
    (onlooker see machine).Atomic op (fun s => s.2 = bs) fun r s => s.2 = out r := by
  refine onlooker_atomic (P := (· = bs)) (Q := fun r bs' => bs' = out r) fun s x i r s' hx he => ?_
  rw [hx]
  exact h s i r s' he

lemma Op.Quiet.keeps {op : Op} (h : op.Quiet) :
    (onlooker see machine).Atomic op (fun s => s.2 = bs) fun _ s => s.2 = bs :=
  atomic_sees fun _ i _ _ _ => h i bs

lemma fork_sees (m : Mod) (flags : SigSet) :
    (onlooker see machine).Atomic (.fork m flags) (fun s => s.2 = false :: bs) fun r s =>
      s.2 = Option.isSome r :: bs := by
  refine atomic_sees fun s i r s' he => ?_
  cases i with
  | pid p =>
    simp only [exec] at he
    split at he
    · cases he
      rfl
    · cases he
  | _ =>
    cases he
    rfl

lemma doModuleInit_sees (m : Mod) :
    Sees (false :: bs) (doModuleInit m) fun errv bs' => bs' = decide (errv = 0) :: bs := by
  have hquiet {op : Op} (h : op.Quiet) :
      (onlooker see machine).Atomic op (fun s => s.2 = false :: bs) fun _ s => s.2 = false :: bs :=
    h.keeps
  refine .act (hquiet fun _ _ => rfl) fun (r : Bool) => ?_
  cases r with
  | true => exact fun s hs => hs
  | false =>
  refine .act (hquiet fun _ _ => rfl) fun (r : Option (Int × Int)) => ?_
  cases r with
  | none => exact fun s hs => hs
  | some p =>
  obtain ⟨r, w⟩ := p
  refine .act (hquiet fun _ _ => rfl) fun _ => .act (hquiet fun _ _ => rfl) fun flags => ?_
  refine .act (fork_sees m flags) fun (q : Option Int) => ?_
  cases q with
  | none =>
    refine .act (hquiet fun _ _ => rfl) fun _ => .act (hquiet fun _ _ => rfl) fun _ => ?_
    exact .act (hquiet fun _ _ => rfl) fun _ => .act (hquiet fun _ _ => rfl) fun _ s hs => hs
  | some cpid =>
    have hdone {op : Op} (h : op.Quiet) :
        (onlooker see machine).Atomic op (fun s => s.2 = true :: bs) fun _ s => s.2 = true :: bs :=
      h.keeps
    refine .act (hdone fun _ _ => rfl) fun _ => .act (hdone fun _ _ => rfl) fun _ => ?_
    refine .act (hdone fun _ _ => rfl) fun _ => .act (hdone fun _ _ => rfl) fun _ => ?_
    exact .act (hdone fun _ _ => rfl) fun _ s hs => hs

lemma Op.Ends.quiet {op : Op} (h : op.Ends m) : op.Quiet := by
  cases op <;> first
    | exact fun _ _ => rfl
    | cases h

lemma doModuleExit_sees (m : Mod) : Sees bs (doModuleExit m) fun _ bs' => bs' = bs := by
  have huses : (doModuleExit m).Uses Op.Quiet := by
    refine ⟨fun _ _ => rfl, fun (r : Bool) => ?_⟩
    cases r with
    | true => trivial
    | false =>
    refine ⟨fun _ _ => rfl, fun _ => ((endChild_uses m).mono fun _ => Op.Ends.quiet).bind fun _ => ?_⟩
    exact ⟨fun _ _ => rfl, fun _ => ⟨fun _ _ => rfl, fun _ => ⟨fun _ _ => rfl, fun _ =>
      ⟨fun _ _ => rfl, fun _ => ⟨fun _ _ => rfl, fun _ => trivial⟩⟩⟩⟩⟩
  exact .of_uses (onlooker_holds (P := (· = bs)) none) (huses.mono fun op h => h.keeps)

lemma runCommand_sees {cmd : ManagerCmds} (hc : cmd.onMods = true) (m : Mod) (errv : Int) :
    Sees bs (runCommand cmd m errv) fun errv' bs' => bs' = decide (errv' = 0) :: bs := by
  have hasked : (onlooker see machine).Atomic (.note (.requested m)) (fun s => s.2 = bs) fun _ s =>
      s.2 = false :: bs :=
    atomic_sees fun _ _ _ _ _ => rfl
  cases cmd with
  | none => cases hc
  | shutdown => cases hc
  | restartMod =>
    refine .act hasked fun _ => (doModuleExit_sees m).bind fun _ => ?_
    exact doModuleInit_sees m
  | disableMod =>
    refine (doModuleExit_sees m).bind fun _ => .act (B := fun _ s => s.2 = true :: bs) ?_ fun _ s hs => hs
    exact atomic_sees fun _ _ _ _ _ => rfl
  | enableMod => exact .act hasked fun _ => doModuleInit_sees m

lemma runArguments_sees {cmd : ManagerCmds} (hc : cmd.onMods = true) (args : List Bytes) (errv : Int) :
    Sees bs (runArguments cmd args errv) fun errv' bs' => ∃ done, bs' = done ++ bs ∧
      done.length = args.countP known ∧ (errv' = 0 ↔ done.head?.getD (decide (errv = 0)) = true) := by
  induction args generalizing errv bs with
  | nil => exact fun s hs => ⟨[], hs, rfl, by simp⟩
  | cons arg args ih =>
    rw [runArguments]
    cases hm : getMod arg with
    | none =>
      rw [List.countP_cons_of_neg (by simp [known, hm])]
      exact ih errv
    | some m =>
      rw [List.countP_cons_of_pos (by simp [known, hm])]
      refine (runCommand_sees hc m errv).bind fun errv₁ => (ih errv₁).strengthen ?_
      rintro errv' s ⟨done, hs, hlen, hok⟩
      refine ⟨done ++ [decide (errv₁ = 0)], by simp [hs], by simp [hlen], ?_⟩
      cases done <;> simpa using hok

lemma words_of_not_mem {input : Bytes} (h : space ∉ input) : words input = [] := by
  have hd : input.dropWhile (· ≠ space) = [] := by
    rw [List.dropWhile_eq_nil_iff]
    intro b hb
    simpa using ne_of_mem_of_not_mem hb h
  rw [words, arguments, hd]
  rfl

lemma countP_words (input : Bytes) : (arguments input).countP known = (words input).countP known := by
  rw [words, List.countP_filter]
  apply List.countP_congr
  intro arg _
  have hnil : known [] = false := by decide
  by_cases ha : arg = []
  · simp [ha, hnil]
  · simp [ha]

lemma managerProcessInput_eq {input : Bytes} (hc : (parseCommand input).onMods = true) :
    managerProcessInput input = if space ∉ input then .ret (ascii "No argument given.")
      else (runArguments (parseCommand input) (arguments input) 1).bind fun errv =>
        .ret (if errv = 0 then ascii "OK" else ascii "FAIL") := by
  rw [managerProcessInput]
  cases hp : parseCommand input with
  | none => rw [hp] at hc; cases hc
  | shutdown => rw [hp] at hc; cases hc
  | restartMod => rfl
  | disableMod => rfl
  | enableMod => rfl

lemma managerProcessInput_sees {input : Bytes} (hc : (parseCommand input).onMods = true) :
    Sees [] (managerProcessInput input) fun reply bs => bs.length = (words input).countP known ∧
      (reply = ascii "OK" ↔ bs.head? = some true) := by
  rw [managerProcessInput_eq hc]
  split
  case isTrue h =>
    intro s hs
    rw [hs, words_of_not_mem h]
    exact ⟨rfl, by decide⟩
  case isFalse h =>
    refine (runArguments_sees hc _ 1).bind fun errv => ?_
    rintro s ⟨done, hs, hlen, hok⟩
    rw [hs, List.append_nil, hlen, countP_words]
    refine ⟨rfl, ?_⟩
    have hreply : (if errv = 0 then ascii "OK" else ascii "FAIL") = ascii "OK" ↔ errv = 0 := by
      split
      case isTrue h => exact iff_of_true rfl h
      case isFalse h => exact iff_of_false (by decide) h
    rw [hreply, hok]
    cases done <;> simp

def AllDone (input : Bytes) (tr : Trace) : Prop :=
  words input ≠ [] ∧ (∀ word ∈ words input, known word = true) ∧ ∀ b ∈ succeeded tr, b = true

/-- The answer is about the last action only. -/
theorem answersOk_iff {input : Bytes} (hc : (parseCommand input).onMods = true) {s s' : State}
    {tr : Trace} {reply : Bytes}
    (h : machine.Runs ⟨managerProcessInput input, s⟩ tr ⟨.ret reply, s'⟩) :
    (succeeded tr).length = (words input).countP known ∧
    ((reply = ascii "OK" ↔ AllDone input tr) ↔ ((succeeded tr).head? = some true →
      (∀ word ∈ words input, known word = true) ∧ ∀ b ∈ succeeded tr, b = true)) := by
  obtain ⟨hlen, hok⟩ := observed_of_runs (P := (· = []))
    (Q := fun reply bs => bs.length = (words input).countP known ∧
      (reply = ascii "OK" ↔ bs.head? = some true)) (managerProcessInput_sees hc) rfl h
  change (succeeded tr).length = _ at hlen
  change _ ↔ (succeeded tr).head? = some true at hok
  refine ⟨hlen, ?_⟩
  have hne (ht : (succeeded tr).head? = some true) : words input ≠ [] := by
    intro hw
    rw [hw, List.countP_nil, List.length_eq_zero_iff] at hlen
    rw [hlen] at ht
    cases ht
  have hlast (ha : AllDone input tr) : (succeeded tr).head? = some true := by
    obtain ⟨hw, hk, hb⟩ := ha
    rw [List.countP_eq_length.mpr hk] at hlen
    cases hs : succeeded tr with
    | nil =>
      rw [hs] at hlen
      exact absurd (List.length_eq_zero_iff.mp hlen.symm) hw
    | cons b bs => rw [List.head?_cons, hb b (by simp [hs])]
  rw [hok]
  exact ⟨fun h ht => (h.mp ht).2, fun h => ⟨fun ht => ⟨hne ht, h ht⟩, hlast⟩⟩

/-- The bot is parked, so that disabling it is a matter of two statements. -/
def disabledTr : Trace :=
  [(some (.note (.disabled .tsBot)), Boot.terminal.state, .main .ok),
    (some (.isParked .tsBot), Boot.terminal.state, .main .ok)]

lemma disabled_run :
    machine.Runs ⟨managerProcessInput (ascii "disable nosuch ts_bot"), Boot.terminal.state⟩ disabledTr
      ⟨.ret (ascii "OK"), Boot.terminal.state.record (.disabled .tsBot)⟩ := by
  have hparked := Machine.Runs.nil.cons (M := machine)
    (c := ⟨managerProcessInput (ascii "disable nosuch ts_bot"), Boot.terminal.state⟩) (.main Answer.ok) rfl
  have hnoted := hparked.cons (.main Answer.ok) rfl
  exact hnoted

theorem answersOk_iff_disabled : succeeded disabledTr = [true] ∧
    (succeeded disabledTr).length = (words (ascii "disable nosuch ts_bot")).countP known :=
  ⟨rfl, (answersOk_iff (by decide) disabled_run).1⟩

theorem unknown_name_ok : ∃ (input : Bytes) (s s' : State) (tr : Trace) (reply : Bytes),
    (parseCommand input).onMods = true ∧ machine.Runs ⟨managerProcessInput input, s⟩ tr ⟨.ret reply, s'⟩ ∧
      ¬ (reply = ascii "OK" ↔ AllDone input tr) := by
  refine ⟨_, _, _, _, _, by decide, disabled_run, fun h => ?_⟩
  have hknown : known (ascii "nosuch") = true := (h.mp rfl).2.1 _ (by decide)
  exact absurd hknown (by decide)

end TeamspeakWebserver.Manager
