import TeamspeakWebserver.Interruptible.Observed
import TeamspeakWebserver.Interruptible.Total
import TeamspeakWebserver.Manager.Composition
import TeamspeakWebserver.Manager.Interference

/-! How often `__restart_mods` calls `do_module_init`, read off the statements of a run. -/

namespace TeamspeakWebserver.Manager

open Interruptible Prog Rules Sessions

abbrev Step := Option Op × State × Input Answer Signal

/-- Whether a run is inside of `__restart_mods`, whether its last statement was `intr_save`, and how
often one module has had its `num_fails` counted up and been given to `do_module_init` from there. -/
structure Watch where
  inside : Bool
  saved : Bool
  bumps : ℕ
  calls : ℕ

/-- `needs_restart` is only read in `__restart_mods`, behind which `restart_mods` clears `mods_dirty`.
`do_module_init` begins with the question whether the module is RUNNING; the one other place that asks
is in `do_module_exit`, right behind its `intr_save`. -/
def watch (m : Mod) (op : Op) (_ : Answer) (w : Watch) : Watch where
  inside := match op with
    | .needsRestart _ => true
    | .setModsDirty b => w.inside && b
    | _ => w.inside
  saved := op = .intrSave
  bumps := if op = .bumpFails m then w.bumps + 1 else w.bumps
  calls := if op = .isRunning m ∧ w.inside = true ∧ w.saved = false then w.calls + 1 else w.calls

def Watch.zero : Watch := ⟨false, false, 0, 0⟩

variable {m : Mod}

lemma resists_numFails (m : Mod) (n : UInt32) : Resists fun s => (s.mods m).numFails = n :=
  .ofModule m (P := fun M => M.numFails = n) fun M dead status h => by rwa [Module.onDeath_numFails]

def Op.Uncounted (m : Mod) (op : Op) : Prop := op ≠ .bumpFails m ∧ op ≠ .isRunning m

lemma doModuleInit_asks (m : Mod) : ∃ k, doModuleInit m = .act (.isRunning m) k ∧
    ∀ r, (k r).Uses (Op.Uncounted m) := by
  have hop {op : Op} (hb : op ≠ .bumpFails m) (hr : op ≠ .isRunning m) : op.Uncounted m := ⟨hb, hr⟩
  refine ⟨_, rfl, fun (b : Bool) => ?_⟩
  cases b with
  | true => trivial
  | false =>
  refine ⟨hop (by simp) (by simp), fun (r : Option (Int × Int)) => ?_⟩
  cases r with
  | none => trivial
  | some p =>
  refine ⟨hop (by simp) (by simp), fun _ => ⟨hop (by simp) (by simp), fun _ => ?_⟩⟩
  refine ⟨hop (by simp) (by simp), fun (q : Option Int) => ?_⟩
  cases q with
  | none =>
    refine ⟨hop (by simp) (by simp), fun _ => ⟨hop (by simp) (by simp), fun _ => ?_⟩⟩
    exact ⟨hop (by simp) (by simp), fun _ => ⟨hop (by simp) (by simp), fun _ => trivial⟩⟩
  | some q =>
    refine ⟨hop (by simp) (by simp), fun _ => ⟨hop (by simp) (by simp), fun _ => ?_⟩⟩
    refine ⟨hop (by simp) (by simp), fun _ => ⟨hop (by simp) (by simp), fun _ => ?_⟩⟩
    exact ⟨hop (by simp) (by simp), fun _ => trivial⟩

/-- What is counted is the calls: one for each run of `do_module_init` inside of `__restart_mods`. -/
lemma doModuleInit_calls {s s' : State} {w : Watch} {tr : List Step} {errv : Int}
    (hin : w.inside = true) (hs : w.saved = false)
    (h : machine.Runs ⟨doModuleInit m, s⟩ tr ⟨.ret errv, s'⟩) :
    (observed (watch m) tr w).calls = w.calls + 1 := by
  have hv : (onlooker (watch m) machine).Valid (fun x => x.2 = w) (doModuleInit m)
      fun _ x => x.2.calls = w.calls + 1 := by
    obtain ⟨k, hk, huses⟩ := doModuleInit_asks m
    rw [hk]
    refine .act (B := fun _ x => x.2.calls = w.calls + 1) ?_ fun r => .of_uses
      (onlooker_holds (P := fun w' : Watch => w'.calls = w.calls + 1) none) ((huses r).mono fun op ho => ?_)
    · refine onlooker_atomic (P := (· = w)) (Q := fun _ w' => w'.calls = w.calls + 1) ?_
      rintro s w' i r s' rfl -
      simp [watch, hin, hs]
    · refine onlooker_atomic (P := fun w' : Watch => w'.calls = w.calls + 1)
        (Q := fun _ w' => w'.calls = w.calls + 1) fun s w' i r s' hw _ => ?_
      simpa [watch, ho.2] using hw
  exact observed_of_runs (P := (· = w)) (Q := fun _ w' => w'.calls = w.calls + 1) hv rfl h

def Allowed (c : ℕ) (n : UInt32) (w : Watch) : Prop :=
  n = UInt32.ofNat w.bumps ∧
    (w.bumps < 2 ^ 32 → w.calls + c ≤ min w.bumps (maxFailForStop.toNat - 1))

section Walk

variable {op : Op} {c : ℕ} {p : UInt32 → Watch → Prop}

lemma Allowed.spare {n : UInt32} {w : Watch} (h : Allowed (c + 1) n w) : Allowed c n w :=
  ⟨h.1, fun hw => (Nat.le_succ _).trans (h.2 hw)⟩

lemma Allowed.closed {n : UInt32} {w : Watch} (h : Allowed c n w) : Allowed 0 n w :=
  ⟨h.1, fun hw => (Nat.le_add_right _ _).trans (h.2 hw)⟩

end Walk

end TeamspeakWebserver.Manager
