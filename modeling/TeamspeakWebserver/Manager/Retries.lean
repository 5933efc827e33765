import TeamspeakWebserver.Manager.Relaunches
import TeamspeakWebserver.Manager.Tending

/-! How `restart_mods` comes to an end, and what it leaves. -/

namespace TeamspeakWebserver.Manager

open Interruptible Prog Rules Sessions

/-! ### The end of `restart_mods` -/

def Counting (m : Mod) (p : UInt32 → Prop) (s : State) : Prop := p (s.mods m).numFails

section Termination

variable {m : Mod} {p : UInt32 → Prop} {op : Op}

lemma Counting.resists (m : Mod) (p : UInt32 → Prop) : Resists (Counting m p) :=
  .ofModule m (P := fun M => p M.numFails) fun M dead status h => by rwa [Module.onDeath_numFails]

abbrev anything : State → Prop := fun _ => True

end Termination

/-! ### The status during a pass -/

def Lasting (x : Status) (s : State) : Prop := s.mask = blocked ∧ s.status = x

section Lasting

variable {x : Status} {op : Op}

lemma Lasting.resists (x : Status) : Resists (Lasting x) := .blocked (fun _ _ h => h) fun _ _ _ h => h

end Lasting

def Module.Settled (M : Module) : Prop := M.needsRestart = false ∧
  (M.state = .running ∨ (M.state.parked = true ∧ M.pid = -1 ∧ M.pipefd = -1))

lemma Module.Tended.settled {M : Module} (h : M.Tended) (hn : M.needsRestart = false) :
    M.Settled := by
  refine ⟨hn, ?_⟩
  cases hs : M.state with
  | running => exact Or.inl rfl
  | dead =>
    rw [h.dead hs] at hn
    cases hn
  | off => exact Or.inr ⟨rfl, h.idle (by simp [hs]), h.parked (by rw [hs]; rfl)⟩
  | exited => exact Or.inr ⟨rfl, h.idle (by simp [hs]), h.parked (by rw [hs]; rfl)⟩

end TeamspeakWebserver.Manager
