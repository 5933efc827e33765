import TeamspeakWebserver.Manager.Turns

/-! Once it has been told to stop, the manager exits. -/

namespace TeamspeakWebserver.Manager

open Interruptible Prog Rules Sessions

def Stopped (s : State) : Prop := s.status = .stopped

lemma Stopped.resists : Resists Stopped where
  pending _ _ h := h
  childExit _ _ _ h := h
  reap _ _ _ _ h := by rwa [Stopped, reap_status]
  term _ _ _ := rfl

section Walk

variable {op : Op}

end Walk

section Run

variable {s₀ : State} {c d : Config Op.Res State Unit}

end Run

end TeamspeakWebserver.Manager
