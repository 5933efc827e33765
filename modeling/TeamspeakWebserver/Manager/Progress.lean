import TeamspeakWebserver.Manager.Pipes
import TeamspeakWebserver.Manager.Retries

/-! The manager can always go on, until it exits. -/

namespace TeamspeakWebserver.Manager

open Interruptible Prog Rules Sessions

/-- The calls that return only when something comes: a client, bytes or room for them, or, for `poll()`,
a signal that is handled meanwhile. -/
def Op.waits : Op → Bool
  | .pollReturn _ | .accept | .readMod _ | .read _ | .write _ _ => true
  | _ => false

section Walk

variable {op : Op} {m : Mod} {P : State → Prop}

def HasSession (fd : Int) (s : State) : Prop := (s.findSession fd).isSome = true

lemma HasSession.resists (fd : Int) : Resists (HasSession fd) where
  pending _ _ h := h
  childExit _ _ _ h := h
  reap _ _ _ _ h := by rwa [HasSession, State.findSession, reap_sessions]
  term _ _ h := h

end Walk

end TeamspeakWebserver.Manager
