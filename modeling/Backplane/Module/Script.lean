import Backplane.Module.Behaviour
/-!
# `Backplane.Module.Script`: hooks written as lists of steps

The steps of a script are taken in order, and the journal notes each action with its reply.  A step
that fails on purpose, one that breaks off, and an action that must not fail but does end the hook
without a note.

A module with such hooks is one `Module` among others.
-/
namespace Backplane

inductive ScriptStep
  /-- Performs an action; `must` says that its failure ends the hook. -/
  | act (action : Action) (must : Bool)
  /-- Keeps the dossier, without a note. -/
  | keep (name : Option String)
  | fail (error : ModuleError)
  | panic (reason : Option String)

namespace ScriptStep

/-- What follows an action of a script. -/
def after (action : Action) (must : Bool) (reply : Reply) (next : Behaviour) : Behaviour :=
  match must, reply.failure? with
  | true, some e => .finish (.failed e)
  | _, _ => .mention action reply next

def behaviour : List ScriptStep → Behaviour
  | [] => .finish .ok
  | act a must :: rest => .perform a fun reply => after a must reply (behaviour rest)
  | keep name :: rest => .perform (.keepDossier name) fun _ => behaviour rest
  | fail e :: _ => .finish (.failed e)
  | panic reason :: _ => .finish (.panicked reason)

end ScriptStep

end Backplane
