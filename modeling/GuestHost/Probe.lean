import GuestHost.Provider
/-!
# Scripted providers

A scripted provider shows what host functions can see. Its functions go through the actions of a
script and note down what each of them gives.
-/

namespace GuestHost

namespace Probe

/-- One action of a script. -/
structure Action where
  name : String
  run : Call Reading
  /-- Whether the script goes on if the action fails. -/
  caught : Bool

/-- One line of a script: an action, or the end with a value. -/
inductive Line where
  | act (action : Action)
  | finish (value : Call UInt32)

/-- An action taken and noted down. -/
def Action.perform (a : Action) : Call Unit := fun site =>
  match a.run.run site with
  | (.ok reading, site) => (Call.note (.probe a.name (.ok reading))).run site
  | (.error e, site) =>
    (do
      Call.note (.probe a.name (.error e))
      if !a.caught then Call.fail e : Call Unit).run site

/-- A script run to its end; without a last line its value is zero. -/
def run : List Line → Call UInt32
  | [] => return 0
  | .finish value :: _ => value
  | .act action :: rest => do
    action.perform
    run rest

/-- What a guest's invocation and process are at the time. -/
def state : Call Reading := do return .state (← Call.invocation) (← Call.process)

end Probe

end GuestHost
