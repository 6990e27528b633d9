import GuestHost.Failure
import GuestHost.Posix.Process
/-!
# Events

What a host notes down while it works.
-/

namespace GuestHost

/-- What an imported module was resolved to. -/
inductive Resolver where
  | provider
  | link
  | posix
  | managed
  deriving DecidableEq

/-- The name of a resolver. -/
def Resolver.text : Resolver → String
  | provider => "provider"
  | link => "dynamic link"
  | posix => "posix shim"
  | managed => "managed runtime"

/-- What a scripted function has learnt from one action. -/
inductive Reading where
  | nothing
  | bool (value : Bool)
  | number (value : Int)
  | numbers (values : List Int)
  | bytes (content : Bytes)
  | text (text : String)
  | state (invocation : Invocation) (process : Posix.Process)

/-- One thing that happened. -/
inductive Event where
  /-- A guest said something. -/
  | guest (text : String)
  | call (module name : String) (value : UInt32)
  | callFailed (module name : String) (error : CallError)
  | resolved (module : String) (resolver : Resolver)
  | unimplemented (module name : String)
  | unsupported (kind : Exchange.Kind) (operation : Exchange.Operation)
  /-- An operation on a buffer panicked, which ends the program. -/
  | panicked
  /-- A request was made. -/
  | request (address : String)
  /-- A scripted provider looked at the imports it was to bind. -/
  | binder (module : String) (imports : Bool) (names unbound : List String)
  /-- A scripted function took an action. -/
  | probe (action : String) (outcome : Except CallError Reading)

end GuestHost
