import GuestHost.Call
/-!
# Host functions

What stands behind an imported function: a host call, the invocation of any guest that the caller
names, or the invocation of one guest that the import is linked to. Providers hand out the first
two only, so nothing but a link stands for a guest. The last two need to invoke guests, so they
are carried out where invocations are.
-/

namespace GuestHost

/-- What a host function of a provider does. -/
inductive Handler where
  | native (run : Call UInt32)
  /-- The arguments name the guest to invoke. -/
  | callFunction

/-- The stub of a function that is not implemented. -/
def Handler.stub (module name : String) : Handler :=
  .native do
    Call.note (.unimplemented module name)
    Call.fail (.fatal (.failure (.unimplemented module name)))

/-- What stands behind a host function. -/
inductive Backing where
  | handler (handler : Handler)
  /-- The arguments are those of the linked guest's entry. -/
  | guest (guest entry : String)

/-- A function bound to an import: the type the guest declares, what is done with the value that is
returned, and what stands behind it. -/
structure HostFunction where
  module : String
  name : String
  type : Wasm.FuncType
  result : Option NumKind
  backing : Backing

end GuestHost
