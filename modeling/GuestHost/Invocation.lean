import GuestHost.Sandbox.Run
/-!
# Invocations

An invocation prepares a sandbox and runs it, and the run may invoke further guests, one level
deeper. No invocation is deeper than the settings of the host allow, so invocations are defined by
recursion on the number of levels that are left.
-/

namespace GuestHost

namespace Invocation

/-- The number of levels left for an invocation of some depth, its own among them. -/
def levels (platform : Platform) (depth : Nat) : Nat := platform.config.maxLinkDepth + 1 - depth

/-- An invocation with so many levels left. -/
def invoke (platform : Platform) : Nat → Invoke
  | 0, context => throw (.depthExceeded context.guest platform.config.maxLinkDepth)
  | levels + 1, context => do
    let sandbox ← Sandbox.prepare platform context
    sandbox.run (invoke platform levels) platform.config.fuel

end Invocation

/-- A prepared sandbox run. -/
def Sandbox.execute (platform : Platform) (s : Sandbox) : Setup Context :=
  s.run (Invocation.invoke platform (Invocation.levels platform (s.context.depth + 1)))
    platform.config.fuel

end GuestHost
