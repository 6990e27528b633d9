import GuestHost.Resolution
/-!
# Sandboxes

A sandbox is a guest that has been loaded and linked and is ready to run once. Making one runs no
code of the guest.
-/

namespace GuestHost

/-- A guest ready to run for a context: its module, the functions its imports are bound to, and
its process. -/
structure Sandbox where
  context : Context
  program : Wasm.Module
  linker : Linker
  process : Posix.Process

namespace Sandbox

/-- A sandbox for a context. -/
def prepare (platform : Platform) (context : Context) : Setup Sandbox := do
  if platform.config.maxLinkDepth < context.depth then
    throw (.depthExceeded context.guest platform.config.maxLinkDepth)
  let program ← Loading.load context.guest
  if (program.exported? context.entry).isNone then
    throw (.missingEntry context.guest context.entry)
  let imports ← Setup.ofExcept (Imports.ofModule program)
  let (linker, process) ← Resolver.settleAll platform context imports.entries [] .unbound
  return ⟨context, program, linker, process⟩

end Sandbox

end GuestHost
