import GuestHost.Provider
/-!
# Hooks of managed runtimes

Guests of managed languages import a few functions of their runtime. Those for output are served.
Those for scheduling and for objects outside the guest are stubs, so that a guest that relies on
them stops where it does.
-/

namespace GuestHost

namespace Managed

/-- The name of the module that the hooks are imported from. -/
def module : String := "env"

/-- The descriptor of the standard output. -/
def standardOutput : Call UInt32 := return 1

/-- Bytes written to any descriptor, all of which are the log. -/
def write : Call UInt32 := do
  let _ ← Call.word 0
  let bytes ← Call.bytes 1 2
  Call.hear bytes
  return Call.handle bytes.length

/-- Whether a hook is a stub. -/
def isStub (name : String) : Bool :=
  name == "runtime.ticks" || name == "runtime.sleepTicks" || name.startsWith "syscall/js."

/-- What serves the imports of the module. -/
def provider (importedNames : List String) : Provider :=
  ⟨.ofList ([.typed "io_get_stdout" (.i32s 0) (.native standardOutput),
    .typed "resource_write" (.i32s 3) (.native write)] ++
    (importedNames.filter isStub).map .unimplemented)⟩

end Managed

end GuestHost
