import GuestHost.Config
import GuestHost.Core
/-!
# Platforms

What a host offers to all its guests and no guest changes: its settings and its providers.
-/

namespace GuestHost

/-- The settings and the providers of a host. -/
structure Platform where
  config : Config
  providers : Table String Provider

namespace Platform

/-- A platform with the core functions. -/
def standard (config : Config) : Platform := ⟨config, .ofList [(Core.module, Core.provider)]⟩

/-- The platform with a provider for a module, in place of any that it had. -/
def withProvider (p : Platform) (module : String) (provider : Provider) : Platform :=
  { p with providers := p.providers.insert module provider }

end Platform

end GuestHost
