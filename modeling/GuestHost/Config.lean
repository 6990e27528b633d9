import GuestHost.Json.Reader
import GuestHost.Json.Record
/-!
# Configuration

What a host is set up with, and how it is read from JSON. Fields that a document leaves out keep
their defaults.
-/

namespace GuestHost

/-- The settings of a host. -/
structure Config where
  /-- How deep invocations may nest. -/
  maxLinkDepth : Nat
  /-- The instructions that one run may take; without a number there is no limit. -/
  fuel : Option Nat
  /-- The program name of a POSIX guest whose context names none. -/
  programName : String
  /-- How long a request to the web may take. -/
  fetchTimeoutSeconds : Nat
  deriving DecidableEq

namespace Config

/-- The settings of a host that is told nothing. -/
def default : Config := ⟨8, none, "a.out", 30⟩

/-- A limit: a word, or null for none. -/
def limit? : Json → Option (Option Nat)
  | .null => some none
  | document => document.word?.map some

/-- A field's value read by `read?`, or the default of a field that is absent. -/
def orDefault {α : Type} (read? : Json → Option α) (value : α) : Option Json → Option α
  | none => some value
  | some document => read? document

/-- The settings that a document gives. -/
def ofJson? (document : Json) : Option Config := do
  let fields ← document.fields? ["max_link_depth", "fuel", "posix_program_name",
    "fetch_timeout_secs"]
  match fields with
  | [depth, fuel, name, timeout] =>
    let depth ← orDefault Json.word? default.maxLinkDepth depth
    let fuel ← orDefault limit? default.fuel fuel
    let name ← orDefault Json.text? default.programName name
    let timeout ← orDefault Json.word? default.fetchTimeoutSeconds timeout
    return ⟨depth, fuel, name, timeout⟩
  | _ => none

/-- The settings that a JSON text gives. -/
def read? (text : String) : Option Config := (Json.parse? (Utf8.encode text)).bind ofJson?

end Config

end GuestHost
