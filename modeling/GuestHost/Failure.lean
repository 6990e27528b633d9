import GuestHost.Exchange.Error
import GuestHost.Memory
import GuestHost.Signature
import GuestHost.Store.Shelf
/-!
# Failures

Why an invocation fails, and why a single host call fails. The two depend on each other: a guest
traps because of a host call that failed for good, and a host call fails because the invocation
that it started did. Failures keep their causes, and `message` puts the whole into words.
-/

namespace GuestHost

mutual

/-- Why an invocation failed. -/
inductive Failure where
  | guestNotFound (guest : String)
  | unsupportedContentType (guest contentType : String)
  | compile (guest : String)
  | unresolvedImport (module name : String)
  | unresolvedModule (module : String)
  /-- `found` is absent where the guest's type has no signature. -/
  | signatureMismatch (module name : String) (expected : Signature) (found : Option Signature)
  | missingEntry (guest entry : String)
  | depthExceeded (guest : String) (max : Nat)
  | cycle (chain : List String)
  | trap (guest entry : String) (cause : Cause)
  | unimplemented (module name : String)
  | boundTwice (module name : String)
  | store (error : Store.Error)
  deriving DecidableEq

/-- Why a guest trapped. -/
inductive Cause where
  | machine (trap : Wasm.Trap)
  | missingArgument (index : Nat)
  | argument (index : Nat) (found : Wasm.Value) (expected : Wasm.ValType)
  | result (expected found : String)
  | importType (module name : String) (expected found : Wasm.FuncType)
  | missingImport (module name : String)
  | told (message : String)
  | failure (failure : Failure)
  deriving DecidableEq

end

mutual

/-- The words for a failure. -/
def Failure.message : Failure → String
  | .guestNotFound guest => "guest not found: " ++ guest
  | .unsupportedContentType guest contentType =>
    "guest '" ++ guest ++ "' has unsupported content type '" ++ contentType ++ "'"
  | .compile guest => "guest '" ++ guest ++ "' failed to compile"
  | .unresolvedImport module name => "unresolved import " ++ module ++ "::" ++ name
  | .unresolvedModule module => "unresolved import module '" ++ module ++ "'"
  | .signatureMismatch module name expected found =>
    "signature mismatch for " ++ module ++ "::" ++ name ++ ": expected " ++ expected.text ++
      ", guest declares " ++ ((found.map Signature.text).getD "<other>")
  | .missingEntry guest entry =>
    "guest '" ++ guest ++ "' has no exported function '" ++ entry ++ "'"
  | .depthExceeded guest max =>
    "dynamic link to '" ++ guest ++ "' exceeds the maximum depth of " ++ toString max
  | .cycle chain => "dynamic link cycle: " ++ " -> ".intercalate chain
  | .trap guest entry cause =>
    "guest '" ++ guest ++ "' trapped in '" ++ entry ++ "': " ++ cause.message
  | .unimplemented module name => module ++ "::" ++ name ++ " is not implemented"
  | .boundTwice module name =>
    "engine error: import of `" ++ module ++ "::" ++ name ++ "` defined twice"
  | .store error => "store error: " ++ error.message

/-- The words for a cause. A failure of the store is told twice, once as a failure and once by
itself. -/
def Cause.message : Cause → String
  | .machine trap => trap.message
  | .missingArgument index => "missing host call argument " ++ toString index
  | .argument index found expected =>
    "argument " ++ toString index ++ " is " ++ found.text ++ ", expected " ++ expected.text
  | .result expected found =>
    "function attempted to return an incompatible value: type mismatch: expected " ++ expected ++
      ", found " ++ found
  | .importType module name expected found =>
    "incompatible import type for `" ++ module ++ "::" ++ name ++
      "`: types incompatible: expected type `" ++ expected.text ++ "`, found type `" ++
      found.text ++ "`"
  | .missingImport module name =>
    "unknown import: `" ++ module ++ "::" ++ name ++ "` has not been defined"
  | .told message => message
  | .failure (.store error) => (Failure.store error).message ++ ": " ++ error.message
  | .failure why => why.message

end

/-- Why a host call failed without stopping the guest, apart from an access past the end of the
guest's memory. -/
inductive Reason where
  | utf8
  | base64
  | fetch
  | range
  | shortClock
  | noValue (key : Bytes)
  | unknownMode (mode : String)
  | told (message : String)
  | exchange (error : Exchange.Error)
  | store (error : Store.Error)
  | failure (failure : Failure)

/-- The words for a reason. -/
def Reason.message : Reason → String
  | .utf8 => "<utf8>"
  | .base64 => "<base64>"
  | .fetch => "<fetch>"
  | .range => "<range>"
  | .shortClock => "get_time needs 8 bytes"
  | .noValue key => "no value for key " ++ Utf8.lossy key
  | .unknownMode mode => "unknown execution mode '" ++ mode ++ "'"
  | .told message => message
  | .exchange error => error.message
  | .store .json => "<json>"
  | .store error => error.message
  | .failure why => why.message

/-- Why a host call failed. -/
inductive CallError where
  | outOfBounds (access : Memory.OutOfBounds)
  | recoverable (reason : Reason)
  | fatal (cause : Cause)
  /-- The guest asked to end. -/
  | exit (code : Int32)

/-- The words for an error of a host call. -/
def CallError.message : CallError → String
  | .outOfBounds access => access.message
  | .recoverable reason => reason.message
  | .fatal cause => cause.message
  | .exit code => "guest exited with code " ++ toString code.toInt

end GuestHost
