import GuestHost.Wasm.Types
/-!
# Signatures

The types of host functions: numbers for parameters and at most one number for a result. A
function type of a guest that says anything else has no signature.
-/

namespace GuestHost

/-- The numbers that cross the border between host and guest. -/
inductive NumKind where
  | i32
  | i64
  | f32
  | f64
  deriving DecidableEq

namespace NumKind

/-- The type of values of a kind. -/
def type : NumKind → Wasm.ValType
  | i32 => .i32
  | i64 => .i64
  | f32 => .f32
  | f64 => .f64

/-- The kind of the values of a type. -/
def ofType? : Wasm.ValType → Option NumKind
  | .i32 => some i32
  | .i64 => some i64
  | .f32 => some f32
  | .f64 => some f64
  | _ => none

/-- The name of a kind. -/
def text (kind : NumKind) : String := kind.type.text

end NumKind

/-- The type of a host function. -/
structure Signature where
  params : List NumKind
  result : Option NumKind
  deriving DecidableEq

namespace Signature

/-- `n` 32-bit parameters and a 32-bit result. -/
def i32s (n : Nat) : Signature := ⟨List.replicate n .i32, some .i32⟩

/-- The function type that a signature stands for. -/
def type (s : Signature) : Wasm.FuncType :=
  ⟨s.params.map NumKind.type, (s.result.map NumKind.type).toList⟩

/-- The signature of a function type. -/
def ofType? (t : Wasm.FuncType) : Option Signature := do
  let params ← t.params.mapM NumKind.ofType?
  match t.results with
  | [] => return ⟨params, none⟩
  | [result] => return ⟨params, some (← NumKind.ofType? result)⟩
  | _ => none

/-- Whether a function type is exactly this signature. -/
def Matches (s : Signature) (t : Wasm.FuncType) : Prop := ofType? t = some s

instance (s : Signature) (t : Wasm.FuncType) : Decidable (s.Matches t) :=
  inferInstanceAs (Decidable (_ = _))

/-- How a signature is written. -/
def text (s : Signature) : String :=
  "(" ++ ", ".intercalate (s.params.map NumKind.text) ++ ")" ++
    match s.result with
    | some kind => " -> " ++ kind.text
    | none => ""

end Signature

end GuestHost
