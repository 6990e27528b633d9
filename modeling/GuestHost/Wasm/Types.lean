/-!
# Types and values of guests
-/

namespace GuestHost

namespace Wasm

/-- The type of a value. -/
inductive ValType where
  | i32
  | i64
  | f32
  | f64
  | v128
  | externref
  | funcref
  deriving DecidableEq

/-- The name of a type. -/
def ValType.text : ValType → String
  | i32 => "i32"
  | i64 => "i64"
  | f32 => "f32"
  | f64 => "f64"
  | v128 => "v128"
  | externref => "externref"
  | funcref => "funcref"

/-- The name of a type in messages about values, where references are spelled out. -/
def ValType.reference : ValType → String
  | externref => "(ref null extern)"
  | funcref => "(ref null func)"
  | type => type.text

/-- The type that a name stands for. -/
def ValType.ofText? (text : String) : Option ValType :=
  [i32, i64, f32, f64, v128, externref, funcref].find? fun t => t.text == text

/-- The type of a function. -/
structure FuncType where
  params : List ValType
  results : List ValType
  deriving DecidableEq

/-- How a type of a function is written. -/
def FuncType.text (t : FuncType) : String :=
  let group := fun (word : String) (types : List ValType) =>
    if types = [] then "" else " (" ++ " ".intercalate (word :: types.map ValType.text) ++ ")"
  "(func" ++ group "param" t.params ++ group "result" t.results ++ ")"

/-- A value. Floating-point numbers are kept as their bits; the only references that guests can
make are null. -/
inductive Value where
  | i32 (word : UInt32)
  | i64 (word : UInt64)
  | f32 (bits : UInt32)
  | f64 (bits : UInt64)
  | v128 (low high : UInt64)
  | externref
  | funcref
  deriving DecidableEq

/-- The type of a value. -/
def Value.type : Value → ValType
  | i32 _ => .i32
  | i64 _ => .i64
  | f32 _ => .f32
  | f64 _ => .f64
  | v128 _ _ => .v128
  | externref => .externref
  | funcref => .funcref

/-- The value that a local starts with. -/
def ValType.zero : ValType → Value
  | i32 => .i32 0
  | i64 => .i64 0
  | f32 => .f32 0
  | f64 => .f64 0
  | v128 => .v128 0 0
  | externref => .externref
  | funcref => .funcref

/-- A 32-bit word read with its sign. -/
def signed32 (word : UInt32) : Int := word.toInt32.toInt

/-- A 64-bit word read with its sign. -/
def signed64 (word : UInt64) : Int := word.toInt64.toInt

/-- How a value is shown in messages. -/
def Value.text : Value → String
  | i32 word => "I32(" ++ toString (signed32 word) ++ ")"
  | i64 word => "I64(" ++ toString (signed64 word) ++ ")"
  | f32 bits => "F32(" ++ toString bits.toNat ++ ")"
  | f64 bits => "F64(" ++ toString bits.toNat ++ ")"
  | v128 low high => "V128(" ++ toString (low.toNat + high.toNat * 18446744073709551616) ++ ")"
  | externref => "ExternRef(None)"
  | funcref => "FuncRef(None)"

/-- Why a guest's own code stopped. -/
inductive Trap where
  | unreachable
  | divisionByZero
  | overflow
  | outOfBounds
  | outOfFuel
  deriving DecidableEq

/-- The words for a trap. -/
def Trap.message : Trap → String
  | unreachable => "wasm trap: wasm `unreachable` instruction executed"
  | divisionByZero => "wasm trap: integer divide by zero"
  | overflow => "wasm trap: integer overflow"
  | outOfBounds => "wasm trap: out of bounds memory access"
  | outOfFuel => "wasm trap: all fuel consumed by WebAssembly"

end Wasm

end GuestHost
