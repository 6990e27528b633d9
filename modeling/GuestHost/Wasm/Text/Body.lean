import GuestHost.Wasm.Module
import GuestHost.Wasm.Text.Float
import GuestHost.Wasm.Text.Tree
/-!
# Bodies of functions

Instructions stand one after the other, and `block`, `loop` and `if` reach to their `end`. Reading
gives them their bodies: it keeps a stack of the blocks that are open.
-/

namespace GuestHost

namespace Wasm

namespace Text

/-- What the body of a function may refer to. -/
structure Scope where
  /-- The names of the functions, in the order of their numbers. -/
  functions : List (Option String)
  /-- The number of parameters and locals. -/
  locals : Nat
  /-- Whether there is a memory. -/
  memory : Bool

/-- A block that is open: what it is, and in reverse what stands in front of it. -/
inductive Open where
  | block (arity : Nat) (outer : List Instr)
  | loop (outer : List Instr)
  | yes (arity : Nat) (outer : List Instr)
  | no (arity : Nat) (yes outer : List Instr)

/-- The number of a function, given as a number or by its name. -/
def function? (functions : List (Option String)) (text : String) : Option Nat :=
  if text.startsWith "$" then functions.findIdx? (· == some text)
  else index? functions.length text

/-- Whether an instruction works on the memory. -/
def usesMemory : Instr → Bool
  | .load _ => true
  | .store _ => true
  | .memoryGrow => true
  | .memoryFill => true
  | _ => false

/-- The instruction of a word that takes nothing behind it. -/
def plain? (text : String) : Option Instr :=
  [("unreachable", .unreachable), ("nop", .nop), ("drop", .drop), ("return", .ret),
    ("i32.eqz", .eqz32), ("i32.add", .binary32 .add), ("i32.sub", .binary32 .sub),
    ("i32.mul", .binary32 .mul), ("i32.div_s", .binary32 .divS), ("i32.div_u", .binary32 .divU),
    ("i32.rem_s", .binary32 .remS), ("i32.lt_s", .binary32 .ltS), ("i64.gt_s", .compare64 .gtS),
    ("i64.lt_s", .compare64 .ltS), ("i32.wrap_i64", .wrap64), ("i32.load", .load .word32),
    ("i32.load8_u", .load .byte32), ("i64.load", .load .word64), ("i32.store", .store .word32),
    ("i32.store8", .store .byte32), ("memory.grow", .memoryGrow),
    ("memory.fill", .memoryFill)].lookup text

/-- The instruction of a word and the word behind it; `depth` labels are in reach. -/
def operand? (scope : Scope) (depth : Nat) (text operand : String) : Option Instr :=
  match text with
  | "i32.const" => (word? 32 operand).map fun n => .const (.i32 (UInt32.ofNat n))
  | "i64.const" => (word? 64 operand).map fun n => .const (.i64 (UInt64.ofNat n))
  | "f32.const" => (float? .single operand).map fun n => .const (.f32 (UInt32.ofNat n))
  | "f64.const" => (float? .double operand).map fun n => .const (.f64 (UInt64.ofNat n))
  | "ref.null" =>
    match operand with
    | "extern" => some (.const .externref)
    | "func" => some (.const .funcref)
    | _ => none
  | "br" => (index? depth operand).map .br
  | "br_if" => (index? depth operand).map .brIf
  | "call" => (function? scope.functions operand).map .call
  | "local.get" => (index? scope.locals operand).map .localGet
  | "local.set" => (index? scope.locals operand).map .localSet
  | _ => none

/-- The types that words name. -/
def valTypes? : List Tree → Option (List ValType)
  | [] => some []
  | .word text :: rest => do return (← ValType.ofText? text) :: (← valTypes? rest)
  | _ => none

/-- The instructions that trees spell, with `code` in reverse in front of them. -/
def body? (scope : Scope) : List Open → List Instr → List Tree → Option (List Instr)
  | [], code, [] => some code.reverse
  | _ :: _, _, [] => none
  | .block arity outer :: stack, code, .word "end" :: rest =>
    body? scope stack (.block arity code.reverse :: outer) rest
  | .loop outer :: stack, code, .word "end" :: rest =>
    body? scope stack (.loop code.reverse :: outer) rest
  | .yes arity outer :: stack, code, .word "end" :: rest =>
    body? scope stack (.cond arity code.reverse [] :: outer) rest
  | .no arity yes outer :: stack, code, .word "end" :: rest =>
    body? scope stack (.cond arity yes code.reverse :: outer) rest
  | .yes arity outer :: stack, code, .word "else" :: rest =>
    body? scope (.no arity code.reverse outer :: stack) [] rest
  | stack, code, .word "block" :: .list (.word "result" :: types) :: rest => do
    let types ← valTypes? types
    body? scope (.block types.length code :: stack) [] rest
  | stack, code, .word "block" :: rest => body? scope (.block 0 code :: stack) [] rest
  | stack, code, .word "loop" :: .list (.word "result" :: types) :: rest => do
    let _ ← valTypes? types
    body? scope (.loop code :: stack) [] rest
  | stack, code, .word "loop" :: rest => body? scope (.loop code :: stack) [] rest
  | stack, code, .word "if" :: .list (.word "result" :: types) :: rest => do
    let types ← valTypes? types
    body? scope (.yes types.length code :: stack) [] rest
  | stack, code, .word "if" :: rest => body? scope (.yes 0 code :: stack) [] rest
  | stack, code, .word text :: rest =>
    match plain? text with
    | some instr =>
      if usesMemory instr && !scope.memory then none else body? scope stack (instr :: code) rest
    | none =>
      match rest with
      | .word operand :: rest => do
        let instr ← operand? scope (stack.length + 1) text operand
        body? scope stack (instr :: code) rest
      | _ => none
  | _, _, _ => none

end Text

end Wasm

end GuestHost
