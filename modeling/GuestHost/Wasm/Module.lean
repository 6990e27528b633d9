import GuestHost.Bytes
import GuestHost.Wasm.Types
/-!
# Guest modules

A module as it is run: imports, functions with structured bodies, exports, memories with the data
that the first of them starts with, and a function to run at the start. Functions are numbered
from the first imported function on, imports first. Code works on the first memory only; the
others are there to be exported.
-/

namespace GuestHost

namespace Wasm

/-- Operations on two 32-bit words. -/
inductive Binary32 where
  | add
  | sub
  | mul
  | divS
  | divU
  | remS
  | ltS
  deriving DecidableEq

/-- Comparisons of two 64-bit words. -/
inductive Compare64 where
  | ltS
  | gtS
  deriving DecidableEq

/-- What a load reads. -/
inductive Load where
  | word32
  | byte32
  | word64
  deriving DecidableEq

/-- What a store writes. -/
inductive Store where
  | word32
  | byte32
  deriving DecidableEq

/-- One instruction. Blocks hold their bodies and the number of values that they leave. -/
inductive Instr where
  | unreachable
  | nop
  | drop
  | ret
  | const (value : Value)
  | block (arity : Nat) (body : List Instr)
  | loop (body : List Instr)
  | cond (arity : Nat) (yes no : List Instr)
  | br (label : Nat)
  | brIf (label : Nat)
  | call (function : Nat)
  | localGet (index : Nat)
  | localSet (index : Nat)
  | eqz32
  | binary32 (op : Binary32)
  | compare64 (op : Compare64)
  | wrap64
  | load (what : Load)
  | store (what : Store)
  | memoryGrow
  | memoryFill

/-- A function of a module: its type, its locals behind the parameters, and its body. -/
structure Function where
  type : FuncType
  locals : List ValType
  body : List Instr

/-- What an import asks for. Guests may import functions only, but ask for more. -/
inductive Wanted where
  | function (type : FuncType)
  | memory
  | global
  | table
  deriving DecidableEq

/-- What is imported. -/
structure Import where
  module : String
  name : String
  wanted : Wanted

/-- The type of an imported function. -/
def Import.type (i : Import) : Option FuncType :=
  match i.wanted with
  | .function type => some type
  | _ => none

/-- What an export stands for. Memories are numbered without the imported ones. -/
inductive Export where
  | function (index : Nat)
  | memory (index : Nat)
  deriving DecidableEq

/-- A segment of data: where it goes, and its bytes. -/
structure Segment where
  address : Nat
  bytes : Bytes

/-- A guest module. -/
structure Module where
  imports : List Import
  functions : Array Function
  exports : List (String × Export)
  /-- The sizes of the memories in pages. -/
  memories : List Nat
  data : List Segment
  start : Option Nat

namespace Module

/-- The module that defines nothing. -/
def empty : Module := ⟨[], #[], [], [], [], none⟩

/-- The types of the imported functions. -/
def importedTypes (m : Module) : List FuncType := m.imports.filterMap Import.type

/-- The type of a function by its number. -/
def typeOf? (m : Module) (index : Nat) : Option FuncType :=
  let imported := m.importedTypes
  if index < imported.length then imported[index]?
  else m.functions[index - imported.length]?.map Function.type

/-- The number of an exported function. -/
def exported? (m : Module) (name : String) : Option Nat :=
  match m.exports.lookup name with
  | some (.function index) => some index
  | _ => none

/-- The type of an exported function. -/
def exportedType? (m : Module) (name : String) : Option FuncType :=
  (m.exported? name).bind m.typeOf?

/-- The number of the memory that the host sees: the one exported under this very name. -/
def shown? (m : Module) : Option Nat :=
  match m.exports.lookup "memory" with
  | some (.memory index) => some index
  | _ => none

/-- Whether there is a memory for the code to work on. -/
def hasMemory (m : Module) : Bool :=
  !m.memories.isEmpty || m.imports.any fun i => i.wanted == .memory

end Module

/-- The number of bytes in a page of memory. -/
def pageSize : Nat := 65536

/-- The number of pages that no memory passes. -/
def maxPages : Nat := 65536

end Wasm

end GuestHost
