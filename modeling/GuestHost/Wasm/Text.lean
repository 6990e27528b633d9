import GuestHost.Wasm.Limits
import GuestHost.Wasm.Text.Body
/-!
# The text format of guests

A guest is stored as the text of a module, or as the eight bytes of an empty binary module. The
text gives the fields of the module, in the parentheses of a module or without. It is read in two
passes: the first numbers the functions, so that names may be used before they are given; the
second reads the fields.
-/

namespace GuestHost

namespace Wasm

namespace Text

/-- A function as it is written: its type, its locals and its body, still to be read. -/
structure Definition where
  name : Option String
  exports : List String
  params : List ValType
  results : List ValType
  locals : List ValType
  body : List Tree

/-- One field of a module. -/
inductive Field where
  | «import» (name : Option String) (what : Import)
  | function (definition : Definition)
  | memory (exports : List String) (pages : Nat)
  | data (segment : Segment)
  | start (function : String)

/-- The text of a string that has to be UTF-8. -/
def name? : Tree → Option String
  | .string bytes => Utf8.decode? bytes
  | _ => none

/-- A name in front, if there is one. -/
def identifier : List Tree → Option String × List Tree
  | .word text :: rest =>
    if text.startsWith "$" then (some text, rest) else (none, .word text :: rest)
  | rest => (none, rest)

/-- The names under which a field is exported, and what follows. -/
def exports? : List Tree → Option (List String × List Tree)
  | .list [.word "export", name] :: rest => do
    let (names, rest) ← exports? rest
    return ((← name? name) :: names, rest)
  | rest => some ([], rest)

/-- The types in front under one word, and what follows. -/
def types? (word : String) : List Tree → Option (List ValType × List Tree)
  | .list (.word text :: types) :: rest =>
    if text = word then do
      let types ← valTypes? types
      let (more, rest) ← types? word rest
      return (types ++ more, rest)
    else some ([], .list (.word text :: types) :: rest)
  | rest => some ([], rest)

/-- A number of pages, with or without a greatest number behind it. -/
def pages? : List Tree → Option Nat
  | [.word pages] => index? (maxPages + 1) pages
  | [.word pages, .word most] => do
    let pages ← index? (maxPages + 1) pages
    let most ← index? (maxPages + 1) most
    if pages ≤ most then some pages else none
  | _ => none

/-- The number of entries that no table passes. -/
def maxEntries : Nat := 10000000

/-- Whether trees say what a table is: its size, with or without a greatest size behind it, and
the type of its entries. -/
def isTable : List Tree → Bool
  | [.word size, .word type] =>
    (index? (maxEntries + 1) size).isSome && (type == "funcref" || type == "externref")
  | [.word size, .word most, .word type] =>
    (type == "funcref" || type == "externref") &&
      match index? (maxEntries + 1) size, index? 4294967296 most with
      | some size, some most => size ≤ most
      | _, _ => false
  | _ => false

/-- Whether trees say what a global is. -/
def isGlobal : List Tree → Bool
  | [.word type] => (ValType.ofText? type).isSome
  | [.list [.word "mut", .word type]] => (ValType.ofText? type).isSome
  | _ => false

/-- What an import asks for, and the name that the module gives to it if it is a function. -/
def wanted? : List Tree → Option (Option String × Wanted)
  | .word "func" :: rest => do
    let (name, rest) := identifier rest
    let (params, rest) ← types? "param" rest
    let (results, rest) ← types? "result" rest
    if rest.isEmpty then some (name, .function ⟨params, results⟩) else none
  | .word "memory" :: rest => (pages? (identifier rest).2).map fun _ => (none, .memory)
  | .word "table" :: rest => if isTable (identifier rest).2 then some (none, .table) else none
  | .word "global" :: rest => if isGlobal (identifier rest).2 then some (none, .global) else none
  | _ => none

/-- The bytes of strings that stand one after the other. -/
def strings? : List Tree → Option Bytes
  | [] => some []
  | .string bytes :: rest => (strings? rest).map (bytes ++ ·)
  | _ => none

/-- A field of a module. -/
def field? : Tree → Option Field
  | .list [.word "import", module, name, .list what] => do
    let (identifier, wanted) ← wanted? what
    return .import identifier ⟨← name? module, ← name? name, wanted⟩
  | .list (.word "func" :: rest) => do
    let (name, rest) := identifier rest
    let (exports, rest) ← exports? rest
    let (params, rest) ← types? "param" rest
    let (results, rest) ← types? "result" rest
    let (locals, rest) ← types? "local" rest
    return .function ⟨name, exports, params, results, locals, rest⟩
  | .list (.word "memory" :: rest) => do
    let (_, rest) := identifier rest
    let (exports, rest) ← exports? rest
    return .memory exports (← pages? rest)
  | .list (.word "data" :: .list [.word "i32.const", .word address] :: bytes) => do
    return .data ⟨← word? 32 address, ← strings? bytes⟩
  | .list [.word "start", .word function] => some (.start function)
  | _ => none

/-- The imports among fields. -/
def importsOf (fields : List Field) : List (Option String × Import) :=
  fields.filterMap fun
    | .import name what => some (name, what)
    | _ => none

/-- The functions among fields. -/
def definitionsOf (fields : List Field) : List Definition :=
  fields.filterMap fun
    | .function definition => some definition
    | _ => none

/-- The memories among fields. -/
def memoriesOf (fields : List Field) : List (List String × Nat) :=
  fields.filterMap fun
    | .memory exports pages => some (exports, pages)
    | _ => none

/-- The data among fields. -/
def segmentsOf (fields : List Field) : List Segment :=
  fields.filterMap fun
    | .data segment => some segment
    | _ => none

/-- The functions to start with among fields. -/
def startsOf (fields : List Field) : List String :=
  fields.filterMap fun
    | .start function => some function
    | _ => none

/-- Whether imports stand in front of all functions and memories; `ended` says that one of these
stands in front of the fields. -/
def importsFirst : Bool → List Field → Bool
  | _, [] => true
  | ended, .import _ _ :: rest => !ended && importsFirst ended rest
  | _, .function _ :: rest => importsFirst true rest
  | _, .memory _ _ :: rest => importsFirst true rest
  | ended, _ :: rest => importsFirst ended rest

/-- Whether no two members of a list are equal. -/
def distinct : List String → Bool
  | [] => true
  | s :: rest => !rest.contains s && distinct rest

/-- The exports of functions, numbered from `first` on. -/
def functionExports : Nat → List Definition → List (String × Export)
  | _, [] => []
  | index, d :: rest =>
    d.exports.map (·, .function index) ++ functionExports (index + 1) rest

/-- The exports of memories, numbered from `first` on. -/
def memoryExports : Nat → List (List String × Nat) → List (String × Export)
  | _, [] => []
  | index, (names, _) :: rest => names.map (·, .memory index) ++ memoryExports (index + 1) rest

/-- The module that fields make up. -/
def module? (fields : List Field) : Option Module := do
  if !importsFirst false fields then none
  let imports := importsOf fields
  let definitions := definitionsOf fields
  let memories := memoriesOf fields
  let segments := segmentsOf fields
  let importedFunctions := imports.filter fun i => i.2.type.isSome
  let names := importedFunctions.map Prod.fst ++ definitions.map Definition.name
  let exports := functionExports importedFunctions.length definitions ++ memoryExports 0 memories
  if !distinct (names.filterMap id) || !distinct (exports.map Prod.fst) then none
  let start ← match startsOf fields with
    | [] => some none
    | [name] => (function? names name).map some
    | _ => none
  let hull : Module :=
    ⟨imports.map Prod.snd, #[], exports, memories.map Prod.snd, segments, start⟩
  if !hull.hasMemory && !segments.isEmpty then none
  let functions ← definitions.mapM fun d => do
    let scope : Scope := ⟨names, d.params.length + d.locals.length, hull.hasMemory⟩
    return (⟨⟨d.params, d.results⟩, d.locals, ← body? scope [] [] d.body⟩ : Function)
  let module : Module := { hull with functions := functions.toArray }
  if start.any fun index => decide (module.typeOf? index ≠ some ⟨[], []⟩) then none
  if module.fits then some module else none

/-- The fields that the trees of a text spell: those of a module, or all there are. -/
def fields? : List Tree → Option (List Field)
  | [] => none
  | [.list (.word "module" :: rest)] => (identifier rest).2.mapM field?
  | trees => trees.mapM field?

end Text

/-- The bytes of the binary module that defines nothing. -/
def emptyBinary : Bytes := [0x00, 0x61, 0x73, 0x6d, 0x01, 0x00, 0x00, 0x00]

/-- The module that bytes spell, if they spell one. -/
def Module.ofBytes? (bytes : Bytes) : Option Module :=
  if bytes = emptyBinary then some .empty
  else do Text.module? (← Text.fields? (← Text.Tree.ofText? bytes))

end Wasm

end GuestHost
