import GuestHost.Handler
import GuestHost.Table
/-!
# Binding imports

A linker holds the functions bound so far. A binder serves one imported module of one guest: it
binds functions by name, passes over names that the guest does not import, and refuses functions
of another type than the guest declares. Once it is finished, an import that nothing has bound is
an error.
-/

namespace GuestHost

/-- The functions bound so far. -/
abbrev Linker := List HostFunction

/-- The function bound under a module and a name. -/
def Linker.find? (linker : Linker) (module name : String) : Option HostFunction :=
  List.find? (fun f => f.module == module && f.name == name) linker

/-- One imported module, its functions with the types the guest declares, and what is bound. -/
structure Binder where
  module : String
  imports : Table String Wasm.FuncType
  bound : List String
  linker : Linker

namespace Binder

/-- A binder that has bound nothing yet. -/
def new (linker : Linker) (module : String) (imports : Table String Wasm.FuncType) : Binder :=
  ⟨module, imports, [], linker⟩

/-- Whether the guest imports a name. -/
def importsName (b : Binder) (name : String) : Bool := b.imports.contains name

/-- The imported names, in order. -/
def importedNames (b : Binder) : List String := b.imports.keys

/-- A function added to the linker, which takes no name twice. -/
def attach (b : Binder) (name : String) (type : Wasm.FuncType) (result : Option NumKind)
    (backing : Backing) : Except Failure Binder :=
  match b.linker.find? b.module name with
  | some _ => .error (.boundTwice b.module name)
  | none =>
    .ok { b with
      bound := name :: b.bound
      linker := b.linker ++ [⟨b.module, name, type, result, backing⟩] }

/-- A function bound if the guest imports its name with just this signature. -/
def bind (b : Binder) (name : String) (signature : Signature) (backing : Backing) :
    Except Failure Binder :=
  match b.imports.find? name with
  | none => .ok b
  | some type =>
    if signature.Matches type then b.attach name type signature.result backing
    else .error (.signatureMismatch b.module name signature (Signature.ofType? type))

/-- A function bound with whatever type the guest declares. -/
def bindDeclared (b : Binder) (name : String) (backing : Backing) : Except Failure Binder :=
  match b.imports.find? name with
  | none => .ok b
  | some type => b.attach name type ((Signature.ofType? type).bind Signature.result) backing

/-- A stub bound with whatever type the guest declares. -/
def bindUnimplemented (b : Binder) (name : String) : Except Failure Binder :=
  b.bindDeclared name (.handler (.stub b.module name))

/-- The imported names that nothing has bound yet, in order. -/
def unbound (b : Binder) : List String := b.importedNames.filter fun name => !b.bound.contains name

/-- What a binder shows of the imports that it serves. -/
structure View where
  module : String
  importedNames : List String
  unbound : List String

/-- What a binder shows at the time. -/
def view (b : Binder) : View := ⟨b.module, b.importedNames, b.unbound⟩

/-- The linker, if every import is bound. -/
def finish (b : Binder) : Except Failure Linker :=
  match b.unbound with
  | [] => .ok b.linker
  | name :: _ => .error (.unresolvedImport b.module name)

end Binder

end GuestHost
