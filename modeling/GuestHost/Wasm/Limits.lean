import GuestHost.Wasm.Module
/-!
# What a module may hold

The greatest numbers of things in a module. `Module.fits` holds of the modules that pass none of
them.
-/

namespace GuestHost

namespace Wasm

namespace Limits

/-- The greatest number of parameters, and of results, of a function. -/
def values : Nat := 1000

/-- The greatest number of parameters and locals of a function together. -/
def locals : Nat := 50000

/-- The greatest number of bytes in a name. -/
def name : Nat := 100000

/-- The greatest number of memories. -/
def memories : Nat := 100

/-- The greatest number of segments of data. -/
def segments : Nat := 100000

/-- The greatest number of functions, and of imports, and of exports. -/
def items : Nat := 1000000

end Limits

/-- Whether a type passes no limit. -/
def FuncType.fits (t : FuncType) : Bool :=
  t.params.length ≤ Limits.values && t.results.length ≤ Limits.values

/-- Whether a function passes no limit. -/
def Function.fits (f : Function) : Bool :=
  f.type.fits && f.type.params.length + f.locals.length ≤ Limits.locals

/-- Whether a name passes no limit. -/
def nameFits (name : String) : Bool := name.utf8ByteSize ≤ Limits.name

/-- Whether an import passes no limit. -/
def Import.fits (i : Import) : Bool :=
  nameFits i.module && nameFits i.name && i.type.all FuncType.fits

/-- Whether a module passes no limit. -/
def Module.fits (m : Module) : Bool :=
  m.imports.all Import.fits && m.functions.all Function.fits &&
    m.exports.all (fun e => nameFits e.1) &&
    m.imports.length ≤ Limits.items && m.exports.length ≤ Limits.items &&
    m.importedTypes.length + m.functions.size ≤ Limits.items &&
    (m.imports.filter fun i => i.wanted == .memory).length + m.memories.length ≤
      Limits.memories &&
    m.data.length ≤ Limits.segments

end Wasm

end GuestHost
