import GuestHost.Binder
/-!
# Dynamic links

A module that a guest imports may be another guest. Every imported name that the other guest
exports as a function is bound to that function; it must take 32-bit words only and return one or
nothing. Names that it does not export stay unbound.
-/

namespace GuestHost

namespace Link

/-- Whether a function of this signature can be called across a link. -/
def isLinkable (s : Signature) : Bool :=
  s.params.all (· == .i32) && (s.result == none || s.result == some .i32)

/-- The signature under which an export of a linked guest is bound. -/
def signature (guest name : String) (type : Wasm.FuncType) : Except Failure Signature :=
  match (Signature.ofType? type).filter isLinkable with
  | some signature => .ok signature
  | none =>
    .error (.signatureMismatch guest name (.i32s type.params.length) (Signature.ofType? type))

/-- Names bound to the exports of a linked guest. -/
def bindAll (guest : String) (target : Wasm.Module) : List String → Binder → Except Failure Binder
  | [], binder => .ok binder
  | name :: rest, binder =>
    match target.exportedType? name with
    | none => bindAll guest target rest binder
    | some type =>
      match signature guest name type with
      | .error e => .error e
      | .ok signature =>
        match binder.bind name signature (.guest guest name) with
        | .error e => .error e
        | .ok binder => bindAll guest target rest binder

/-- The imports of a module bound to the exports of the guest of that name. -/
def bind (target : Wasm.Module) (binder : Binder) : Except Failure Binder :=
  bindAll binder.module target binder.importedNames binder

/-- The failure of a link from the last guest of a chain back to one of the chain. -/
def cycle? (chain : List String) (guest : String) : Option Failure :=
  if guest ∈ chain then some (.cycle (chain ++ [guest])) else none

end Link

end GuestHost
