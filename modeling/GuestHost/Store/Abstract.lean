import GuestHost.Json.Reader
import GuestHost.Json.Record
import GuestHost.Json.Writer
/-!
# Abstracts

What a store notes down about a blob: its content type and its length. An abstract is stored as
compact JSON.
-/

namespace GuestHost

namespace Store

/-- The description of a blob. -/
structure Abstract where
  contentType : String
  length : Nat
  deriving DecidableEq

namespace Abstract

/-- An abstract as it is stored. -/
def render (a : Abstract) : Bytes :=
  Json.braced [("content_type", Json.quoted a.contentType), ("length", Json.decimal a.length)]

/-- The abstract that a document describes. -/
def ofJson? (document : Json) : Option Abstract := do
  match ← document.fields? ["content_type", "length"] with
  | [some contentType, some length] => return ⟨← contentType.text?, ← length.word?⟩
  | _ => none

/-- The abstract that was stored as `bytes`. -/
def read? (bytes : Bytes) : Option Abstract := (Json.parse? bytes).bind ofJson?

end Abstract

end Store

end GuestHost
