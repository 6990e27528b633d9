import GuestHost.Store.Shelf
/-!
# Persistence

The part of the store that guests read and write: their keys stand in a name space of their own.
-/

namespace GuestHost

namespace Store

namespace Persistence

/-- The start of every guest key. -/
def nameSpace : Bytes := Utf8.encode "/persistence"

/-- The key that a guest's key stands for. -/
def fullKey (key : Bytes) : Bytes := nameSpace ++ key

/-- A value stored. -/
def set (s : Shelf) (key value : Bytes) : Except Error Shelf := s.put (fullKey key) value

/-- The value of a key. -/
def get (s : Shelf) (key : Bytes) : Except Error (Option Bytes) := s.get (fullKey key)

/-- The guest keys with a given start, in order, with their values. -/
def subset (s : Shelf) (start : Bytes) : Except Error (List (Bytes × Bytes)) := do
  return (← s.scan (fullKey start)).map fun (key, value) => (key.drop nameSpace.length, value)

end Persistence

end Store

end GuestHost
