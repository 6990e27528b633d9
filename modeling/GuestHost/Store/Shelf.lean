import GuestHost.Bytes.Utf8
import GuestHost.Table
/-!
# The key-value store

Entries under byte keys in the order of the keys. A shelf may be told to fail: a fault makes every
access of one sort under the keys with a given start fail, and an access that fails changes
nothing. `scan` walks the entries from the first key not before the start; it returns the entries
whose keys start so.
-/

namespace GuestHost

namespace Store

/-- Why an operation on the store failed. -/
inductive Error where
  | notFound (name : String)
  | json
  | backend (message : String)
  deriving DecidableEq

/-- The words for an error. -/
def Error.message : Error → String
  | notFound name => "not found: " ++ name
  | json => "json error"
  | backend message => "backend error: " ++ message

/-- The sorts of access. -/
inductive Access where
  | get
  | put
  | scan
  deriving DecidableEq

/-- Accesses of one sort to keys with one start, all of which fail. -/
structure Fault where
  access : Access
  start : Bytes
  deriving DecidableEq

/-- The entries of a store and the faults it has. -/
structure Shelf where
  entries : Table Bytes Bytes
  faults : List Fault

namespace Shelf

/-- The store of a new host. -/
def empty : Shelf := ⟨.empty, []⟩

/-- Whether an access to a key fails. -/
def fails (s : Shelf) (access : Access) (key : Bytes) : Bool :=
  s.faults.any fun fault => fault.access == access && fault.start.isPrefixOf key

/-- The error of an access that fails. -/
def injected : Error := .backend "injected"

/-- The value under a key. -/
def get (s : Shelf) (key : Bytes) : Except Error (Option Bytes) :=
  if s.fails .get key then .error injected else .ok (s.entries.find? key)

/-- The store with a value put under a key. -/
def put (s : Shelf) (key value : Bytes) : Except Error Shelf :=
  if s.fails .put key then .error injected
  else .ok { s with entries := s.entries.insert key value }

/-- The entries from `start` on, up to the first whose key does not start so. -/
def range (start : Bytes) (entries : List (Bytes × Bytes)) : List (Bytes × Bytes) :=
  (entries.dropWhile fun e => decide (e.1 < start)).takeWhile fun e => start.isPrefixOf e.1

/-- The entries whose keys start with `start`, in order. -/
def scan (s : Shelf) (start : Bytes) : Except Error (List (Bytes × Bytes)) :=
  if s.fails .scan start then .error injected else .ok (range start s.entries.entries)

/-- The store with one more fault. -/
def breakAt (s : Shelf) (fault : Fault) : Shelf := { s with faults := s.faults ++ [fault] }

/-- The store without its faults. -/
def heal (s : Shelf) : Shelf := { s with faults := [] }

end Shelf

end Store

end GuestHost
