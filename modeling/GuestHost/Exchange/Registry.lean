import GuestHost.Exchange.Buffer
/-!
# The registry of exchange buffers

Every registered buffer gets a place of its own, which it keeps, and a handle, which stands for
the place as long as it is live. Handles are 32-bit words numbered on from one; behind the greatest
word they start again, and zero and handles that are live are passed over. Releasing a handle takes
the buffer out of reach of the handle; whoever holds the place (an open file, the peer of a socket)
goes on using it. A registry counts what it has registered and released.
-/

namespace GuestHost

namespace Exchange

/-- Where a registered buffer is kept. -/
abbrev Place := Nat

/-- The registered buffers and the live handles. -/
structure Registry where
  /-- The first candidate for the handle of the next buffer. -/
  next : Nat
  /-- The places of the live handles. -/
  handles : Table Nat Place
  /-- All buffers in the order of their registration. -/
  buffers : Array Buffer
  created : Nat
  released : Nat

/-- How much a registry is used. -/
structure Stats where
  created : Nat
  released : Nat
  live : Nat
  deriving DecidableEq

namespace Registry

/-- The registry of a new host. -/
def empty : Registry := ⟨1, .empty, #[], 0, 0⟩

/-- The candidate behind another. -/
def following (candidate : Nat) : Nat := if candidate < maxWord then candidate + 1 else 1

/-- The first of some number of candidates that is neither zero nor live, or the one behind them. -/
def firstFree (handles : Table Nat Place) : Nat → Nat → Nat
  | 0, candidate => candidate
  | n + 1, candidate =>
    if candidate ≠ 0 ∧ !handles.contains candidate then candidate
    else firstFree handles n (following candidate)

/-- The handle that the next buffer will get: one of more candidates than there are live handles. -/
def nextHandle (r : Registry) : Nat := firstFree r.handles (r.handles.size + 1) r.next

/-- A buffer registered; its handle is `nextHandle`. -/
def register (r : Registry) (buffer : Buffer) : Registry :=
  { r with
    next := following r.nextHandle
    handles := r.handles.insert r.nextHandle r.buffers.size
    buffers := r.buffers.push buffer
    created := r.created + 1 }

/-- The place of a live handle. -/
def place? (r : Registry) (handle : Nat) : Option Place := r.handles.find? handle

/-- Whether a handle is live. -/
def isLive (r : Registry) (handle : Nat) : Bool := (r.place? handle).isSome

/-- The buffer at a place. -/
def at? (r : Registry) (place : Place) : Option Buffer := r.buffers[place]?

/-- The buffer at a place changed. -/
def change (r : Registry) (place : Place) (f : Buffer → Buffer) : Registry :=
  { r with buffers := r.buffers.modify place f }

/-- The buffer at a place replaced. -/
def put (r : Registry) (place : Place) (buffer : Buffer) : Registry :=
  r.change place fun _ => buffer

/-- The place that a handle was given for, whether the handle is live or not, while handles have
not started again. -/
def everPlace? (r : Registry) (handle : Nat) : Option Place :=
  if 0 < handle ∧ handle ≤ r.buffers.size then some (handle - 1) else none

/-- The buffer of a live handle. -/
def find? (r : Registry) (handle : Nat) : Option Buffer := (r.place? handle).bind r.at?

/-- A handle released. -/
def release (r : Registry) (handle : Nat) : Registry :=
  match r.place? handle with
  | some _ => { r with handles := r.handles.erase handle, released := r.released + 1 }
  | none => r

/-- The number of live handles. -/
def liveCount (r : Registry) : Nat := r.handles.size

/-- The counters of a registry. -/
def stats (r : Registry) : Stats := ⟨r.created, r.released, r.handles.size⟩

/-- An operation on the buffer at a place. -/
def useAt {α : Type} (r : Registry) (place : Place)
    (operation : Buffer → Except Error α × Buffer) : Except Error α × Registry :=
  match r.at? place with
  | some buffer =>
    let (outcome, buffer) := operation buffer
    (outcome, r.put place buffer)
  | none => (.error .closed, r)

/-- An operation on the buffer of a handle. -/
def use {α : Type} (r : Registry) (handle : Nat)
    (operation : Buffer → Except Error α × Buffer) : Except Error α × Registry :=
  match r.place? handle with
  | some place => r.useAt place operation
  | none => (.error (.unknownHandle handle), r)

/-- An operation on the buffer of a handle that changes nothing. -/
def look {α : Type} (r : Registry) (handle : Nat) (operation : Buffer → Except Error α) :
    Except Error α :=
  match r.find? handle with
  | some buffer => operation buffer
  | none => .error (.unknownHandle handle)

end Registry

end Exchange

end GuestHost
