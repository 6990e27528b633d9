import GuestHost.World
/-!
# Host calls

A host call sees its arguments, the guest's memory, the invocation it is made in, the guest's
process and the world. It may fail, and what it changed before it failed stays changed. Arguments
are 32-bit words read without a sign, so that addresses are plain numbers.
-/

namespace GuestHost

/-- What a host call sees. -/
structure Site where
  arguments : List Wasm.Value
  memory : Memory
  invocation : Invocation
  process : Posix.Process
  world : World

/-- A computation that a host call performs. -/
abbrev Call (α : Type) := ExceptT CallError (StateM Site) α

namespace Call

/-- The call fails. -/
def fail {α : Type} (error : CallError) : Call α := throw error

/-- The call fails for a reason that the guest survives. -/
def refuse {α : Type} (reason : Reason) : Call α := throw (.recoverable reason)

/-- The argument of an index. -/
def argument (index : Nat) : Call Wasm.Value := do
  match (← get).arguments[index]? with
  | some value => return value
  | none => throw (.fatal (.missingArgument index))

/-- A 32-bit argument. -/
def word (index : Nat) : Call Nat := do
  match ← argument index with
  | .i32 word => return word.toNat
  | value => throw (.fatal (.argument index value .i32))

/-- A 32-bit argument read with its sign. -/
def signed (index : Nat) : Call Int32 := do
  return (UInt32.ofNat (← word index)).toInt32

/-- A 64-bit argument. -/
def wide (index : Nat) : Call Nat := do
  match ← argument index with
  | .i64 word => return word.toNat
  | value => throw (.fatal (.argument index value .i64))

/-- The outcome of an access to the guest's memory. -/
def ofAccess {α : Type} : Except Memory.OutOfBounds α → Call α
  | .ok value => pure value
  | .error access => throw (.outOfBounds access)

/-- The bytes of a range of the guest's memory. -/
def slice (offset length : Nat) : Call Bytes := do
  ofAccess ((← get).memory.slice offset length)

/-- A range that has to lie inside the guest's memory. -/
def range (offset length : Nat) : Call Unit := do
  ofAccess ((← get).memory.check offset length)

/-- The text of a range of the guest's memory. -/
def string (offset length : Nat) : Call String := do
  match Utf8.decode? (← slice offset length) with
  | some text => return text
  | none => throw (.recoverable .utf8)

/-- The 32-bit word at an address. -/
def load (offset : Nat) : Call Nat := do
  ofAccess ((← get).memory.readWord 4 offset)

/-- The guest's memory replaced. -/
def setMemory (memory : Memory) : Call Unit := modify fun site => { site with memory := memory }

/-- Bytes written to the guest's memory. -/
def write (offset : Nat) (data : Bytes) : Call Unit := do
  setMemory (← ofAccess ((← get).memory.write offset data))

/-- A word of some width written to the guest's memory. -/
def store (width offset value : Nat) : Call Unit := do
  setMemory (← ofAccess ((← get).memory.writeWord width offset value))

/-- A range of the guest's memory filled with one byte. -/
def fill (offset length : Nat) (value : UInt8) : Call Unit := do
  setMemory (← ofAccess ((← get).memory.fill offset length value))

/-- An argument that has to be an address inside the guest's memory. -/
def pointer (index : Nat) : Call Nat := do
  let offset ← word index
  range offset 0
  return offset

/-- The bytes that an address and a length among the arguments name. -/
def bytes (address length : Nat) : Call Bytes := do
  let offset ← word address
  let length ← word length
  slice offset length

/-- The text that an address and a length among the arguments name. -/
def text (address length : Nat) : Call String := do
  let offset ← word address
  let length ← word length
  string offset length

/-- All arguments, which have to be 32-bit words. -/
def words : Call (List Int32) := do
  (List.range (← get).arguments.length).mapM signed

/-- The invocation that the call is made in. -/
def invocation : Call Invocation := do return (← get).invocation

/-- The world. -/
def world : Call World := do return (← get).world

/-- The guest's process. -/
def process : Call Posix.Process := do return (← get).process

/-- The world replaced. -/
def setWorld (world : World) : Call Unit := modify fun site => { site with world := world }

/-- The guest's process replaced. -/
def setProcess (process : Posix.Process) : Call Unit :=
  modify fun site => { site with process := process }

/-- An event noted down. -/
def note (event : Event) : Call Unit := do setWorld ((← world).note event)

/-- Text from the guest noted down. -/
def hear (text : Bytes) : Call Unit := do setWorld ((← world).hear text)

/-- An operation on the world whose failure the guest survives. -/
def attempt {ε α : Type} (reason : ε → Reason) (operation : World → Except ε α × World) :
    Call α := do
  let (outcome, world) := operation (← world)
  setWorld world
  match outcome with
  | .ok value => return value
  | .error e => throw (.recoverable (reason e))

/-- An operation on the buffer of a handle. -/
def use {α : Type} (handle : Nat)
    (operation : Exchange.Buffer → Except Exchange.Error α × Exchange.Buffer) : Call α :=
  attempt .exchange fun world => world.use handle operation

/-- Accesses to the store. -/
def access {α : Type} (operation : Store.Blob.Access α) : Call α :=
  attempt .store fun world => world.store operation

/-- A look into the store. -/
def look {α : Type} (operation : Store.Shelf → Except Store.Error α) : Call α :=
  access fun shelf => (operation shelf, shelf)

/-- A handle as it is handed to a guest. -/
def handle (n : Nat) : UInt32 := UInt32.ofNat n

/-- A buffer registered, and its handle. -/
def register (buffer : Exchange.Buffer) : Call UInt32 := do
  let (n, world) := (← world).register buffer
  setWorld world
  return handle n

/-- A result too large for a word: it goes into a new memory buffer, whose handle is returned. -/
def reply (content : Bytes) : Call UInt32 := register (.memory (.ofContent content))

end Call

end GuestHost
