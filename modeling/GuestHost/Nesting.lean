import GuestHost.Handler
import GuestHost.Loading
/-!
# Nested invocations

The two ways in which a guest invokes another: through an import that is linked to the other
guest, and by name. A link makes two buffers for the call and frees them again, and a failure
behind it stops the caller. A call by name hands over what the caller says, and the caller
survives a failure unless the invocations nest too deep.
-/

namespace GuestHost

/-- A way to carry out invocations. What comes of a successful one is in its context. -/
abbrev Invoke := Context → Setup Context

namespace Nesting

/-- A nested invocation and what comes of it. -/
def attempt (invoke : Invoke) (context : Context) : Call (Except Failure Context) := do
  let (outcome, world) := (invoke context).run (← Call.world)
  Call.setWorld world
  return outcome

/-- The word that an invocation returns to its caller. -/
def returned (context : Context) : UInt32 := (context.result.getD 0).toUInt32

/-- A new buffer, and its handle. -/
def create : Call Nat := do
  let (handle, world) := (← Call.world).create
  Call.setWorld world
  return handle

/-- A handle released, live or not. -/
def release (handle : Nat) : Call Unit := do
  Call.setWorld ((← Call.world).release handle).2

/-- The context in which a linked guest is invoked: the arguments are those of the host call, and
the buffers are new. -/
def linkContext (guest entry : String) : Call Context := do
  let arguments ← Call.words
  let input ← create
  let output ← create
  let context := Context.nested (← Call.invocation) guest entry
  return (context.withArguments arguments).withBuffers input output

/-- The entry of a linked guest called with the arguments of the host call. -/
def link (invoke : Invoke) (guest entry : String) : Call UInt32 := do
  let context ← linkContext guest entry
  let outcome ← attempt invoke context
  release context.input
  release context.output
  match outcome with
  | .ok context => return returned context
  | .error e => Call.fail (.fatal (.failure e))

/-- The integers that bytes spell four by four. -/
def integers : Bytes → List Int32
  | a :: b :: c :: d :: rest =>
    (UInt32.ofNat (Bytes.toWord [a, b, c, d])).toInt32 :: integers rest
  | _ => []

/-- The integers of a range that has to lie inside the guest's memory, as it is now. They are
spelled out when they are asked for. -/
def integersAt (address length : Nat) : Call (Thunk (List Int32)) := do
  Call.range address length
  let memory := (← get).memory
  return .mk fun _ => integers (memory.bytesAt address length)

/-- The context in which a guest is invoked by its name. The arguments say where in memory its
alias, its entry, its arguments and its mode are, and which buffers it gets. -/
def namedContext : Call Context := do
  let guest ← Call.text 0 1
  let entry ← Call.text 2 3
  let address ← Call.word 4
  let count ← Call.word 5
  let arguments ← integersAt address (satMul count 4)
  let name ← Call.text 6 7
  match Mode.ofText? name with
  | none => Call.refuse (.unknownMode name)
  | some mode =>
    let input ← Call.word 8
    let output ← Call.word 9
    let context := Context.nested (← Call.invocation) guest entry
    let context := (context.withGiven arguments).withMode mode
    return context.withBuffers input output

/-- A guest called by its name. -/
def byName (invoke : Invoke) : Call UInt32 := do
  let context ← namedContext
  match ← attempt invoke context with
  | .ok context => return returned context
  | .error (.depthExceeded guest max) => Call.fail (.fatal (.failure (.depthExceeded guest max)))
  | .error e => Call.refuse (.failure e)

end Nesting

/-- What is done behind a host function. -/
def Backing.run (invoke : Invoke) : Backing → Call UInt32
  | .handler (.native call) => call
  | .handler .callFunction => Nesting.byName invoke
  | .guest name entry => Nesting.link invoke name entry

/-- What a guest gets from a host call that failed. -/
def sentinel : UInt32 := 0xffff

namespace HostFunction

/-- The results that a guest gets for the value of a host function. A function gives a 32-bit word,
or a 64-bit one where that is the result declared; a declared result that neither fits is an error.
Results that no signature tells of stay null. -/
def results (f : HostFunction) (value : UInt32) : Except Cause (List Wasm.Value) :=
  match f.result with
  | some kind =>
    let given : Wasm.Value := if kind = .i64 then .i64 value.toUInt64 else .i32 value
    if given.type = kind.type then .ok [given] else .error (.result kind.text given.type.text)
  | none =>
    match f.type.results.find? (· ≠ .funcref) with
    | some type => .error (.result type.reference "(ref null nofunc)")
    | none => .ok (f.type.results.map Wasm.ValType.zero)

/-- The value of a host function. A failure that the guest survives is noted down, and the value
is the sentinel. -/
def value (invoke : Invoke) (f : HostFunction) : Call UInt32 :=
  tryCatch (f.backing.run invoke) fun
    | .fatal cause => throw (.fatal cause)
    | .exit code => throw (.exit code)
    | error => do
      Call.note (.callFailed f.module f.name error)
      return sentinel

/-- A host function called. -/
def call (invoke : Invoke) (f : HostFunction) : Call (List Wasm.Value) := do
  let value ← f.value invoke
  if (← Call.invocation).trace then Call.note (.call f.module f.name value)
  match f.results value with
  | .ok results => return results
  | .error cause => Call.fail (.fatal cause)

end HostFunction

end GuestHost
