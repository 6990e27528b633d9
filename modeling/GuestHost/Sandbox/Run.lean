import GuestHost.Nesting
import GuestHost.Sandbox
import GuestHost.Wasm.Machine
/-!
# Running a sandbox

A run instantiates the guest, checks that its entry takes the arguments of the context, and calls
the entry. It ends in one of four ways: the entry returns, the guest exits, the guest calls a
function that is not implemented, or it traps. Every step of the guest's code uses up one unit of
fuel, so a run takes no more steps than it has fuel.
-/

namespace GuestHost

namespace Sandbox

/-- What a run changes outside the machine. -/
structure Surroundings where
  process : Posix.Process
  world : World
  /-- The memory that the host sees, if it is not the one that the guest's code works on. -/
  apart : Memory

/-- A computation of a run, which may change its surroundings and may end the run. -/
abbrev Running (α : Type) := ExceptT CallError (StateM Surroundings) α

/-- The fuel of a run that has no limit: more than any run can use up. -/
def unlimited : Nat := 4611686018427387904

/-- The function that an import of a sandbox is bound to. -/
def function? (s : Sandbox) (i : Wasm.Import) : Option HostFunction :=
  s.linker.find? i.module i.name

/-- The function called in place of the imported function of a number. -/
def called? (s : Sandbox) (index : Nat) : Option HostFunction :=
  s.program.imports[index]?.bind s.function?

/-- What a host call of a run sees. The memory is the one that the guest shows, which may be
another than the one that its code works on. -/
def site (s : Sandbox) (arguments : List Wasm.Value) (memory : Memory) (around : Surroundings) :
    Site :=
  let seen := match s.program.shown? with
    | none => .none
    | some 0 => memory
    | some _ => around.apart
  ⟨arguments, seen, s.context.toInvocation, around.process, around.world⟩

/-- The host function called in place of an imported function, and the memory that the guest's
code works on after it. -/
def hostCall (invoke : Invoke) (s : Sandbox) (index : Nat) (arguments : List Wasm.Value)
    (memory : Memory) : Running (List Wasm.Value × Memory) :=
  match s.called? index with
  | none => throw (.fatal (.machine .unreachable))
  | some f => do
    let around ← get
    let (outcome, site) := (f.call invoke).run (s.site arguments memory around)
    let (memory, apart) := match s.program.shown? with
      | none => (memory, around.apart)
      | some 0 => (site.memory, around.apart)
      | some _ => (memory, site.memory)
    set (⟨site.process, site.world, apart⟩ : Surroundings)
    match outcome with
    | .ok results => return (results, memory)
    | .error e => throw e

/-- What a machine ends with, and the fuel that is left. -/
structure Rest where
  fuel : Nat
  results : List Wasm.Value
  memory : Memory

/-- A machine driven to its end, imported functions being called on the way. -/
def drive (invoke : Invoke) (s : Sandbox) : Nat → Wasm.Machine → Running Rest
  | 0, _ => throw (.fatal (.machine .outOfFuel))
  | fuel + 1, machine =>
    match machine.step with
    | .running machine => drive invoke s fuel machine
    | .finished results memory => return ⟨fuel, results, memory⟩
    | .trapped trap => throw (.fatal (.machine trap))
    | .calling index arguments machine => do
      let (results, memory) ← hostCall invoke s index arguments machine.memory
      drive invoke s fuel (machine.resume results memory)

/-- Why an import cannot be given the function it is bound to. -/
def misfit? (s : Sandbox) (i : Wasm.Import) : Option Cause :=
  match s.function? i with
  | none => some (.missingImport i.module i.name)
  | some f =>
    match i.type with
    | some type =>
      if type = f.type then none else some (.importType i.module i.name type f.type)
    | none => some (.missingImport i.module i.name)

/-- The memory of a number that a module starts with. -/
def initialMemory (program : Wasm.Module) (index : Nat) : Memory :=
  match program.memories[index]? with
  | some pages => .zeros (pages * Wasm.pageSize)
  | none => .none

/-- Memory with segments of data written to it. -/
def loadData : List Wasm.Segment → Memory → Except Memory.OutOfBounds Memory
  | [], memory => .ok memory
  | segment :: rest, memory =>
    match memory.write segment.address segment.bytes with
    | .ok memory => loadData rest memory
    | .error e => .error e

/-- The memory that a guest's code starts on, or why the guest cannot start. -/
def loaded (s : Sandbox) : Except Cause Memory :=
  match s.program.imports.findSome? s.misfit? with
  | some cause => .error cause
  | none =>
    match loadData s.program.data (initialMemory s.program 0) with
    | .error _ => .error (.machine .outOfBounds)
    | .ok memory => .ok memory

/-- The guest brought to the point where its entry can be called: the fuel left and its memory. -/
def instantiate (invoke : Invoke) (s : Sandbox) (fuel : Nat) : Running Rest :=
  match s.loaded with
  | .error cause => throw (.fatal cause)
  | .ok memory =>
    match s.program.start with
    | none => return ⟨fuel, [], memory⟩
    | some index => drive invoke s fuel (.start s.program memory index [])

/-- The arguments that a context passes to an entry: a POSIX guest takes its arguments from its
command line. -/
def entryArguments (context : Context) : List Int32 :=
  match context.mode with
  | .direct => context.arguments
  | .posix => []

/-- Why an entry cannot be called: it has to take just the arguments of the context, all of them
32-bit words. -/
def refusal? (context : Context) (type : Wasm.FuncType) : Option Failure :=
  let expected : Signature :=
    ⟨List.replicate (entryArguments context).length .i32,
      (Signature.ofType? type).bind Signature.result⟩
  if expected.Matches type then none
  else some (.signatureMismatch context.guest context.entry expected (Signature.ofType? type))

/-- The number that a context reports for the results of its entry. -/
def report : List Wasm.Value → Int32
  | .i32 word :: _ => word.toInt32
  | .i64 word :: _ => word.toUInt32.toInt32
  | _ => 0

/-- The machine about to call the entry, or why the entry cannot be called. -/
def entry (s : Sandbox) (memory : Memory) : Except Failure Wasm.Machine :=
  match s.program.exported? s.context.entry, s.program.exportedType? s.context.entry with
  | some index, some type =>
    match refusal? s.context type with
    | some e => .error e
    | none =>
      let arguments := (entryArguments s.context).map fun n => Wasm.Value.i32 n.toUInt32
      .ok (.start s.program memory index arguments)
  | _, _ => .error (.missingEntry s.context.guest s.context.entry)

/-- The entry called. A refusal is no ending of the run, since the entry has not been called. -/
def callEntry (invoke : Invoke) (s : Sandbox) (fuel : Nat) : Running (Except Failure Int32) := do
  let rest ← instantiate invoke s fuel
  match s.entry rest.memory with
  | .error e => return .error e
  | .ok machine =>
    let rest ← drive invoke s rest.fuel machine
    return .ok (report rest.results)

/-- What comes of a context whose run was ended by an error. -/
def ended (context : Context) : CallError → Except Failure Context
  | .exit code => .ok (context.exited code)
  | .fatal (.failure (.unimplemented module name)) => .error (.unimplemented module name)
  | .fatal cause => .error (.trap context.guest context.entry cause)
  | error => .error (.trap context.guest context.entry (.told error.message))

/-- What is around a run at its start. -/
def surroundings (s : Sandbox) (world : World) : Surroundings :=
  ⟨s.process.start, world, initialMemory s.program (s.program.shown?.getD 0)⟩

/-- A sandbox run to its end: the context with what came of it. -/
def run (invoke : Invoke) (limit : Option Nat) (s : Sandbox) : Setup Context := do
  let world ← get
  let (outcome, around) :=
    (callEntry invoke s (limit.getD unlimited)).run (s.surroundings world)
  set around.world
  Setup.ofExcept <|
    match outcome with
    | .ok (.ok result) => .ok (s.context.returned result)
    | .ok (.error e) => .error e
    | .error e => ended s.context e

end Sandbox

end GuestHost
