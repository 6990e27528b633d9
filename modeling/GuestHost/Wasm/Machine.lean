import GuestHost.Memory
import GuestHost.Wasm.Module
/-!
# The machine that runs guests

A machine holds the memory that a guest's code works on and the functions it has called and not
left. One step runs one instruction, or leaves a block or a function. A step ends in one of four
ways: the machine runs on, it calls an imported function and waits for its results, the function
called first has returned, or the guest traps.
-/

namespace GuestHost

namespace Wasm

/-- A block that is being run: the values that a branch to it takes along, the code behind it
(for a loop, the loop once more), and the operands and the code to go on with at its end. -/
structure Label where
  arity : Nat
  target : List Instr
  outer : List Value
  after : List Instr

/-- A function that is being run. -/
structure Frame where
  locals : Array Value
  operands : List Value
  code : List Instr
  labels : List Label
  /-- The number of results. -/
  arity : Nat

/-- A guest that is being run. -/
structure Machine where
  program : Module
  memory : Memory
  frame : Frame
  callers : List Frame

/-- How a step ends. -/
inductive Step where
  | running (machine : Machine)
  | calling (function : Nat) (arguments : List Value) (machine : Machine)
  | finished (results : List Value) (memory : Memory)
  | trapped (trap : Trap)

namespace Binary32

/-- The value of an operation on two words. -/
def eval? (op : Binary32) (a b : UInt32) : Except Trap UInt32 :=
  match op with
  | add => .ok (a + b)
  | sub => .ok (a - b)
  | mul => .ok (a * b)
  | divS =>
    if b = 0 then .error .divisionByZero
    else if a = 0x80000000 ∧ b = 0xffffffff then .error .overflow
    else .ok (a.toInt32 / b.toInt32).toUInt32
  | divU => if b = 0 then .error .divisionByZero else .ok (a / b)
  | remS => if b = 0 then .error .divisionByZero else .ok (a.toInt32 % b.toInt32).toUInt32
  | ltS => .ok (if a.toInt32 < b.toInt32 then 1 else 0)

end Binary32

/-- The value of a comparison. -/
def Compare64.apply (op : Compare64) (a b : UInt64) : UInt32 :=
  match op with
  | ltS => if a.toInt64 < b.toInt64 then 1 else 0
  | gtS => if b.toInt64 < a.toInt64 then 1 else 0

/-- What a load reads at an address. -/
def Load.read? (what : Load) (memory : Memory) (address : Nat) : Option Value :=
  match what with
  | word32 => (memory.readWord 4 address).toOption.map fun n => .i32 (UInt32.ofNat n)
  | byte32 => (memory.readWord 1 address).toOption.map fun n => .i32 (UInt32.ofNat n)
  | word64 => (memory.readWord 8 address).toOption.map fun n => .i64 (UInt64.ofNat n)

/-- The memory after a store at an address. -/
def Store.write? (what : Store) (memory : Memory) (address : Nat) (value : UInt32) :
    Option Memory :=
  match what with
  | word32 => (memory.writeWord 4 address value.toNat).toOption
  | byte32 => (memory.writeWord 1 address value.toNat).toOption

namespace Machine

/-- The machine runs on with the given frame for its current one. -/
def goOn (m : Machine) (frame : Frame) : Step := .running { m with frame := frame }

/-- A branch to a label of the current frame; past the outermost label it leaves the function. -/
def branch (frame : Frame) : Nat → List Label → Option Frame
  | _, [] => none
  | 0, label :: labels =>
    some { frame with
      operands := frame.operands.take label.arity ++ label.outer
      code := label.target
      labels := labels }
  | n + 1, _ :: labels => branch frame n labels

/-- The current function left with the results on top of its operands. -/
def leave (m : Machine) : Step :=
  let results := m.frame.operands.take m.frame.arity
  match m.callers with
  | [] => .finished results.reverse m.memory
  | caller :: callers =>
    .running { m with
      frame := { caller with operands := results ++ caller.operands }
      callers := callers }

/-- The frame of a function that has just been called. -/
def enter (f : Function) (arguments : List Value) : Frame :=
  { locals := (arguments ++ f.locals.map ValType.zero).toArray
    operands := []
    code := f.body
    labels := []
    arity := f.type.results.length }

/-- A call of a function with the arguments on top of the operands. -/
def call (m : Machine) (index : Nat) (frame : Frame) : Step :=
  match m.program.typeOf? index with
  | none => .trapped .unreachable
  | some type =>
    let arguments := (frame.operands.take type.params.length).reverse
    let frame := { frame with operands := frame.operands.drop type.params.length }
    let imported := m.program.importedTypes.length
    if index < imported then .calling index arguments { m with frame := frame }
    else
      match m.program.functions[index - imported]? with
      | none => .trapped .unreachable
      | some f => .running { m with frame := enter f arguments, callers := frame :: m.callers }

/-- The machine runs on with its memory altered, or traps where that passes the memory's end. -/
def alter (m : Machine) (frame : Frame) (change : Memory → Option Memory) : Step :=
  match m with
  | ⟨program, memory, _, callers⟩ =>
    match change memory with
    | some memory => .running ⟨program, memory, frame, callers⟩
    | none => .trapped .outOfBounds

/-- The machine runs on with its memory grown by a number of pages and the size before, in pages,
on top of the operands; or with all ones there, and the memory as it was, if it cannot grow so
far. -/
def grow (m : Machine) (frame : Frame) (pages : Nat) : Step :=
  match m with
  | ⟨program, memory, _, callers⟩ =>
    let before := memory.size / pageSize
    if before + pages ≤ maxPages then
      .running ⟨program, memory.grow (pages * pageSize),
        { frame with operands := .i32 (UInt32.ofNat before) :: frame.operands }, callers⟩
    else
      .running
        ⟨program, memory, { frame with operands := .i32 0xffffffff :: frame.operands }, callers⟩

/-- One instruction run; `rest` is the code behind it. Guests are well typed, so the operands that
an instruction needs are there. -/
def run (m : Machine) (instr : Instr) (rest : List Instr) : Step :=
  let frame := { m.frame with code := rest }
  match instr, frame.operands with
  | .unreachable, _ => .trapped .unreachable
  | .nop, _ => m.goOn frame
  | .drop, _ :: operands => m.goOn { frame with operands := operands }
  | .ret, _ => m.leave
  | .const value, operands => m.goOn { frame with operands := value :: operands }
  | .block arity body, operands =>
    m.goOn { frame with
      operands := []
      code := body
      labels := ⟨arity, rest, operands, rest⟩ :: frame.labels }
  | .loop body, operands =>
    m.goOn { frame with
      operands := []
      code := body
      labels := ⟨0, .loop body :: rest, operands, rest⟩ :: frame.labels }
  | .cond arity yes no, .i32 word :: operands =>
    m.goOn { frame with
      operands := []
      code := if word = 0 then no else yes
      labels := ⟨arity, rest, operands, rest⟩ :: frame.labels }
  | .br n, _ =>
    match branch frame n frame.labels with
    | some frame => m.goOn frame
    | none => m.leave
  | .brIf n, .i32 word :: operands =>
    let frame := { frame with operands := operands }
    if word = 0 then m.goOn frame
    else
      match branch frame n frame.labels with
      | some frame => m.goOn frame
      | none => { m with frame := frame }.leave
  | .call index, _ => m.call index frame
  | .localGet index, operands =>
    match frame.locals[index]? with
    | some value => m.goOn { frame with operands := value :: operands }
    | none => .trapped .unreachable
  | .localSet index, value :: operands =>
    m.goOn { frame with
      locals := frame.locals.setIfInBounds index value
      operands := operands }
  | .eqz32, .i32 word :: operands =>
    m.goOn { frame with operands := .i32 (if word = 0 then 1 else 0) :: operands }
  | .binary32 op, .i32 b :: .i32 a :: operands =>
    match op.eval? a b with
    | .ok word => m.goOn { frame with operands := .i32 word :: operands }
    | .error trap => .trapped trap
  | .compare64 op, .i64 b :: .i64 a :: operands =>
    m.goOn { frame with operands := .i32 (op.apply a b) :: operands }
  | .wrap64, .i64 word :: operands =>
    m.goOn { frame with operands := .i32 word.toUInt32 :: operands }
  | .load what, .i32 address :: operands =>
    match what.read? m.memory address.toNat with
    | some value => m.goOn { frame with operands := value :: operands }
    | none => .trapped .outOfBounds
  | .store what, .i32 value :: .i32 address :: operands =>
    m.alter { frame with operands := operands } fun memory =>
      what.write? memory address.toNat value
  | .memoryGrow, .i32 pages :: operands => m.grow { frame with operands := operands } pages.toNat
  | .memoryFill, .i32 length :: .i32 value :: .i32 address :: operands =>
    m.alter { frame with operands := operands } fun memory =>
      (memory.fill address.toNat length.toNat (UInt8.ofNat value.toNat)).toOption
  | _, _ => .trapped .unreachable

/-- One step. -/
def step (m : Machine) : Step :=
  match m.frame.code with
  | instr :: rest => m.run instr rest
  | [] =>
    match m.frame.labels with
    | label :: labels =>
      m.goOn { m.frame with
        operands := m.frame.operands ++ label.outer
        code := label.after
        labels := labels }
    | [] => m.leave

/-- The machine that waited for the results of a call. -/
def resume (m : Machine) (results : List Value) (memory : Memory) : Machine :=
  { m with
    memory := memory
    frame := { m.frame with operands := results.reverse ++ m.frame.operands } }

/-- A machine about to call a function. -/
def start (program : Module) (memory : Memory) (index : Nat) (arguments : List Value) : Machine :=
  let arity := ((program.typeOf? index).map fun type => type.results.length).getD 0
  ⟨program, memory, ⟨#[], arguments.reverse, [.call index], [], arity⟩, []⟩

end Machine

end Wasm

end GuestHost
