import GuestHost.Bytes
/-!
# Contexts

A context describes one invocation of a guest and keeps what came of it. A nested context is one
deeper than its parent and carries the chain of aliases from the outermost guest down to its own.
-/

namespace GuestHost

/-- How arguments reach a guest. -/
inductive Mode where
  | direct
  | posix
  deriving DecidableEq

/-- The name of a mode. -/
def Mode.text : Mode → String
  | direct => "direct"
  | posix => "posix"

/-- The mode that a name stands for. -/
def Mode.ofText? (text : String) : Option Mode :=
  if text = "direct" ∨ text = "" then some direct
  else if text = "posix" ∨ text = "wasi" then some posix
  else none

/-- What a guest's host calls can learn about its invocation. -/
structure Invocation where
  /-- The alias of the guest. -/
  guest : String
  entry : String
  mode : Mode
  /-- The handle of the input buffer, or zero. -/
  input : Nat
  /-- The handle of the output buffer, or zero. -/
  output : Nat
  trace : Bool
  depth : Nat
  chain : List String
  deriving DecidableEq

/-- One invocation of a guest. A guest may hand all of its memory over as arguments, so they are
spelled out only where they are asked for. -/
structure Context extends Invocation where
  given : Thunk (List Int32)
  /-- The program name of a POSIX guest, if the host's own is not to be taken. -/
  program : Option String
  programArguments : List String
  /-- What the latest run that ended well returned. -/
  result : Option Int32
  /-- Set if that run ended by an exit. -/
  exitCode : Option Int32

namespace Context

/-- The arguments of the entry. -/
def arguments (c : Context) : List Int32 := c.given.get

/-- Contexts are equal if all that they describe is, the arguments as they are spelled out. -/
theorem eq_iff {c d : Context} :
    (c.toInvocation = d.toInvocation ∧ c.arguments = d.arguments ∧ c.program = d.program ∧
      c.programArguments = d.programArguments ∧ c.result = d.result ∧ c.exitCode = d.exitCode) ↔
    c = d := by
  constructor
  · intro same
    obtain ⟨i, ⟨arguments⟩, program, programArguments, result, code⟩ := c
    obtain ⟨i', ⟨arguments'⟩, program', programArguments', result', code'⟩ := d
    obtain ⟨rfl, spelled, rfl, rfl, rfl, rfl⟩ := same
    have : arguments = arguments' := funext fun _ => spelled
    rw [this]
  · rintro rfl
    exact ⟨rfl, rfl, rfl, rfl, rfl, rfl⟩

instance : DecidableEq Context := fun _ _ => decidable_of_decidable_of_iff eq_iff

/-- A context at the top. -/
def top (guest entry : String) : Context :=
  ⟨⟨guest, entry, .direct, 0, 0, false, 0, [guest]⟩, .pure [], none, [], none, none⟩

/-- A context one deeper than an invocation. -/
def nested (parent : Invocation) (guest entry : String) : Context :=
  { top guest entry with
    trace := parent.trace
    depth := parent.depth + 1
    chain := parent.chain ++ [guest] }

/-- The context with arguments. -/
def withArguments (c : Context) (arguments : List Int32) : Context :=
  { c with given := .pure arguments }

/-- The context with arguments that are spelled out later. -/
def withGiven (c : Context) (given : Thunk (List Int32)) : Context := { c with given := given }

/-- The context with a mode. -/
def withMode (c : Context) (mode : Mode) : Context := { c with mode := mode }

/-- The context with a program name and arguments; an empty name leaves it to the host. -/
def withProgram (c : Context) (program : String) (arguments : List String) : Context :=
  { c with
    program := if program = "" then none else some program
    programArguments := arguments }

/-- The context with buffers. -/
def withBuffers (c : Context) (input output : Nat) : Context :=
  { c with input := input, output := output }

/-- The context, traced or not. -/
def withTrace (c : Context) (trace : Bool) : Context := { c with trace := trace }

/-- The context after its entry has returned. -/
def returned (c : Context) (result : Int32) : Context := { c with result := some result }

/-- The context after its guest has exited. -/
def exited (c : Context) (code : Int32) : Context :=
  { c with exitCode := some code, result := some code }

end Context

end GuestHost
