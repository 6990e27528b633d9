import GuestHost.Context
import GuestHost.Exchange.Registry
import GuestHost.Web.Url
/-!
# Processes

What a POSIX guest has of a process: the words of its command line and its open files. A process
serves one run. It is bound when the guest's imports are, runs with the guest, and has exited once
the guest asked to.
-/

namespace GuestHost

namespace Posix

/-- A file that a guest can have open.

* standard error hands what is written to it to the log;
* an input takes the content of an exchange buffer at its first reading and gives it out bit by
  bit;
* an output appends to an exchange buffer;
* a remote file is fetched from the web at its first reading. -/
inductive File where
  | standardError
  | input (place : Exchange.Place) (content : Option Bytes) (position : Nat)
  | output (place : Exchange.Place)
  | remote (url : Url) (content : Option Bytes) (position : Nat)

/-- An input of which nothing has been read. -/
def File.inputOf (place : Exchange.Place) : File := .input place none 0

/-- A remote file of which nothing has been read. -/
def File.remoteAt (url : Url) : File := .remote url none 0

/-- The exchange buffer that a file holds on to. -/
def File.place? : File → Option Exchange.Place
  | .input place _ _ => some place
  | .output place => some place
  | _ => none

/-- How far a process has come. -/
inductive Stage where
  | unbound
  | bound
  | running
  | exited (code : Int32)
  deriving DecidableEq

/-- The name of a stage. -/
def Stage.text : Stage → String
  | unbound => "unbound"
  | bound => "bound"
  | running => "running"
  | exited code => "exited " ++ toString code.toInt

/-- A process. Descriptors that are opened during the run are numbered on from `next`. -/
structure Process where
  stage : Stage
  arguments : List String
  files : Table Nat File
  next : Nat

/-- The first descriptor that a guest opens by itself. -/
def firstOpened : Nat := 42

namespace Process

/-- The process of a guest that is no POSIX guest. -/
def unbound : Process := ⟨.unbound, [], .empty, firstOpened⟩

/-- The file of a descriptor. -/
def file? (p : Process) (descriptor : Nat) : Option File := p.files.find? descriptor

/-- Whether a descriptor is open. -/
def isOpen (p : Process) (descriptor : Nat) : Bool := p.files.contains descriptor

/-- The process without a descriptor. -/
def close (p : Process) (descriptor : Nat) : Process :=
  { p with files := p.files.erase descriptor }

/-- The process with a descriptor that stands for a file. -/
def withFile (p : Process) (descriptor : Nat) (file : File) : Process :=
  { p with files := p.files.insert descriptor file }

/-- A file opened under the next descriptor, in place of what that may stand for. Descriptors are
32-bit words, and zero comes behind the greatest. -/
def openFile (p : Process) (file : File) : Nat × Process :=
  (p.next, { p.withFile p.next file with next := (p.next + 1) % Nat.pow 2 32 })

/-- The run begins. -/
def start (p : Process) : Process :=
  match p.stage with
  | .bound => { p with stage := .running }
  | _ => p

/-- The guest exits. -/
def exit (p : Process) (code : Int32) : Process := { p with stage := .exited code }

/-- The process bound for an invocation: its command line, and the standard descriptors as far as
the buffers they stand for are live. -/
def bind (p : Process) (registry : Exchange.Registry) (invocation : Invocation)
    (arguments : List String) : Process :=
  let p := { p with stage := .bound, arguments := arguments }
  let p := match registry.place? invocation.input with
    | some place => p.withFile 0 (.inputOf place)
    | none => p
  let p := match registry.place? invocation.output with
    | some place => p.withFile 1 (.output place)
    | none => p
  p.withFile 2 .standardError

end Process

end Posix

end GuestHost
