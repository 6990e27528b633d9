import GuestHost.Posix.File
import GuestHost.Provider
/-!
# System calls

What a POSIX guest can ask of its process: its command line, its environment (which is empty), its
files, and its end. A system call answers with an error number. An access past the end of the
guest's memory and any other failure that a guest survives are error numbers too, so the only
system call that ends a guest is the one that is there to end it.

Guest addresses that are computed stop at the greatest word (`satAdd`), where no memory holds a
word.
-/

namespace GuestHost

namespace Posix

/-- The error numbers that system calls answer with. -/
inductive Errno where
  | success
  | badDescriptor
  | fault
  | io
  deriving DecidableEq

/-- The number of an error. -/
def Errno.code : Errno → UInt32
  | success => 0
  | badDescriptor => 8
  | fault => 21
  | io => 29

/-- The error number for an operation on a file that failed. -/
def FileError.errno : FileError → Errno
  | notReadable => .badDescriptor
  | notWritable => .badDescriptor
  | exchange _ => .io
  | fetch => .io

/-- The directories that are open from the start. They have descriptors, but no files. -/
def directories : List (Nat × String) := [(3, "./"), (4, "../")]

namespace Syscall

/-- A system call as it answers its guest. -/
def answered (call : Call Errno) : Call UInt32 :=
  tryCatch (do return (← call).code) fun
    | .outOfBounds _ => return Errno.fault.code
    | .recoverable _ => return Errno.badDescriptor.code
    | error => throw error

/-- The bytes that arguments take with a NUL behind each. -/
def argumentsSize : List String → Nat
  | [] => 0
  | text :: rest => text.utf8ByteSize + 1 + argumentsSize rest

/-- The number of arguments of the command line, and the bytes that they take with a NUL behind
each. -/
def argumentsSizes : Call Errno := do
  let count ← Call.word 0
  let size ← Call.word 1
  let arguments := (← Call.process).arguments
  Call.store 4 count arguments.length
  Call.store 4 size (argumentsSize arguments)
  return .success

/-- Where a table has the address of the argument of an index. The distance from the table is a
word, and wraps. -/
def slot (table index : Nat) : Nat := satAdd table (4 * index % Nat.pow 2 32)

/-- Arguments written from `offset` on with a NUL behind each, and their addresses to a table from
`index` on. -/
def storeArguments (table : Nat) : List String → Nat → Nat → Call Unit
  | [], _, _ => return ()
  | text :: rest, index, offset => do
    let bytes := Utf8.encode text
    Call.store 4 (slot table index) offset
    Call.write offset bytes
    let stop := satAdd offset bytes.length
    Call.store 1 stop 0
    storeArguments table rest (index + 1) (satAdd stop 1)

/-- The arguments of the command line. -/
def arguments : Call Errno := do
  let table ← Call.word 0
  let offset ← Call.word 1
  storeArguments table (← Call.process).arguments 0 offset
  return .success

/-- The size of the environment. -/
def environmentSizes : Call Errno := do
  let count ← Call.word 0
  let size ← Call.word 1
  Call.store 4 count 0
  Call.store 4 size 0
  return .success

/-- The environment. -/
def environment : Call Errno := return .success

/-- What a directory that is open from the start is. -/
def directoryGet : Call Errno := do
  let descriptor ← Call.word 0
  let result ← Call.word 1
  match directories.lookup descriptor with
  | none => return .badDescriptor
  | some name =>
    Call.store 4 result 0
    Call.store 4 (satAdd result 4) name.utf8ByteSize
    return .success

/-- The name of a directory that is open from the start, cut to the length asked for. -/
def directoryName : Call Errno := do
  let descriptor ← Call.word 0
  let result ← Call.word 1
  let length ← Call.word 2
  match directories.lookup descriptor with
  | none => return .badDescriptor
  | some name =>
    Call.write result ((Utf8.encode name).take length)
    return .success

/-- The kind of file that a descriptor is taken for: a character device, a directory or a regular
file. -/
def fileKind (descriptor : Nat) : Nat :=
  if descriptor ≤ 2 then 2 else if (directories.lookup descriptor).isSome then 3 else 4

/-- All rights. -/
def allRights : Nat := 0xfffffffffff

/-- The status of a descriptor. -/
def descriptorStatus : Call Errno := do
  let descriptor ← Call.word 0
  let result ← Call.word 1
  Call.fill result 24 0
  Call.store 1 result (fileKind descriptor)
  Call.store 2 (satAdd result 2) 0
  Call.store 8 (satAdd result 8) allRights
  Call.store 8 (satAdd result 16) allRights
  return .success

/-- The status of a path, which is the same for all of them. -/
def pathStatus : Call Errno := do
  let _ ← Call.bytes 2 3
  let result ← Call.word 4
  Call.fill result 64 0
  Call.store 8 (satAdd result 32) 30
  return .success

/-- The address and the length that a table of vectors gives at an index. -/
def vector (table index : Nat) : Call (Nat × Nat) := do
  let place := satAdd table (satMul index 8)
  let address ← Call.load place
  let length ← Call.load (satAdd place 4)
  return (address, length)

/-- Bytes written to a file. -/
def writeFile (file : File) (bytes : Bytes) : Call (Except FileError Nat) := do
  let (outcome, world) := file.write bytes (← Call.world)
  Call.setWorld world
  return outcome

/-- Up to `length` bytes read from the file of a descriptor. -/
def readFile (descriptor : Nat) (file : File) (length : Nat) : Call (Except FileError Bytes) := do
  let (outcome, file, world) := file.read length (← Call.world)
  Call.setProcess ((← Call.process).withFile descriptor file)
  Call.setWorld world
  return outcome

/-- `left` vectors written from `index` on, where `written` bytes have been written before: the
number of bytes written altogether, or the error that stopped the writing. -/
def writeVectors (descriptor table : Nat) : Nat → Nat → Nat → Call (Except Errno Nat)
  | 0, _, written => return .ok written
  | left + 1, index, written => do
    let (address, length) ← vector table index
    let bytes ← Call.slice address length
    if descriptor = 1 ∧ (← Call.invocation).trace then Call.hear bytes
    match (← Call.process).file? descriptor with
    | none => return .error .badDescriptor
    | some file =>
      match ← writeFile file bytes with
      | .error e => return .error e.errno
      | .ok n => writeVectors descriptor table left (index + 1) (written + n)

/-- The passage of a vector: the one at hand if it is of that vector, else what memory has. -/
def passage (hand : Option ((Nat × Nat) × Passage)) (vector : Nat × Nat) : Call Passage :=
  match hand.filter (·.1 = vector) with
  | some (_, passage) => return passage
  | none => return .of (← Call.slice vector.1 vector.2)

/-- A passage written to a file. -/
def writePassage (file : File) (passage : Passage) : Call (Except FileError Nat) := do
  let (outcome, world) := file.writePassage passage (← Call.world)
  Call.setWorld world
  return outcome

/-- What `writeVectors` does, with the vector before at hand: a table may name one range over and
over and have more bytes written than memory has, and the range is read once. -/
def writePassages (descriptor table : Nat) :
    Nat → Nat → Nat → Option ((Nat × Nat) × Passage) → Call (Except Errno Nat)
  | 0, _, written, _ => return .ok written
  | left + 1, index, written, hand => do
    let vector ← vector table index
    let passage ← passage hand vector
    if descriptor = 1 ∧ (← Call.invocation).trace then Call.hear passage.bytes
    match (← Call.process).file? descriptor with
    | none => return .error .badDescriptor
    | some file =>
      match ← writePassage file passage with
      | .error e => return .error e.errno
      | .ok n => writePassages descriptor table left (index + 1) (written + n) (vector, passage)

/-- Vectors of bytes written to a descriptor. The number of bytes written is stored, zero if the
writing stopped. -/
def write : Call Errno := do
  let descriptor ← Call.word 0
  let table ← Call.word 1
  let count ← Call.word 2
  let result ← Call.word 3
  match ← writePassages descriptor table count 0 0 none with
  | .ok written =>
    Call.store 4 result written
    return .success
  | .error errno =>
    Call.store 4 result 0
    return errno

/-- `left` vectors filled from `index` on, where `done` bytes have been read before: the number of
bytes read altogether, or the error that stopped the reading. A vector that the file does not fill
is the last; empty ones are passed over. -/
def readVectors (descriptor table : Nat) : Nat → Nat → Nat → Call (Except Errno Nat)
  | 0, _, done => return .ok done
  | left + 1, index, done => do
    let (address, length) ← vector table index
    if length = 0 then readVectors descriptor table left (index + 1) done
    else
      match (← Call.process).file? descriptor with
      | none => return .error .badDescriptor
      | some file =>
        Call.range address length
        match ← readFile descriptor file length with
        | .error e => return .error e.errno
        | .ok bytes =>
          Call.write address bytes
          if bytes.length < length then return .ok (done + bytes.length)
          else readVectors descriptor table left (index + 1) (done + bytes.length)

/-- Vectors filled with bytes read from a descriptor. The number of bytes read is stored, unless
the reading stopped. -/
def read : Call Errno := do
  let descriptor ← Call.word 0
  let table ← Call.word 1
  let count ← Call.word 2
  let result ← Call.word 3
  match ← readVectors descriptor table count 0 0 with
  | .ok done =>
    Call.store 4 result done
    return .success
  | .error errno => return errno

/-- A position sought; the answer is the very offset that was asked for. -/
def seek : Call Errno := do
  let offset ← Call.wide 1
  let result ← Call.word 3
  Call.store 8 result offset
  return .success

/-- A descriptor closed. It is gone even if its file cannot be closed. -/
def close : Call Errno := do
  let descriptor ← Call.word 0
  let process ← Call.process
  match process.file? descriptor with
  | none => return .badDescriptor
  | some file =>
    Call.setProcess (process.close descriptor)
    let (outcome, world) := file.close (← Call.world)
    Call.setWorld world
    match outcome with
    | .ok () => return .success
    | .error e => return e.errno

/-- The entries of a directory, of which there are none. -/
def readDirectory : Call Errno := do
  let result ← Call.word 4
  Call.store 4 result 0
  return .success

/-- Whether a path is an address on the web. -/
def isRemote (path : String) : Bool := path.startsWith "http://" || path.startsWith "https://"

/-- The file that an option gives, or the error number for a path that stands for no file. -/
def orUnknown : Option File → Except Errno File
  | some file => .ok file
  | none => .error .badDescriptor

/-- The file that a path stands for: a page of the web if there is a client for it, or the input or
the output of the invocation while their buffers are live. -/
def fileOf (w : World) (invocation : Invocation) (path : String) : Except Errno File :=
  if isRemote path then
    match w.web.address? path with
    | some url => if w.web.client then .ok (.remoteAt url) else .error .io
    | none => .error .badDescriptor
  else if path = "api://input" then
    orUnknown ((w.registry.place? invocation.input).map .inputOf)
  else if path = "api://output" then
    orUnknown ((w.registry.place? invocation.output).map .output)
  else .error .badDescriptor

/-- A path opened. The new descriptor is stored, zero if the path cannot be opened. -/
def openPath : Call Errno := do
  let path ← Call.text 2 3
  let result ← Call.word 8
  match fileOf (← Call.world) (← Call.invocation) path with
  | .error errno =>
    Call.store 4 result 0
    return errno
  | .ok file =>
    let (descriptor, process) := (← Call.process).openFile file
    Call.setProcess process
    Call.store 4 result descriptor
    return .success

/-- The guest ends with an exit code. -/
def exit : Call UInt32 := do
  let code ← Call.signed 0
  Call.setProcess ((← Call.process).exit code)
  Call.fail (.exit code)

/-- The system calls with an answer: their names, their signatures and what they do. -/
def calls : List (String × Signature × Call Errno) :=
  [("args_sizes_get", .i32s 2, argumentsSizes),
    ("args_get", .i32s 2, arguments),
    ("environ_sizes_get", .i32s 2, environmentSizes),
    ("environ_get", .i32s 2, environment),
    ("fd_prestat_get", .i32s 2, directoryGet),
    ("fd_prestat_dir_name", .i32s 3, directoryName),
    ("fd_fdstat_get", .i32s 2, descriptorStatus),
    ("path_filestat_get", .i32s 5, pathStatus),
    ("fd_write", .i32s 4, write),
    ("fd_read", .i32s 4, read),
    ("fd_seek", ⟨[.i32, .i64, .i32, .i32], some .i32⟩, seek),
    ("fd_close", .i32s 1, close),
    ("fd_readdir", ⟨[.i32, .i32, .i32, .i64, .i32], some .i32⟩, readDirectory),
    ("path_open", ⟨[.i32, .i32, .i32, .i32, .i32, .i64, .i64, .i32, .i32], some .i32⟩, openPath)]

end Syscall

/-- The names of the modules that system calls are imported from. -/
def modules : List String := ["wasi_unstable", "wasi_snapshot_preview1"]

/-- What serves the imports of such a module. System calls that are not there stop their guest. -/
def provider (importedNames : List String) : Provider :=
  ⟨.ofList
    (Syscall.calls.map (fun call => .typed call.1 call.2.1 (.native (Syscall.answered call.2.2))) ++
      [.typed "proc_exit" ⟨[.i32], none⟩ (.native Syscall.exit)] ++
      (importedNames.filter fun name =>
        name ≠ "proc_exit" && (Syscall.calls.lookup name).isNone).map .unimplemented)⟩

end Posix

end GuestHost
