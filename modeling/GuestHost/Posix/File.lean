import GuestHost.World
/-!
# Reading and writing files

Operations on files return the file and the world as they are afterwards. The content of an input
or of a remote file is taken by the first reading that succeeds in getting it; from then on every
reading gives the bytes that follow those before.
-/

namespace GuestHost

namespace Posix

/-- Why an operation on a file failed. -/
inductive FileError where
  | notReadable
  | notWritable
  | exchange (error : Exchange.Error)
  | fetch
  deriving DecidableEq

/-- The words for an error. -/
def FileError.message : FileError → String
  | notReadable => "file is not readable"
  | notWritable => "file is not writable"
  | exchange error => error.message
  | fetch => "fetch failed"

/-- Whether a character is white space at the end of a line of text. -/
def isSpace (c : Char) : Bool :=
  let n := c.toNat
  (9 ≤ n && n ≤ 13) || n == 32 || n == 0x85 || n == 0xa0 || n == 0x1680 ||
    (0x2000 ≤ n && n ≤ 0x200a) || n == 0x2028 || n == 0x2029 || n == 0x202f || n == 0x205f ||
    n == 0x3000

/-- A text without the white space at its end. -/
def trimEnd (text : String) : String :=
  String.ofList (text.toList.reverse.dropWhile isSpace).reverse

/-- Bytes that are to be written, with their number and with what the log is told of them. Both are
worked out once, however often the bytes are written. -/
structure Passage where
  bytes : Bytes
  length : Nat
  told : Thunk String
  length_eq : length = bytes.length
  told_eq : told.get = trimEnd (Utf8.lossy bytes)

/-- The passage of bytes. -/
def Passage.of (bytes : Bytes) : Passage :=
  ⟨bytes, bytes.length, .mk fun _ => trimEnd (Utf8.lossy bytes), rfl, rfl⟩

namespace File

/-- The bytes that follow a position, as many as there are up to `length`. -/
def next (content : Bytes) (position length : Nat) : Bytes := (content.drop position).take length

/-- Up to `length` bytes read. -/
def read (length : Nat) (w : World) : File → Except FileError Bytes × File × World
  | .input place (some content) position =>
    let bytes := next content position length
    (.ok bytes, .input place (some content) (position + bytes.length), w)
  | .input place none position =>
    match w.useAt place Exchange.Buffer.read with
    | (.error e, w) => (.error (.exchange e), .input place none position, w)
    | (.ok content, w) =>
      let bytes := next content position length
      (.ok bytes, .input place (some content) (position + bytes.length), w)
  | .remote url (some content) position =>
    let bytes := next content position length
    (.ok bytes, .remote url (some content) (position + bytes.length), w)
  | .remote url none position =>
    match w.fetch url with
    | (none, w) => (.error .fetch, .remote url none position, w)
    | (some content, w) =>
      let bytes := next content position length
      (.ok bytes, .remote url (some content) (position + bytes.length), w)
  | file => (.error .notReadable, file, w)

/-- Bytes written, and their number. -/
def write (content : Bytes) (w : World) : File → Except FileError Nat × World
  | .standardError => (.ok content.length, w.note (.guest (trimEnd (Utf8.lossy content))))
  | .output place =>
    match w.useAt place (Exchange.Buffer.write content) with
    | (.ok n, w) => (.ok n, w)
    | (.error e, w) => (.error (.exchange e), w)
  | _ => (.error .notWritable, w)

/-- A passage written, and the number of its bytes. -/
def writePassage (passage : Passage) (w : World) : File → Except FileError Nat × World
  | .standardError => (.ok passage.length, w.note (.guest passage.told.get))
  | file => file.write passage.bytes w

/-- The file closed, which matters to the buffer of an output only. -/
def close (w : World) : File → Except FileError Unit × World
  | .output place =>
    match w.useAt place Exchange.Buffer.close with
    | (.ok (), w) => (.ok (), w)
    | (.error e, w) => (.error (.exchange e), w)
  | _ => (.ok (), w)

end File

end Posix

end GuestHost
