import GuestHost.Exchange.Error
import GuestHost.Exchange.Header
import GuestHost.Exchange.Target
/-!
# Exchange buffers

The four kinds of buffer that hosts and guests pass data through. An operation on a buffer is a
function of the buffer: it returns its outcome together with the buffer as it is afterwards, and
an operation that a kind does not support changes nothing.

* a memory buffer keeps everything written to it and gives it all back at every read;
* a request buffer gives its body to the first reader and takes no writes;
* a response buffer takes headers, a status and a body and gives only its headers back;
* a socket buffer reads one message of its peer at a time and writes one message.
-/

namespace GuestHost

namespace Exchange

/-- Content that lives in the host. -/
structure MemoryBuffer where
  headers : Headers
  content : Bytes
  status : Nat

/-- A body that has yet to be read: its bytes, and whether reading breaks off behind them. -/
structure Body where
  content : Bytes
  breaks : Bool

/-- An inbound request. The body is gone once somebody has tried to read it. -/
structure RequestBuffer where
  headers : Headers
  body : Option Body

/-- An outbound response, as far as it has been put together. -/
structure ResponseBuffer where
  headers : Table String Bytes
  status : Nat
  content : Bytes

/-- The number of headers that leaves a response no room for setting one, be it new or not. -/
def ResponseBuffer.capacity : Nat := 24576

/-- How the bytes of a message are meant. -/
inductive MessageKind where
  | text
  | binary
  deriving DecidableEq

/-- One frame on a socket. -/
inductive Message where
  | data (kind : MessageKind) (content : Bytes)
  | close
  deriving DecidableEq

/-- A message socket: what the peer has sent and nobody has read, what has been sent to the peer,
whether the peer is there, and the kind of the latest data read. -/
structure SocketBuffer where
  headers : Headers
  inbound : List Message
  outbound : List Message
  peer : Bool
  kind : MessageKind

/-- A buffer of any kind. -/
inductive Buffer where
  | memory (buffer : MemoryBuffer)
  | request (buffer : RequestBuffer)
  | response (buffer : ResponseBuffer)
  | socket (buffer : SocketBuffer)

/-- A memory buffer with content and nothing else. -/
def MemoryBuffer.ofContent (content : Bytes) : MemoryBuffer := ⟨.empty, content, 200⟩

/-- A response of which nothing has been said. -/
def ResponseBuffer.blank : ResponseBuffer := ⟨.empty, 200, []⟩

/-- The text headers that a list of raw headers gives: of several values of one name the first
counts, and it gives no header if it is no text. -/
def Headers.ofRequest (raw : List (String × Bytes)) : Headers :=
  raw.reverse.foldl (fun headers h =>
    match Header.text? h.2 with
    | some value => headers.insert (Header.fold h.1) value
    | none => headers.erase (Header.fold h.1)) .empty

/-- The headers that a list gives: of several values of one name the last counts. -/
def Headers.ofPairs (pairs : List (String × String)) : Headers :=
  Table.ofList (pairs.map fun h => (Header.fold h.1, h.2))

/-- A socket whose peer is there and has sent nothing. -/
def SocketBuffer.connected (headers : List (String × String)) : SocketBuffer :=
  ⟨.ofPairs headers, [], [], true, .text⟩

namespace Buffer

/-- The kind of a buffer. -/
def kind : Buffer → Kind
  | memory _ => .memory
  | request _ => .request
  | response _ => .response
  | socket _ => .socket

/-- The refusal of an operation. -/
def refuse {α : Type} (b : Buffer) (operation : Operation) : Except Error α :=
  .error (.unsupported b.kind operation)

/-- The value of a header. A response's header reads only if its value is text. -/
def header (name : String) : Buffer → Option String
  | memory b => b.headers.find? name
  | request b => b.headers.find? (Header.fold name)
  | response b => (b.headers.find? (Header.fold name)).bind Header.text?
  | socket b => b.headers.find? (Header.fold name)

/-- A header set to a value. A response accepts proper names and values only, and panics if it has
no room. -/
def setHeader (name value : String) : Buffer → Except Error Unit × Buffer
  | memory b => (.ok (), memory { b with headers := b.headers.insert name value })
  | request b => (.ok (), request { b with headers := b.headers.insert (Header.fold name) value })
  | response b =>
    if !Header.isName (Utf8.encode name) then (.error (.io .headerName), response b)
    else if !Header.isValue (Utf8.encode value) then (.error (.io .headerValue), response b)
    else if b.headers.size < ResponseBuffer.capacity then
      (.ok (), response
        { b with headers := b.headers.insert (Header.fold name) (Utf8.encode value) })
    else (.error .overfull, response b)
  | socket b => (.ok (), socket { b with headers := b.headers.insert (Header.fold name) value })

/-- The number of headers. -/
def headersCount : Buffer → Except Error Nat
  | memory b => .ok b.headers.size
  | request b => .ok b.headers.size
  | response b => (response b).refuse .headersCount
  | socket b => .ok b.headers.size

/-- The headers in the order of their names. -/
def headers : Buffer → Except Error (List (String × String))
  | memory b => .ok b.headers.entries
  | request b => .ok b.headers.entries
  | response b => (response b).refuse .headers
  | socket b => .ok b.headers.entries

/-- The status code. A socket's is always that of a switch of protocols. -/
def statusCode : Buffer → Except Error Nat
  | memory b => .ok b.status
  | request b => (request b).refuse .statusCode
  | response b => (response b).refuse .statusCode
  | socket _ => .ok 101

/-- The status code set. A response accepts three-digit codes only. -/
def writeStatusCode (status : Nat) : Buffer → Except Error Unit × Buffer
  | memory b => (.ok (), memory { b with status := status })
  | request b => ((request b).refuse .writeStatusCode, request b)
  | response b =>
    if 100 ≤ status ∧ status ≤ 999 then (.ok (), response { b with status := status })
    else (.error (.invalidStatus status), response b)
  | socket b => ((socket b).refuse .writeStatusCode, socket b)

/-- The content: all of a memory buffer, the body of a request at its first reading, the next
message of a socket. -/
def read : Buffer → Except Error Bytes × Buffer
  | memory b => (.ok b.content, memory b)
  | request b =>
    match b.body with
    | none => (.ok [], request b)
    | some body =>
      (if body.breaks then .error (.io .body) else .ok body.content,
        request { b with body := none })
  | response b => ((response b).refuse .buffer, response b)
  | socket b =>
    match b.inbound with
    | [] => (.ok [], socket b)
    | .close :: rest => (.ok [], socket { b with inbound := rest })
    | .data kind content :: rest => (.ok content, socket { b with inbound := rest, kind := kind })

/-- Bytes written, and their number. A socket sends them in the kind of the latest data read. -/
def write (content : Bytes) : Buffer → Except Error Nat × Buffer
  | memory b => (.ok content.length, memory { b with content := b.content ++ content })
  | request b => ((request b).refuse .write, request b)
  | response b => (.ok content.length, response { b with content := b.content ++ content })
  | socket b =>
    if b.peer then
      (.ok content.length, socket { b with outbound := b.outbound ++ [.data b.kind content] })
    else (.error .closed, socket b)

/-- The buffer closed, which matters to the peer of a socket only. -/
def close : Buffer → Except Error Unit × Buffer
  | socket b =>
    if b.peer then (.ok (), socket { b with outbound := b.outbound ++ [.close] })
    else (.error .closed, socket b)
  | b => (.ok (), b)

/-- A message that the peer sends. -/
def peerSend (message : Message) : Buffer → Buffer
  | socket b => socket { b with inbound := b.inbound ++ [message] }
  | b => b

/-- The oldest message that the peer has not received, if there is one. -/
def peerReceive : Buffer → Option Message × Buffer
  | socket b => (b.outbound.head?, socket { b with outbound := b.outbound.tail })
  | b => (none, b)

/-- The peer leaves. -/
def peerLeave : Buffer → Buffer
  | socket b => socket { b with peer := false }
  | b => b

end Buffer

/-- A request as it arrives. -/
structure Request where
  method : String
  path : String
  buffer : RequestBuffer

/-- A request made of its parts; there is none if the method, the target or a header is
malformed. -/
def Request.ofParts? (method target : String) (headers : List (Bytes × Bytes)) (body : Body) :
    Option Request := do
  let path ← (Target.path? (Utf8.encode target)).bind Utf8.decode?
  if !Header.isToken (Utf8.encode method) then none
  if !headers.all (fun h => Header.isName h.1 && Header.isValue h.2) then none
  let raw ← headers.mapM fun h => (Utf8.decode? h.1).map (·, h.2)
  return ⟨method, path, ⟨.ofRequest raw, some body⟩⟩

end Exchange

end GuestHost
