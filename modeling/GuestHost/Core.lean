import GuestHost.Bytes.Base64
import GuestHost.Bytes.Pairs
import GuestHost.Provider
/-!
# The core functions

The functions that every host offers to its guests: exchange buffers, text in base64, blobs,
persistence, the web, the log, the time, the state of the host, and calls of other guests. A
result that is no number comes in a new exchange buffer, which the guest reads and frees.
-/

namespace GuestHost

namespace Core

/-- The name of the module that the core functions are imported from. -/
def module : String := "core"

/-- The handle of the input buffer. -/
def inputBuffer : Call UInt32 := do return Call.handle (← Call.invocation).input

/-- The handle of the output buffer. -/
def outputBuffer : Call UInt32 := do return Call.handle (← Call.invocation).output

/-- A new empty buffer. -/
def createBuffer : Call UInt32 := Call.reply []

/-- A buffer freed. -/
def freeBuffer : Call UInt32 := do
  let handle ← Call.word 0
  let (released, world) := (← Call.world).release handle
  Call.setWorld world
  if released then return 0
  else Call.refuse (.exchange (.unknownHandle handle))

/-- Bytes written to a buffer. -/
def writeBuffer : Call UInt32 := do
  let handle ← Call.word 0
  let bytes ← Call.bytes 1 2
  return Call.handle (← Call.use handle (Exchange.Buffer.write bytes))

/-- A header of a buffer set. -/
def writeHeader : Call UInt32 := do
  let handle ← Call.word 0
  let name ← Call.text 1 2
  let value ← Call.text 3 4
  Call.use handle (Exchange.Buffer.setHeader name value)
  return 0

/-- The status code of a buffer set. It has to be a 16-bit word. -/
def writeStatusCode : Call UInt32 := do
  let handle ← Call.word 0
  let status ← Call.word 1
  if 65535 < status then Call.refuse .range
  Call.use handle (Exchange.Buffer.writeStatusCode status)
  return 0

/-- The size of a buffer's content, which is read to learn it. -/
def bufferSize : Call UInt32 := do
  let handle ← Call.word 0
  return Call.handle (← Call.use handle Exchange.Buffer.read).length

/-- The content of a buffer read into the guest's memory, if the room for it suffices. The answer
is its size either way. -/
def readBuffer : Call UInt32 := do
  let handle ← Call.word 0
  let address ← Call.word 1
  let room ← Call.word 2
  let content ← Call.use handle Exchange.Buffer.read
  if content.length ≤ room then Call.write address content
  return Call.handle content.length

/-- The headers of a buffer as pairs. -/
def readHeaders : Call UInt32 := do
  let handle ← Call.word 0
  let headers ← Call.use handle fun buffer => (buffer.headers, buffer)
  Call.reply (Pairs.encode (headers.map fun (name, value) => (Utf8.encode name, Utf8.encode value)))

/-- Bytes encoded in base64. -/
def encodeBase64 : Call UInt32 := do Call.reply (Base64.encode (← Call.bytes 0 1))

/-- Bytes decoded from base64. -/
def decodeBase64 : Call UInt32 := do
  match Base64.decode? (← Call.bytes 0 1) with
  | some bytes => Call.reply bytes
  | none => Call.refuse .base64

/-- Bytes registered as a blob; the answer is the content id. -/
def registerBlob : Call UInt32 := do
  let contentType ← Call.text 0 1
  let bytes ← Call.bytes 2 3
  Call.reply (Utf8.encode (← Call.access (Store.Blob.register contentType bytes)))

/-- Bytes registered as a blob with a name; the answer is the content id. -/
def registerNamedBlob : Call UInt32 := do
  let name ← Call.text 0 1
  let contentType ← Call.text 2 3
  let bytes ← Call.bytes 4 5
  Call.reply (Utf8.encode (← Call.access (Store.Blob.registerNamed name contentType bytes)))

/-- The content id that a name points at. -/
def blobOfName : Call UInt32 := do
  let name ← Call.text 0 1
  Call.reply (Utf8.encode (← Call.look fun shelf => Store.Blob.resolveAlias shelf name))

/-- The bytes of the blob that a reference stands for. -/
def blobBytes : Call UInt32 := do
  let reference ← Call.text 0 1
  let id ← Call.look fun shelf => Store.Blob.resolve shelf reference
  Call.reply (← Call.look fun shelf => Store.Blob.bytesOf shelf id)

/-- A value persisted under a key. -/
def persist : Call UInt32 := do
  let key ← Call.bytes 0 1
  let value ← Call.bytes 2 3
  Call.access fun shelf =>
    match Store.Persistence.set shelf key value with
    | .ok shelf => (.ok (), shelf)
    | .error e => (.error e, shelf)
  return 0

/-- The value persisted under a key. -/
def persisted : Call UInt32 := do
  let key ← Call.bytes 0 1
  match ← Call.look fun shelf => Store.Persistence.get shelf key with
  | some value => Call.reply value
  | none => Call.refuse (.noValue key)

/-- The keys with a given start and their values as pairs. -/
def persistedPairs : Call UInt32 := do
  let start ← Call.bytes 0 1
  Call.reply (Pairs.encode (← Call.look fun shelf => Store.Persistence.subset shelf start))

/-- The page at an address. -/
def fetch : Call UInt32 := do
  let address ← Call.text 0 1
  match (← Call.world).web.target? address with
  | none => Call.refuse .fetch
  | some url =>
    let (body, world) := (← Call.world).fetch url
    Call.setWorld world
    match body with
    | some body => Call.reply body
    | none => Call.refuse .fetch

/-- Text for the log. -/
def printDebug : Call UInt32 := do
  Call.hear (← Call.bytes 0 1)
  return 0

/-- The time, written to the guest's memory. -/
def time : Call UInt32 := do
  let address ← Call.word 0
  let room ← Call.word 1
  if room < 8 then Call.refuse .shortClock
  Call.store 8 address (← Call.world).clock
  return 0

/-- The state of the host as a JSON document: the blobs that have names, and how much the registry
of exchange buffers has been used before the answer takes a buffer of its own. -/
def statusText (stats : Exchange.Stats) (names : List (String × Store.ContentId)) : Bytes :=
  Json.braced
    [("blobs", Json.braced ((Table.ofList names).entries.map fun (name, id) =>
        (name, Json.quoted id))),
      ("exchange_buffers", Json.braced
        [("created", Json.decimal stats.created),
          ("live", Json.decimal stats.live),
          ("released", Json.decimal stats.released)])]

/-- The state of the host. -/
def status : Call UInt32 := do
  let stats := (← Call.world).registry.stats
  Call.reply (statusText stats (← Call.look Store.Blob.names))

/-- The core functions that a host call carries out: their names, the numbers of their arguments,
and what they do. -/
def calls : List (String × Nat × Call UInt32) :=
  [("get_input_buffer_id", 0, inputBuffer),
    ("get_output_buffer_id", 0, outputBuffer),
    ("create_exchange_buffer", 0, createBuffer),
    ("free_buffer", 1, freeBuffer),
    ("write_exchange_buffer", 3, writeBuffer),
    ("write_exchange_buffer_header", 5, writeHeader),
    ("write_exchange_buffer_status_code", 2, writeStatusCode),
    ("get_exchange_buffer_size", 1, bufferSize),
    ("read_exchange_buffer", 3, readBuffer),
    ("read_exchange_buffer_headers", 1, readHeaders),
    ("base64_encode", 2, encodeBase64),
    ("base64_decode", 2, decodeBase64),
    ("register_blob", 4, registerBlob),
    ("register_blob_with_name", 6, registerNamedBlob),
    ("get_blob_tech_id_from_name", 2, blobOfName),
    ("get_blob_bytes_as_string", 2, blobBytes),
    ("persistence_set", 4, persist),
    ("persistence_get", 2, persisted),
    ("persistence_get_subset", 2, persistedPairs),
    ("get_url", 2, fetch),
    ("print_debug", 2, printDebug),
    ("get_time", 2, time),
    ("get_status", 0, status)]

/-- What serves the imports of the module. -/
def provider : Provider :=
  ⟨.ofList (calls.map (fun call => .typed call.1 (.i32s call.2.1) (.native call.2.2)) ++
    [.typed "call_function" (.i32s 10) .callFunction])⟩

end Core

end GuestHost
