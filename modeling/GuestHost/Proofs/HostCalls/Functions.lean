import GuestHost.Core
import GuestHost.Managed
import GuestHost.Posix.Syscall
import GuestHost.Proofs.HostCalls.Tame
import GuestHost.Proofs.Posix.Passages
/-!
# The functions that hosts offer are tame

Each of the core functions, of the system calls with an answer and of the hooks for managed
runtimes is tame with the signature that it is bound with: `Core.tame_calls`,
`Posix.Syscall.tame_calls`, `Managed.tame_write`. They keep every steady invariant of the world; one
that is calm and not steady is kept by all but the two that write to buffers, `Core.writing` and
`Posix.Syscall.writing`, and the one that sets headers, `Core.heading`. To keep one that is not
roomy as well, a core function must not be among those that make or free buffers, `Core.buffering`.
-/

namespace GuestHost

open Call

variable {I : World → Prop}

/-! ## Plain operations -/

namespace Exchange.Buffer

theorem plain_read : Plain read := fun b => ⟨b, rfl, rfl⟩

theorem plain_close : Plain close := fun b => ⟨b, rfl, rfl⟩

theorem plain_setHeader (name value : String) : Plain (setHeader name value) :=
  fun b => ⟨{ b with headers := b.headers.insert name value }, rfl, rfl⟩

theorem plain_writeStatusCode (status : Nat) : Plain (writeStatusCode status) :=
  fun b => ⟨{ b with status := status }, rfl, rfl⟩

theorem plain_look {α : Type} (look : Buffer → Except Error α) :
    Plain fun buffer => (look buffer, buffer) := fun b => ⟨b, rfl, rfl⟩

/-! ## Safe operations -/

theorem safe_read : Safe read := by
  intro b
  unfold read
  repeat' split
  all_goals exact nofun

theorem safe_close : Safe close := by
  intro b
  unfold close
  repeat' split
  all_goals exact nofun

theorem safe_writeStatusCode (status : Nat) : Safe (writeStatusCode status) := by
  intro b
  unfold writeStatusCode
  repeat' split
  all_goals exact nofun

theorem safe_headers : Safe fun buffer => (headers buffer, buffer) := by
  intro b
  cases b <;> exact nofun

end Exchange.Buffer

open Exchange.Buffer

/-! ## Core functions -/

namespace Core

/-- The core functions that make buffers or free them. -/
def buffering : List String :=
  ["create_exchange_buffer", "free_buffer", "read_exchange_buffer_headers", "base64_encode",
    "base64_decode", "register_blob", "register_blob_with_name", "get_blob_tech_id_from_name",
    "get_blob_bytes_as_string", "persistence_get", "persistence_get_subset", "get_url",
    "get_status"]

/-- The types that a core function of so many arguments is bound with. -/
abbrev words (count : Nat) : List Wasm.ValType := (Signature.i32s count).type.params

theorem tame_inputBuffer : Tame I (words 0) inputBuffer fun _ => True :=
  tame_invocation.bind fun _ _ => tame_pure trivial

theorem tame_outputBuffer : Tame I (words 0) outputBuffer fun _ => True :=
  tame_invocation.bind fun _ _ => tame_pure trivial

theorem tame_freeBuffer (hI : World.Roomy I) : Tame I (words 1) freeBuffer fun _ => True := by
  refine (tame_word 0 rfl).bind fun handle _ => ?_
  refine tame_world.bind fun w hw => ?_
  refine (tame_setWorld (hI.release w handle hw)).bind fun _ _ => ?_
  exact tame_ite (tame_pure trivial) (tame_refuse _)

theorem tame_writeBuffer (hI : World.Writable I) : Tame I (words 3) writeBuffer fun _ => True :=
  (tame_word 0 rfl).bind fun _ _ => (tame_bytes 1 2 rfl rfl).bind fun _ _ =>
    (tame_useWrite hI _ _).bind fun _ _ => tame_pure trivial

theorem tame_writeHeader (hI : World.Headed I) : Tame I (words 5) writeHeader fun _ => True :=
  (tame_word 0 rfl).bind fun _ _ => (tame_text 1 2 rfl rfl).bind fun _ _ =>
    (tame_text 3 4 rfl rfl).bind fun _ _ =>
      (tame_useSetHeader hI _ _ _).bind fun _ _ => tame_pure trivial

theorem tame_writeStatusCode (hI : World.Calm I) :
    Tame I (words 2) writeStatusCode fun _ => True := by
  refine (tame_word 0 rfl).bind fun handle _ => (tame_word 1 rfl).bind fun status _ => ?_
  have write : Tame I (words 2) (do
      Call.use handle (Exchange.Buffer.writeStatusCode status)
      return 0 : Call UInt32) fun _ => True :=
    (tame_usePlain hI _ (plain_writeStatusCode _) (safe_writeStatusCode _)).bind fun _ _ =>
      tame_pure trivial
  exact tame_ite ((tame_refuse (P := fun _ => True) _).bind fun _ _ => write) write

theorem tame_bufferSize (hI : World.Calm I) : Tame I (words 1) bufferSize fun _ => True :=
  (tame_word 0 rfl).bind fun _ _ => (tame_usePlain hI _ plain_read safe_read).bind fun _ _ =>
    tame_pure trivial

theorem tame_readBuffer (hI : World.Calm I) : Tame I (words 3) readBuffer fun _ => True := by
  refine (tame_word 0 rfl).bind fun handle _ => (tame_word 1 rfl).bind fun address _ => ?_
  refine (tame_word 2 rfl).bind fun room _ => ?_
  refine (tame_usePlain hI _ plain_read safe_read).bind fun content _ => ?_
  exact tame_ite ((tame_write _ _).bind fun _ _ => tame_pure trivial) (tame_pure trivial)

theorem tame_readHeaders (hI : World.Calm I) (roomy : World.Roomy I) :
    Tame I (words 1) readHeaders fun _ => True :=
  (tame_word 0 rfl).bind fun _ _ => (tame_usePlain hI _ (plain_look _) safe_headers).bind fun _ _ =>
    tame_reply roomy _

theorem tame_encodeBase64 (roomy : World.Roomy I) :
    Tame I (words 2) encodeBase64 fun _ => True :=
  (tame_bytes 0 1 rfl rfl).bind fun _ _ => tame_reply roomy _

theorem tame_decodeBase64 (roomy : World.Roomy I) :
    Tame I (words 2) decodeBase64 fun _ => True := by
  refine (tame_bytes 0 1 rfl rfl).bind fun bytes _ => ?_
  cases Base64.decode? bytes with
  | some bytes => exact tame_reply roomy bytes
  | none => exact tame_refuse _

theorem tame_registerBlob (hI : World.Calm I) (roomy : World.Roomy I) :
    Tame I (words 4) registerBlob fun _ => True :=
  (tame_text 0 1 rfl rfl).bind fun _ _ => (tame_bytes 2 3 rfl rfl).bind fun _ _ =>
    (tame_access hI _).bind fun _ _ => tame_reply roomy _

theorem tame_registerNamedBlob (hI : World.Calm I) (roomy : World.Roomy I) :
    Tame I (words 6) registerNamedBlob fun _ => True :=
  (tame_text 0 1 rfl rfl).bind fun _ _ => (tame_text 2 3 rfl rfl).bind fun _ _ =>
    (tame_bytes 4 5 rfl rfl).bind fun _ _ => (tame_access hI _).bind fun _ _ =>
      tame_reply roomy _

theorem tame_blobOfName (hI : World.Calm I) (roomy : World.Roomy I) :
    Tame I (words 2) blobOfName fun _ => True :=
  (tame_text 0 1 rfl rfl).bind fun _ _ => (tame_look hI _).bind fun _ _ => tame_reply roomy _

theorem tame_blobBytes (hI : World.Calm I) (roomy : World.Roomy I) :
    Tame I (words 2) blobBytes fun _ => True :=
  (tame_text 0 1 rfl rfl).bind fun _ _ => (tame_look hI _).bind fun _ _ =>
    (tame_look hI _).bind fun _ _ => tame_reply roomy _

theorem tame_persist (hI : World.Calm I) : Tame I (words 4) persist fun _ => True :=
  (tame_bytes 0 1 rfl rfl).bind fun _ _ => (tame_bytes 2 3 rfl rfl).bind fun _ _ =>
    (tame_access hI _).bind fun _ _ => tame_pure trivial

theorem tame_persisted (hI : World.Calm I) (roomy : World.Roomy I) :
    Tame I (words 2) persisted fun _ => True := by
  refine (tame_bytes 0 1 rfl rfl).bind fun key _ => (tame_look hI _).bind fun value _ => ?_
  cases value with
  | some value => exact tame_reply roomy value
  | none => exact tame_refuse _

theorem tame_persistedPairs (hI : World.Calm I) (roomy : World.Roomy I) :
    Tame I (words 2) persistedPairs fun _ => True :=
  (tame_bytes 0 1 rfl rfl).bind fun _ _ => (tame_look hI _).bind fun _ _ => tame_reply roomy _

theorem tame_fetch (hI : World.Calm I) (roomy : World.Roomy I) :
    Tame I (words 2) fetch fun _ => True := by
  refine (tame_text 0 1 rfl rfl).bind fun address _ => tame_world.bind fun w _ => ?_
  cases w.web.target? address with
  | none => exact tame_refuse _
  | some url =>
    refine tame_world.bind fun w hw => (tame_setWorld (hI.fetch url hw)).bind fun _ _ => ?_
    cases w.web.fetch url with
    | some body => exact tame_reply roomy body
    | none => exact tame_refuse _

theorem tame_printDebug (hI : World.Calm I) : Tame I (words 2) printDebug fun _ => True :=
  (tame_bytes 0 1 rfl rfl).bind fun _ _ => (tame_hear hI _).bind fun _ _ => tame_pure trivial

theorem tame_time : Tame I (words 2) time fun _ => True := by
  refine (tame_word 0 rfl).bind fun address _ => (tame_word 1 rfl).bind fun room _ => ?_
  have store : Tame I (words 2) (do
      Call.store 8 address (← Call.world).clock
      return 0 : Call UInt32) fun _ => True :=
    tame_world.bind fun _ _ => (tame_store _ _ _).bind fun _ _ => tame_pure trivial
  exact tame_ite ((tame_refuse (P := fun _ => True) _).bind fun _ _ => store) store

theorem tame_status (hI : World.Calm I) (roomy : World.Roomy I) :
    Tame I (words 0) status fun _ => True :=
  tame_world.bind fun _ _ => (tame_look hI _).bind fun _ _ => tame_reply roomy _

/-- The core function that writes to a buffer. -/
def writing : String := "write_exchange_buffer"

/-- The core function that sets a header of a buffer. -/
def heading : String := "write_exchange_buffer_header"

/-- **Every core function is tame.** What it keeps may be about the content of memory buffers,
unless it writes to one; it may be that nothing has panicked, unless it sets a header; and it may be
about the live handles, unless it makes buffers or frees them. -/
theorem tame_calls_of_calm (hI : World.Calm I) : ∀ call ∈ calls,
    (call.1 = writing → World.Writable I) → (call.1 = heading → World.Headed I) →
      (call.1 ∈ buffering → World.Roomy I) →
        Tame I (words call.2.1) call.2.2 fun _ => True := by
  simp only [calls, List.forall_mem_cons, List.not_mem_nil, false_implies, implies_true, and_true]
  have listed {name : String} (roomy : name ∈ buffering → World.Roomy I)
      (h : buffering.contains name = true) : World.Roomy I :=
    roomy (List.contains_iff_mem.mp h)
  exact ⟨fun _ _ _ => tame_inputBuffer, fun _ _ _ => tame_outputBuffer,
    fun _ _ roomy => tame_reply (listed roomy rfl) _,
    fun _ _ roomy => tame_freeBuffer (listed roomy rfl),
    fun writable _ _ => tame_writeBuffer (writable rfl),
    fun _ headed _ => tame_writeHeader (headed rfl),
    fun _ _ _ => tame_writeStatusCode hI, fun _ _ _ => tame_bufferSize hI,
    fun _ _ _ => tame_readBuffer hI, fun _ _ roomy => tame_readHeaders hI (listed roomy rfl),
    fun _ _ roomy => tame_encodeBase64 (listed roomy rfl),
    fun _ _ roomy => tame_decodeBase64 (listed roomy rfl),
    fun _ _ roomy => tame_registerBlob hI (listed roomy rfl),
    fun _ _ roomy => tame_registerNamedBlob hI (listed roomy rfl),
    fun _ _ roomy => tame_blobOfName hI (listed roomy rfl),
    fun _ _ roomy => tame_blobBytes hI (listed roomy rfl), fun _ _ _ => tame_persist hI,
    fun _ _ roomy => tame_persisted hI (listed roomy rfl),
    fun _ _ roomy => tame_persistedPairs hI (listed roomy rfl),
    fun _ _ roomy => tame_fetch hI (listed roomy rfl), fun _ _ _ => tame_printDebug hI,
    fun _ _ _ => tame_time, fun _ _ roomy => tame_status hI (listed roomy rfl)⟩

/-- What is steady is kept by the core functions that write to buffers too. -/
theorem tame_calls (hI : World.Steady I) : ∀ call ∈ calls,
    (call.1 ∈ buffering → World.Roomy I) → Tame I (words call.2.1) call.2.2 fun _ => True :=
  fun call listed => tame_calls_of_calm hI.calm call listed (fun _ => hI.writable) fun _ => hI.headed

end Core

/-! ## Hooks of managed runtimes -/

theorem Managed.tame_write (hI : World.Calm I) :
    Tame I (Core.words 3) Managed.write fun _ => True :=
  (tame_word 0 rfl).bind fun _ _ => (tame_bytes 1 2 rfl rfl).bind fun _ _ =>
    (tame_hear hI _).bind fun _ _ => tame_pure trivial

/-! ## System calls -/

namespace Posix

variable {w : World}

namespace File

theorem keeps_read (hI : World.Calm I) (file : File) (length : Nat) (hw : I w) :
    I (file.read length w).2.2 := by
  cases file with
  | standardError => exact hw
  | output place => exact hw
  | input place content position =>
    cases content with
    | some content => exact hw
    | none =>
      have used := hI.useAt w place Exchange.Buffer.read plain_read safe_read hw
      simp only [read]
      revert used
      obtain ⟨outcome, after⟩ := w.useAt place Exchange.Buffer.read
      cases outcome <;> exact id
  | remote url content position =>
    cases content with
    | some content => exact hw
    | none =>
      have fetched := hI.fetch url hw
      simp only [read]
      revert fetched
      obtain ⟨body, after⟩ := w.fetch url
      cases body <;> exact id

theorem keeps_write (hI : World.Calm I) (writable : World.Writable I) (file : File)
    (content : Bytes) (hw : I w) : I (file.write content w).2 := by
  cases file with
  | standardError => exact hI.note w _ nofun hw
  | output place =>
    have used := writable w place content hw
    simp only [write]
    revert used
    obtain ⟨outcome, after⟩ := w.useAt place (Exchange.Buffer.write content)
    cases outcome <;> exact id
  | _ => exact hw

theorem keeps_close (hI : World.Calm I) (file : File) (hw : I w) : I (file.close w).2 := by
  cases file with
  | output place =>
    have used := hI.useAt w place Exchange.Buffer.close plain_close safe_close hw
    simp only [close]
    revert used
    obtain ⟨outcome, after⟩ := w.useAt place Exchange.Buffer.close
    cases outcome <;> exact id
  | _ => exact hw

end File

namespace Syscall

variable {types : List Wasm.ValType}

theorem tame_argumentsSizes : Tame I (Core.words 2) argumentsSizes fun _ => True :=
  (tame_word 0 rfl).bind fun _ _ => (tame_word 1 rfl).bind fun _ _ =>
    tame_process.bind fun _ _ => (tame_store _ _ _).bind fun _ _ =>
      (tame_store _ _ _).bind fun _ _ => tame_pure trivial

theorem tame_storeArguments (table : Nat) (texts : List String) (index offset : Nat) :
    Tame I types (storeArguments table texts index offset) fun _ => True := by
  induction texts generalizing index offset with
  | nil => exact tame_pure trivial
  | cons text rest ih =>
    exact (tame_store _ _ _).bind fun _ _ => (Call.tame_write _ _).bind fun _ _ =>
      (tame_store _ _ _).bind fun _ _ => ih _ _

theorem tame_arguments : Tame I (Core.words 2) arguments fun _ => True :=
  (tame_word 0 rfl).bind fun _ _ => (tame_word 1 rfl).bind fun _ _ =>
    tame_process.bind fun _ _ => (tame_storeArguments _ _ _ _).bind fun _ _ => tame_pure trivial

theorem tame_environmentSizes : Tame I (Core.words 2) environmentSizes fun _ => True :=
  (tame_word 0 rfl).bind fun _ _ => (tame_word 1 rfl).bind fun _ _ =>
    (tame_store _ _ _).bind fun _ _ => (tame_store _ _ _).bind fun _ _ => tame_pure trivial

theorem tame_directoryGet : Tame I (Core.words 2) directoryGet fun _ => True := by
  refine (tame_word 0 rfl).bind fun descriptor _ => (tame_word 1 rfl).bind fun result _ => ?_
  cases directories.lookup descriptor with
  | none => exact tame_pure trivial
  | some name =>
    exact (tame_store _ _ _).bind fun _ _ => (tame_store _ _ _).bind fun _ _ => tame_pure trivial

theorem tame_directoryName : Tame I (Core.words 3) directoryName fun _ => True := by
  refine (tame_word 0 rfl).bind fun descriptor _ => (tame_word 1 rfl).bind fun result _ => ?_
  refine (tame_word 2 rfl).bind fun length _ => ?_
  cases directories.lookup descriptor with
  | none => exact tame_pure trivial
  | some name => exact (Call.tame_write _ _).bind fun _ _ => tame_pure trivial

theorem tame_descriptorStatus : Tame I (Core.words 2) descriptorStatus fun _ => True :=
  (tame_word 0 rfl).bind fun _ _ => (tame_word 1 rfl).bind fun _ _ =>
    (tame_fill _ _ _).bind fun _ _ => (tame_store _ _ _).bind fun _ _ =>
      (tame_store _ _ _).bind fun _ _ => (tame_store _ _ _).bind fun _ _ =>
        (tame_store _ _ _).bind fun _ _ => tame_pure trivial

theorem tame_pathStatus : Tame I (Core.words 5) pathStatus fun _ => True :=
  (tame_bytes 2 3 rfl rfl).bind fun _ _ => (tame_word 4 rfl).bind fun _ _ =>
    (tame_fill _ _ _).bind fun _ _ => (tame_store _ _ _).bind fun _ _ => tame_pure trivial

theorem tame_vector (table index : Nat) : Tame I types (vector table index) fun _ => True :=
  (tame_load _).bind fun _ _ => (tame_load _).bind fun _ _ => tame_pure trivial

theorem tame_writeFile (hI : World.Calm I) (writable : World.Writable I) (file : File)
    (bytes : Bytes) : Tame I types (writeFile file bytes) fun _ => True :=
  tame_world.bind fun _ hw => (tame_setWorld (file.keeps_write hI writable bytes hw)).bind fun _ _ =>
    tame_pure trivial

theorem tame_readFile (hI : World.Calm I) (descriptor : Nat) (file : File) (length : Nat) :
    Tame I types (readFile descriptor file length) fun _ => True :=
  tame_world.bind fun _ hw => tame_process.bind fun _ _ => (tame_setProcess _).bind fun _ _ =>
    (tame_setWorld (file.keeps_read hI length hw)).bind fun _ _ => tame_pure trivial

theorem tame_writeVectors (hI : World.Calm I) (writable : World.Writable I)
    (descriptor table left index written : Nat) :
    Tame I types (writeVectors descriptor table left index written) fun _ => True := by
  induction left generalizing index written with
  | zero => exact tame_pure trivial
  | succ left ih =>
    refine (tame_vector table index).bind fun range _ => ?_
    refine (tame_slice _ _).bind fun bytes _ => tame_invocation.bind fun invocation _ => ?_
    refine tame_optional (tame_hear hI bytes) (tame_process.bind fun process _ => ?_)
    cases process.file? descriptor with
    | none => exact tame_pure trivial
    | some file =>
      refine (tame_writeFile hI writable file bytes).bind fun outcome _ => ?_
      cases outcome with
      | error e => exact tame_pure trivial
      | ok n => exact ih _ _

theorem tame_write (hI : World.Calm I) (writable : World.Writable I) :
    Tame I (Core.words 4) write fun _ => True := by
  rw [write_eq]
  refine (tame_word 0 rfl).bind fun descriptor _ => (tame_word 1 rfl).bind fun table _ => ?_
  refine (tame_word 2 rfl).bind fun count _ => (tame_word 3 rfl).bind fun result _ => ?_
  refine (tame_writeVectors hI writable _ _ _ _ _).bind fun outcome _ => ?_
  cases outcome <;> exact (tame_store _ _ _).bind fun _ _ => tame_pure trivial

theorem tame_readVectors (hI : World.Calm I) (descriptor table left index done : Nat) :
    Tame I types (readVectors descriptor table left index done) fun _ => True := by
  induction left generalizing index done with
  | zero => exact tame_pure trivial
  | succ left ih =>
    refine (tame_vector table index).bind fun range _ => ?_
    refine tame_ite (ih _ _) (tame_process.bind fun process _ => ?_)
    cases process.file? descriptor with
    | none => exact tame_pure trivial
    | some file =>
      refine (tame_range _ _).bind fun _ _ => ?_
      refine (tame_readFile hI descriptor file _).bind fun outcome _ => ?_
      cases outcome with
      | error e => exact tame_pure trivial
      | ok bytes =>
        exact (Call.tame_write _ _).bind fun _ _ => tame_ite (tame_pure trivial) (ih _ _)

theorem tame_read (hI : World.Calm I) : Tame I (Core.words 4) read fun _ => True := by
  refine (tame_word 0 rfl).bind fun descriptor _ => (tame_word 1 rfl).bind fun table _ => ?_
  refine (tame_word 2 rfl).bind fun count _ => (tame_word 3 rfl).bind fun result _ => ?_
  refine (tame_readVectors hI _ _ _ _ _).bind fun outcome _ => ?_
  cases outcome with
  | ok done => exact (tame_store _ _ _).bind fun _ _ => tame_pure trivial
  | error e => exact tame_pure trivial

theorem tame_seek : Tame I [.i32, .i64, .i32, .i32] seek fun _ => True :=
  (tame_wide 1 rfl).bind fun _ _ => (tame_word 3 rfl).bind fun _ _ =>
    (tame_store _ _ _).bind fun _ _ => tame_pure trivial

theorem tame_close (hI : World.Calm I) : Tame I (Core.words 1) close fun _ => True := by
  refine (tame_word 0 rfl).bind fun descriptor _ => tame_process.bind fun process _ => ?_
  cases process.file? descriptor with
  | none => exact tame_pure trivial
  | some file =>
    refine (tame_setProcess _).bind fun _ _ => tame_world.bind fun w hw => ?_
    have closed := file.keeps_close hI hw
    revert closed
    obtain ⟨outcome, after⟩ := file.close w
    intro closed
    refine (tame_setWorld closed).bind fun _ _ => ?_
    cases outcome with
    | ok done => exact tame_pure trivial
    | error e => exact tame_pure trivial

theorem tame_readDirectory :
    Tame I [.i32, .i32, .i32, .i64, .i32] readDirectory fun _ => True :=
  (tame_word 4 rfl).bind fun _ _ => (tame_store _ _ _).bind fun _ _ => tame_pure trivial

theorem tame_openPath :
    Tame I [.i32, .i32, .i32, .i32, .i32, .i64, .i64, .i32, .i32] openPath fun _ => True := by
  refine (tame_text 2 3 rfl rfl).bind fun path _ => (tame_word 8 rfl).bind fun result _ => ?_
  refine tame_world.bind fun w _ => tame_invocation.bind fun invocation _ => ?_
  cases fileOf w invocation path with
  | error errno => exact (tame_store _ _ _).bind fun _ _ => tame_pure trivial
  | ok file =>
    exact tame_process.bind fun _ _ => (tame_setProcess _).bind fun _ _ =>
      (tame_store _ _ _).bind fun _ _ => tame_pure trivial

/-- The system call that writes to a file. -/
def writing : String := "fd_write"

/-- **Every system call with an answer is tame**, with the signature that it is bound with. What it
keeps may be about the content of memory buffers, unless it writes to a file. -/
theorem tame_calls_of_calm (hI : World.Calm I) : ∀ call ∈ calls,
    (call.1 = writing → World.Writable I) →
      Tame I call.2.1.type.params call.2.2 fun _ => True := by
  simp only [calls, List.forall_mem_cons, List.not_mem_nil, false_implies, implies_true, and_true]
  exact ⟨fun _ => tame_argumentsSizes, fun _ => tame_arguments, fun _ => tame_environmentSizes,
    fun _ => tame_pure trivial, fun _ => tame_directoryGet, fun _ => tame_directoryName,
    fun _ => tame_descriptorStatus, fun _ => tame_pathStatus,
    fun writable => tame_write hI (writable rfl), fun _ => tame_read hI, fun _ => tame_seek,
    fun _ => tame_close hI, fun _ => tame_readDirectory,
    fun _ => tame_openPath⟩

/-- What is steady is kept by the system call that writes to files too. -/
theorem tame_calls (hI : World.Steady I) :
    ∀ call ∈ calls, Tame I call.2.1.type.params call.2.2 fun _ => True :=
  fun call listed => tame_calls_of_calm hI.calm call listed fun _ => hI.writable

/-- Answering its guest leaves a system call as it is otherwise. -/
theorem site_answered (call : Call Errno) (site : Site) :
    ((answered call).run site).2 = (call.run site).2 := by
  unfold answered
  rw [Stateful.run_tryCatch, Stateful.run_bind]
  cases (call.run site).1 with
  | ok errno => rfl
  | error e => cases e <;> rfl

/-- What is left of the failures of a system call that answers its guest: none, unless its
arguments are of other types than it is bound with. -/
theorem run_answered {call : Call Errno} (tame : Tame I types call fun _ => True) (site : Site)
    (hsite : I site.world) :
    (∃ errno : Errno, ((answered call).run site).1 = .ok errno.code) ∨
      ∃ e, ((answered call).run site).1 = .error e ∧ e.Misread ∧ ¬ site.Fits types := by
  obtain ⟨-, -, ends⟩ := tame site hsite
  unfold answered
  simp only [Stateful.run_tryCatch, Stateful.run_bind]
  cases come : (call.run site).1 with
  | ok errno => exact .inl ⟨errno, rfl⟩
  | error e =>
    rw [come] at ends
    cases e with
    | outOfBounds access => exact .inl ⟨.fault, rfl⟩
    | recoverable reason => exact .inl ⟨.badDescriptor, rfl⟩
    | fatal cause =>
      rcases ends with ends | ends
      · exact ends.elim
      · exact .inr ⟨_, rfl, ends⟩
    | exit code =>
      rcases ends with ends | ends
      · exact ends.elim
      · exact ends.1.elim

end Syscall

end Posix

end GuestHost
