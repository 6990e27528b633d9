import GuestHost.Core
import GuestHost.Managed
import GuestHost.Posix.Syscall
import GuestHost.Proofs.Posix.Passages
import GuestHost.Proofs.Reentry.Same
/-!
# The functions that hosts offer are blind

None of the core functions, of the system calls and of the hooks for managed runtimes can tell how
deep its guest is nested, nor through which others: `Core.blind_calls`, `Posix.Syscall.blind_calls`,
`Managed.blind_write`. Only a traced write to the standard output looks at the trace, and what it
does for it is to note the bytes down.
-/

namespace GuestHost

open Stateful Call

variable {K : Prop}

/-! ## Core functions -/

namespace Core

theorem blind_inputBuffer : Blind K inputBuffer := by
  refine Alike.bind alike_invocation fun i i' same => ?_
  obtain ⟨_, _, _, rfl, -⟩ := same
  exact blind_pure _

theorem blind_outputBuffer : Blind K outputBuffer := by
  refine Alike.bind alike_invocation fun i i' same => ?_
  obtain ⟨_, _, _, rfl, -⟩ := same
  exact blind_pure _

theorem blind_freeBuffer : Blind K freeBuffer := by
  refine blind_bind (blind_word 0) fun handle => ?_
  refine Alike.bind alike_world fun w w' same => ?_
  obtain ⟨released, t, t', left, right, worlds⟩ := (World.blind_release handle).run same
  simp only [left, right]
  refine Alike.bind (alike_setWorld worlds) fun _ _ _ => ?_
  exact blind_ite (blind_pure 0) (blind_refuse _)

theorem blind_writeBuffer : Blind K writeBuffer :=
  blind_bind (blind_word 0) fun _ => blind_bind (blind_bytes 1 2) fun _ =>
    blind_bind (blind_use _ _) fun _ => blind_pure _

theorem blind_writeHeader : Blind K writeHeader :=
  blind_bind (blind_word 0) fun _ => blind_bind (blind_text 1 2) fun _ =>
    blind_bind (blind_text 3 4) fun _ => blind_bind (blind_use _ _) fun _ => blind_pure _

theorem blind_writeStatusCode : Blind K writeStatusCode := by
  refine blind_bind (blind_word 0) fun handle => blind_bind (blind_word 1) fun status => ?_
  have write : Blind K (do
      Call.use handle (Exchange.Buffer.writeStatusCode status)
      return 0 : Call UInt32) :=
    blind_bind (blind_use _ _) fun _ => blind_pure _
  exact blind_ite (blind_bind (blind_refuse _) fun _ => write) write

theorem blind_bufferSize : Blind K bufferSize :=
  blind_bind (blind_word 0) fun _ => blind_bind (blind_use _ _) fun _ => blind_pure _

theorem blind_readBuffer : Blind K readBuffer := by
  refine blind_bind (blind_word 0) fun handle => blind_bind (blind_word 1) fun address => ?_
  refine blind_bind (blind_word 2) fun room => blind_bind (blind_use _ _) fun content => ?_
  exact blind_ite (blind_bind (blind_write _ _) fun _ => blind_pure _) (blind_pure _)

theorem blind_readHeaders : Blind K readHeaders :=
  blind_bind (blind_word 0) fun _ => blind_bind (blind_use _ _) fun _ => blind_reply _

theorem blind_encodeBase64 : Blind K encodeBase64 :=
  blind_bind (blind_bytes 0 1) fun _ => blind_reply _

theorem blind_decodeBase64 : Blind K decodeBase64 := by
  refine blind_bind (blind_bytes 0 1) fun bytes => ?_
  cases Base64.decode? bytes with
  | some bytes => exact blind_reply bytes
  | none => exact blind_refuse _

theorem blind_registerBlob : Blind K registerBlob :=
  blind_bind (blind_text 0 1) fun _ => blind_bind (blind_bytes 2 3) fun _ =>
    blind_bind (blind_access _) fun _ => blind_reply _

theorem blind_registerNamedBlob : Blind K registerNamedBlob :=
  blind_bind (blind_text 0 1) fun _ => blind_bind (blind_text 2 3) fun _ =>
    blind_bind (blind_bytes 4 5) fun _ => blind_bind (blind_access _) fun _ => blind_reply _

theorem blind_blobOfName : Blind K blobOfName :=
  blind_bind (blind_text 0 1) fun _ => blind_bind (blind_look _) fun _ => blind_reply _

theorem blind_blobBytes : Blind K blobBytes :=
  blind_bind (blind_text 0 1) fun _ => blind_bind (blind_look _) fun _ =>
    blind_bind (blind_look _) fun _ => blind_reply _

theorem blind_persist : Blind K persist :=
  blind_bind (blind_bytes 0 1) fun _ => blind_bind (blind_bytes 2 3) fun _ =>
    blind_bind (blind_access _) fun _ => blind_pure _

theorem blind_persisted : Blind K persisted := by
  refine blind_bind (blind_bytes 0 1) fun key => blind_bind (blind_look _) fun value => ?_
  cases value with
  | some value => exact blind_reply value
  | none => exact blind_refuse _

theorem blind_persistedPairs : Blind K persistedPairs :=
  blind_bind (blind_bytes 0 1) fun _ => blind_bind (blind_look _) fun _ => blind_reply _

theorem blind_fetch : Blind K fetch := by
  refine blind_bind (blind_text 0 1) fun address => Alike.bind alike_world fun w w' same => ?_
  obtain ⟨_, rfl, -⟩ := same
  dsimp only
  cases w.web.target? address with
  | none => exact blind_refuse _
  | some url =>
    refine Alike.bind alike_world fun w w' same => ?_
    obtain ⟨body, t, t', left, right, worlds⟩ := (World.blind_fetch url).run same
    simp only [left, right]
    refine Alike.bind (alike_setWorld worlds) fun _ _ _ => ?_
    cases body with
    | some body => exact blind_reply body
    | none => exact blind_refuse _

theorem blind_printDebug : Blind K printDebug :=
  blind_bind (blind_bytes 0 1) fun _ => blind_bind (blind_hear _) fun _ => blind_pure _

theorem blind_time : Blind K time := by
  refine blind_bind (blind_word 0) fun address => blind_bind (blind_word 1) fun room => ?_
  have store : Blind K (do
      Call.store 8 address (← Call.world).clock
      return 0 : Call UInt32) := by
    refine Alike.bind alike_world fun w w' same => ?_
    obtain ⟨_, rfl, -⟩ := same
    exact blind_bind (blind_store _ _ _) fun _ => blind_pure _
  exact blind_ite (blind_bind (blind_refuse _) fun _ => store) store

theorem blind_status : Blind K status := by
  refine Alike.bind alike_world fun w w' same => ?_
  obtain ⟨_, rfl, -⟩ := same
  exact blind_bind (blind_look _) fun _ => blind_reply _

/-- **No core function can tell how deep its guest is nested.** -/
theorem blind_calls : ∀ call ∈ calls, Blind K call.2.2 := by
  simp only [calls, List.forall_mem_cons, List.not_mem_nil, false_implies, implies_true, and_true]
  exact ⟨blind_inputBuffer, blind_outputBuffer, blind_reply _, blind_freeBuffer,
    blind_writeBuffer, blind_writeHeader, blind_writeStatusCode, blind_bufferSize,
    blind_readBuffer, blind_readHeaders, blind_encodeBase64, blind_decodeBase64,
    blind_registerBlob, blind_registerNamedBlob, blind_blobOfName, blind_blobBytes,
    blind_persist, blind_persisted, blind_persistedPairs, blind_fetch, blind_printDebug,
    blind_time, blind_status⟩

end Core

/-! ## Hooks of managed runtimes -/

theorem Managed.blind_write : Blind K Managed.write :=
  blind_bind (blind_word 0) fun _ => blind_bind (blind_bytes 1 2) fun _ =>
    blind_bind (blind_hear _) fun _ => blind_pure _

/-! ## System calls -/

namespace Posix

variable {w w' : World}

namespace File

theorem same_read (file : File) (length : Nat) (same : w.Same K w') :
    ∃ outcome next t t', file.read length w = (outcome, next, t) ∧
      file.read length w' = (outcome, next, t') ∧ t.Same K t' := by
  cases file with
  | standardError => exact ⟨_, _, w, w', rfl, rfl, same⟩
  | output place => exact ⟨_, _, w, w', rfl, rfl, same⟩
  | input place content position =>
    cases content with
    | some content => exact ⟨_, _, w, w', rfl, rfl, same⟩
    | none =>
      obtain ⟨outcome, t, t', left, right, worlds⟩ :=
        (World.blind_useAt place Exchange.Buffer.read).run same
      simp only [read, left, right]
      cases outcome <;> exact ⟨_, _, t, t', rfl, rfl, worlds⟩
  | remote url content position =>
    cases content with
    | some content => exact ⟨_, _, w, w', rfl, rfl, same⟩
    | none =>
      obtain ⟨outcome, t, t', left, right, worlds⟩ := (World.blind_fetch url).run same
      simp only [read, left, right]
      cases outcome <;> exact ⟨_, _, t, t', rfl, rfl, worlds⟩

theorem blind_write (file : File) (content : Bytes) :
    World.Blind K fun w => file.write content w := by
  intro w w' same
  cases file with
  | standardError => exact ⟨rfl, same.note _⟩
  | output place =>
    obtain ⟨outcome, t, t', left, right, worlds⟩ :=
      (World.blind_useAt place (Exchange.Buffer.write content)).run same
    simp only [write, left, right]
    cases outcome <;> exact ⟨rfl, worlds⟩
  | _ => exact ⟨rfl, same⟩

theorem blind_close (file : File) : World.Blind K fun w => file.close w := by
  intro w w' same
  cases file with
  | output place =>
    obtain ⟨outcome, t, t', left, right, worlds⟩ :=
      (World.blind_useAt place Exchange.Buffer.close).run same
    simp only [close, left, right]
    cases outcome <;> exact ⟨rfl, worlds⟩
  | _ => exact ⟨rfl, same⟩

end File

namespace Syscall

theorem blind_answered {call : Call Errno} (h : Blind K call) : Blind K (answered call) := by
  refine Alike.tryCatch (blind_bind h fun _ => blind_pure _) fun e => ?_
  cases e with
  | outOfBounds access => exact blind_pure _
  | recoverable reason => exact blind_pure _
  | _ => exact blind_throw _

theorem blind_argumentsSizes : Blind K argumentsSizes :=
  blind_bind (blind_word 0) fun _ => blind_bind (blind_word 1) fun _ =>
    blind_bind blind_process fun _ => blind_bind (blind_store _ _ _) fun _ =>
      blind_bind (blind_store _ _ _) fun _ => blind_pure _

theorem blind_storeArguments (table : Nat) (texts : List String) (index offset : Nat) :
    Blind K (storeArguments table texts index offset) := by
  induction texts generalizing index offset with
  | nil => exact blind_pure _
  | cons text rest ih =>
    exact blind_bind (blind_store _ _ _) fun _ => blind_bind (Call.blind_write _ _) fun _ =>
      blind_bind (blind_store _ _ _) fun _ => ih _ _

theorem blind_arguments : Blind K arguments :=
  blind_bind (blind_word 0) fun _ => blind_bind (blind_word 1) fun _ =>
    blind_bind blind_process fun _ => blind_bind (blind_storeArguments _ _ _ _) fun _ =>
      blind_pure _

theorem blind_environmentSizes : Blind K environmentSizes :=
  blind_bind (blind_word 0) fun _ => blind_bind (blind_word 1) fun _ =>
    blind_bind (blind_store _ _ _) fun _ => blind_bind (blind_store _ _ _) fun _ => blind_pure _

theorem blind_directoryGet : Blind K directoryGet := by
  refine blind_bind (blind_word 0) fun descriptor => blind_bind (blind_word 1) fun result => ?_
  cases directories.lookup descriptor with
  | none => exact blind_pure _
  | some name =>
    exact blind_bind (blind_store _ _ _) fun _ => blind_bind (blind_store _ _ _) fun _ =>
      blind_pure _

theorem blind_directoryName : Blind K directoryName := by
  refine blind_bind (blind_word 0) fun descriptor => blind_bind (blind_word 1) fun result => ?_
  refine blind_bind (blind_word 2) fun length => ?_
  cases directories.lookup descriptor with
  | none => exact blind_pure _
  | some name => exact blind_bind (Call.blind_write _ _) fun _ => blind_pure _

theorem blind_descriptorStatus : Blind K descriptorStatus :=
  blind_bind (blind_word 0) fun _ => blind_bind (blind_word 1) fun _ =>
    blind_bind (blind_fill _ _ _) fun _ => blind_bind (blind_store _ _ _) fun _ =>
      blind_bind (blind_store _ _ _) fun _ => blind_bind (blind_store _ _ _) fun _ =>
        blind_bind (blind_store _ _ _) fun _ => blind_pure _

theorem blind_pathStatus : Blind K pathStatus :=
  blind_bind (blind_bytes 2 3) fun _ => blind_bind (blind_word 4) fun _ =>
    blind_bind (blind_fill _ _ _) fun _ => blind_bind (blind_store _ _ _) fun _ => blind_pure _

theorem blind_vector (table index : Nat) : Blind K (vector table index) :=
  blind_bind (blind_load _) fun _ => blind_bind (blind_load _) fun _ => blind_pure _

theorem blind_writeFile (file : File) (bytes : Bytes) : Blind K (writeFile file bytes) := by
  refine Alike.bind alike_world fun w w' same => ?_
  obtain ⟨outcome, t, t', left, right, worlds⟩ := (file.blind_write bytes).run same
  simp only [left, right]
  exact Alike.bind (alike_setWorld worlds) fun _ _ _ => blind_pure _

theorem blind_readFile (descriptor : Nat) (file : File) (length : Nat) :
    Blind K (readFile descriptor file length) := by
  refine Alike.bind alike_world fun w w' same => ?_
  obtain ⟨outcome, next, t, t', left, right, worlds⟩ := file.same_read length same
  simp only [left, right]
  refine Alike.bind blind_process ?_
  rintro process _ rfl
  refine Alike.bind (blind_setProcess _) fun _ _ _ => ?_
  exact Alike.bind (alike_setWorld worlds) fun _ _ _ => blind_pure _

theorem blind_writeVectors (descriptor table left index written : Nat) :
    Blind K (writeVectors descriptor table left index written) := by
  induction left generalizing index written with
  | zero => exact blind_pure _
  | succ left ih =>
    refine blind_bind (blind_vector table index) fun range => ?_
    refine blind_bind (blind_slice _ _) fun bytes => ?_
    refine Alike.bind alike_invocation fun i i' same => ?_
    obtain ⟨trace, _, _, rfl, traced⟩ := same
    refine alike_traced (fun k => by rw [traced k]) ?_ _
    refine blind_bind blind_process fun process => ?_
    cases process.file? descriptor with
    | none => exact blind_pure _
    | some file =>
      refine blind_bind (blind_writeFile file bytes) fun outcome => ?_
      cases outcome with
      | error e => exact blind_pure _
      | ok n => exact ih _ _

theorem blind_write : Blind K write := by
  rw [write_eq]
  refine blind_bind (blind_word 0) fun descriptor => blind_bind (blind_word 1) fun table => ?_
  refine blind_bind (blind_word 2) fun count => blind_bind (blind_word 3) fun result => ?_
  refine blind_bind (blind_writeVectors _ _ _ _ _) fun outcome => ?_
  cases outcome <;> exact blind_bind (blind_store _ _ _) fun _ => blind_pure _

theorem blind_readVectors (descriptor table left index done : Nat) :
    Blind K (readVectors descriptor table left index done) := by
  induction left generalizing index done with
  | zero => exact blind_pure _
  | succ left ih =>
    refine blind_bind (blind_vector table index) fun range => ?_
    refine blind_ite (ih _ _) (blind_bind blind_process fun process => ?_)
    cases process.file? descriptor with
    | none => exact blind_pure _
    | some file =>
      refine blind_bind (blind_range _ _) fun _ => ?_
      refine blind_bind (blind_readFile _ _ _) fun outcome => ?_
      cases outcome with
      | error e => exact blind_pure _
      | ok bytes =>
        exact blind_bind (Call.blind_write _ _) fun _ => blind_ite (blind_pure _) (ih _ _)

theorem blind_read : Blind K read := by
  refine blind_bind (blind_word 0) fun descriptor => blind_bind (blind_word 1) fun table => ?_
  refine blind_bind (blind_word 2) fun count => blind_bind (blind_word 3) fun result => ?_
  refine blind_bind (blind_readVectors _ _ _ _ _) fun outcome => ?_
  cases outcome with
  | ok done => exact blind_bind (blind_store _ _ _) fun _ => blind_pure _
  | error e => exact blind_pure _

theorem blind_seek : Blind K seek :=
  blind_bind (blind_wide 1) fun _ => blind_bind (blind_word 3) fun _ =>
    blind_bind (blind_store _ _ _) fun _ => blind_pure _

theorem blind_close : Blind K close := by
  refine blind_bind (blind_word 0) fun descriptor => blind_bind blind_process fun process => ?_
  cases process.file? descriptor with
  | none => exact blind_pure _
  | some file =>
    refine blind_bind (blind_setProcess _) fun _ => Alike.bind alike_world fun w w' same => ?_
    obtain ⟨outcome, t, t', left, right, worlds⟩ := file.blind_close.run same
    simp only [left, right]
    refine Alike.bind (alike_setWorld worlds) fun _ _ _ => ?_
    cases outcome <;> exact blind_pure _

theorem blind_readDirectory : Blind K readDirectory :=
  blind_bind (blind_word 4) fun _ => blind_bind (blind_store _ _ _) fun _ => blind_pure _

theorem blind_openPath : Blind K openPath := by
  refine blind_bind (blind_text 2 3) fun path => blind_bind (blind_word 8) fun result => ?_
  refine Alike.bind alike_world fun w w' worlds => ?_
  refine Alike.bind alike_invocation fun i i' invocations => ?_
  have same : fileOf w' i' path = fileOf w i path := by
    obtain ⟨_, rfl, -⟩ := worlds
    obtain ⟨_, _, _, rfl, -⟩ := invocations
    rfl
  rw [same]
  cases fileOf w i path with
  | error errno => exact blind_bind (blind_store _ _ _) fun _ => blind_pure _
  | ok file =>
    refine blind_bind blind_process fun process => ?_
    exact blind_bind (blind_setProcess _) fun _ => blind_bind (blind_store _ _ _) fun _ =>
      blind_pure _

theorem blind_exit : Blind K exit :=
  blind_bind (blind_signed 0) fun _ => blind_bind blind_process fun _ =>
    blind_bind (blind_setProcess _) fun _ => blind_fail _

/-- **No system call can tell how deep its guest is nested.** -/
theorem blind_calls : ∀ call ∈ calls, Blind K call.2.2 := by
  simp only [calls, List.forall_mem_cons, List.not_mem_nil, false_implies, implies_true, and_true]
  exact ⟨blind_argumentsSizes, blind_arguments, blind_environmentSizes, blind_pure _,
    blind_directoryGet, blind_directoryName, blind_descriptorStatus, blind_pathStatus,
    blind_write, blind_read, blind_seek, blind_close, blind_readDirectory, blind_openPath⟩

end Syscall

end Posix

end GuestHost
