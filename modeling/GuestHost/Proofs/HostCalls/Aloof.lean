import GuestHost.Core
import GuestHost.Managed
import GuestHost.Proofs.Nesting
/-!
# Host calls that leave the process alone

A host call is **aloof** if it leaves the process of its guest as it is, whatever it does to memory
and to the world and however it ends. Everything that host calls do is aloof but the replacement of
the process itself, so the core functions are aloof, `Core.aloof_calls`, and so are the hooks for
managed runtimes and the invocation of another guest, which has a process of its own.
-/

namespace GuestHost

open Stateful

namespace Call

variable {α β ε : Type} {x : Call α} {f : α → Call β}

/-- A host call that leaves the process of its guest alone. -/
def Aloof (x : Call α) : Prop := ∀ site, (x.run site).2.process = site.process

/-! ## Putting host calls together -/

theorem aloof_pure (a : α) : Aloof (pure a) := fun _ => rfl

theorem aloof_throw (e : CallError) : Aloof (throw e : Call α) := fun _ => rfl

theorem aloof_fail (e : CallError) : Aloof (fail e : Call α) := fun _ => rfl

theorem aloof_refuse (reason : Reason) : Aloof (refuse reason : Call α) := fun _ => rfl

theorem aloof_get : Aloof (get : Call Site) := fun _ => rfl

/-- **Aloof host calls in a row are aloof.** -/
theorem Aloof.bind (hx : x.Aloof) (hf : ∀ a, (f a).Aloof) : (x >>= f).Aloof := by
  intro site
  rw [run_bind]
  cases (x.run site).1 with
  | error e => exact hx site
  | ok a => exact (hf a _).trans (hx site)

theorem aloof_ite {c : Prop} [Decidable c] {y : Call α} (hx : x.Aloof) (hy : y.Aloof) :
    (if c then x else y).Aloof := by
  split
  · exact hx
  · exact hy

/-- A host call that is made first under a condition. -/
theorem aloof_optional {c : Prop} [Decidable c] {y : Call β} (hx : x.Aloof) (hy : y.Aloof) :
    (if c then x >>= fun _ => y else y).Aloof := aloof_ite (hx.bind fun _ => hy) hy

theorem aloof_mapM {g : β → Call α} (h : ∀ b, (g b).Aloof) (l : List β) : (l.mapM g).Aloof := by
  induction l with
  | nil => exact aloof_pure []
  | cons b rest ih =>
    rw [List.mapM_cons]
    exact (h b).bind fun a => ih.bind fun as => aloof_pure (a :: as)

/-! ## Arguments and memory -/

theorem aloof_argument (index : Nat) : (argument index).Aloof := by
  refine aloof_get.bind fun site => ?_
  cases site.arguments[index]? with
  | some value => exact aloof_pure value
  | none => exact aloof_throw _

theorem aloof_word (index : Nat) : (word index).Aloof := by
  refine (aloof_argument index).bind fun value => ?_
  cases value with
  | i32 word => exact aloof_pure _
  | _ => exact aloof_throw _

theorem aloof_signed (index : Nat) : (signed index).Aloof :=
  (aloof_word index).bind fun _ => aloof_pure _

theorem aloof_wide (index : Nat) : (wide index).Aloof := by
  refine (aloof_argument index).bind fun value => ?_
  cases value with
  | i64 word => exact aloof_pure _
  | _ => exact aloof_throw _

theorem aloof_words : words.Aloof :=
  aloof_get.bind fun _ => aloof_mapM aloof_signed _

theorem aloof_ofAccess (access : Except Memory.OutOfBounds α) :
    (ofAccess access).Aloof := by
  cases access with
  | ok a => exact aloof_pure a
  | error e => exact aloof_throw _

theorem aloof_setMemory (memory : Memory) : (setMemory memory).Aloof := fun _ => rfl

theorem aloof_slice (offset length : Nat) : (slice offset length).Aloof :=
  aloof_get.bind fun _ => aloof_ofAccess _

theorem aloof_range (offset length : Nat) : (range offset length).Aloof :=
  aloof_get.bind fun _ => aloof_ofAccess _

theorem aloof_load (offset : Nat) : (load offset).Aloof :=
  aloof_get.bind fun _ => aloof_ofAccess _

/-- A change of the memory of the guest. -/
theorem aloof_change (access : Memory → Except Memory.OutOfBounds Memory) :
    Aloof (do setMemory (← ofAccess (access (← get).memory))) :=
  aloof_get.bind fun _ => (aloof_ofAccess _).bind fun _ => aloof_setMemory _

theorem aloof_write (offset : Nat) (data : Bytes) : (write offset data).Aloof :=
  aloof_change fun memory => memory.write offset data

theorem aloof_store (width offset value : Nat) : (store width offset value).Aloof :=
  aloof_change fun memory => memory.writeWord width offset value

theorem aloof_fill (offset length : Nat) (value : UInt8) :
    (fill offset length value).Aloof :=
  aloof_change fun memory => memory.fill offset length value

theorem aloof_bytes (address length : Nat) : (bytes address length).Aloof :=
  (aloof_word address).bind fun _ => (aloof_word length).bind fun _ => aloof_slice _ _

theorem aloof_string (offset length : Nat) : (string offset length).Aloof := by
  refine (aloof_slice offset length).bind fun bytes => ?_
  cases Utf8.decode? bytes with
  | some text => exact aloof_pure text
  | none => exact aloof_throw _

theorem aloof_text (address length : Nat) : (text address length).Aloof :=
  (aloof_word address).bind fun _ => (aloof_word length).bind fun _ => aloof_string _ _

/-! ## Process and world -/

theorem aloof_process : process.Aloof := fun _ => rfl

theorem aloof_invocation : invocation.Aloof := fun _ => rfl

theorem aloof_world : world.Aloof := fun _ => rfl

theorem aloof_setWorld (w : World) : (setWorld w).Aloof := fun _ => rfl

theorem aloof_note (event : Event) : (note event).Aloof :=
  aloof_world.bind fun _ => aloof_setWorld _

theorem aloof_hear (text : Bytes) : (hear text).Aloof :=
  aloof_world.bind fun _ => aloof_setWorld _

theorem aloof_attempt (reason : ε → Reason) (operation : World → Except ε α × World) :
    (attempt reason operation).Aloof := by
  refine aloof_world.bind fun w => (aloof_setWorld _).bind fun _ => ?_
  cases (operation w).1 with
  | ok a => exact aloof_pure a
  | error e => exact aloof_throw _

theorem aloof_use (handle : Nat)
    (operation : Exchange.Buffer → Except Exchange.Error α × Exchange.Buffer) :
    (use handle operation).Aloof := aloof_attempt _ _

theorem aloof_access (operation : Store.Blob.Access α) : (access operation).Aloof :=
  aloof_attempt _ _

theorem aloof_look (operation : Store.Shelf → Except Store.Error α) :
    (look operation).Aloof := aloof_access _

theorem aloof_register (buffer : Exchange.Buffer) : (register buffer).Aloof :=
  aloof_world.bind fun _ => (aloof_setWorld _).bind fun _ => aloof_pure _

theorem aloof_reply (content : Bytes) : (reply content).Aloof := aloof_register _

end Call

open Call

/-! ## Core functions -/

namespace Core

theorem aloof_decodeBase64 : decodeBase64.Aloof := by
  refine (aloof_bytes 0 1).bind fun bytes => ?_
  cases Base64.decode? bytes with
  | some bytes => exact aloof_reply bytes
  | none => exact aloof_refuse _

theorem aloof_persisted : persisted.Aloof := by
  refine (aloof_bytes 0 1).bind fun key => (aloof_look _).bind fun value => ?_
  cases value with
  | some value => exact aloof_reply value
  | none => exact aloof_refuse _

theorem aloof_fetch : fetch.Aloof := by
  refine (aloof_text 0 1).bind fun address => aloof_world.bind fun w => ?_
  cases w.web.target? address with
  | none => exact aloof_refuse _
  | some url =>
    refine aloof_world.bind fun w => (aloof_setWorld _).bind fun _ => ?_
    cases w.web.fetch url with
    | some body => exact aloof_reply body
    | none => exact aloof_refuse _

theorem aloof_writeStatusCode : writeStatusCode.Aloof := by
  refine (aloof_word 0).bind fun handle => (aloof_word 1).bind fun status => ?_
  exact aloof_optional (aloof_refuse _) ((aloof_use _ _).bind fun _ => aloof_pure _)

theorem aloof_readBuffer : readBuffer.Aloof := by
  refine (aloof_word 0).bind fun handle => (aloof_word 1).bind fun address => ?_
  refine (aloof_word 2).bind fun room => (aloof_use _ _).bind fun content => ?_
  exact aloof_ite ((aloof_write _ _).bind fun _ => aloof_pure _) (aloof_pure _)

theorem aloof_time : time.Aloof := by
  refine (aloof_word 0).bind fun address => (aloof_word 1).bind fun room => ?_
  exact aloof_optional (aloof_refuse _)
    (aloof_world.bind fun _ => (aloof_store _ _ _).bind fun _ => aloof_pure _)

/-- **Every core function is aloof.** -/
theorem aloof_calls : ∀ call ∈ calls, call.2.2.Aloof := by
  simp only [calls, List.forall_mem_cons, List.not_mem_nil, false_implies, implies_true, and_true]
  refine ⟨?inputBuffer, ?outputBuffer, aloof_reply _, ?freeBuffer, ?writeBuffer, ?writeHeader,
    aloof_writeStatusCode, ?bufferSize, aloof_readBuffer, ?readHeaders, ?encodeBase64,
    aloof_decodeBase64, ?registerBlob, ?registerNamedBlob, ?blobOfName, ?blobBytes, ?persist,
    aloof_persisted, ?persistedPairs, aloof_fetch, ?printDebug, aloof_time, ?status⟩
  case inputBuffer => exact aloof_invocation.bind fun _ => aloof_pure _
  case outputBuffer => exact aloof_invocation.bind fun _ => aloof_pure _
  case freeBuffer =>
    exact (aloof_word 0).bind fun _ => aloof_world.bind fun _ => (aloof_setWorld _).bind fun _ =>
      aloof_ite (aloof_pure _) (aloof_refuse _)
  case writeBuffer =>
    exact (aloof_word 0).bind fun _ => (aloof_bytes 1 2).bind fun _ => (aloof_use _ _).bind fun _ =>
      aloof_pure _
  case writeHeader =>
    exact (aloof_word 0).bind fun _ => (aloof_text 1 2).bind fun _ => (aloof_text 3 4).bind fun _ =>
      (aloof_use _ _).bind fun _ => aloof_pure _
  case bufferSize =>
    exact (aloof_word 0).bind fun _ => (aloof_use _ _).bind fun _ => aloof_pure _
  case readHeaders =>
    exact (aloof_word 0).bind fun _ => (aloof_use _ _).bind fun _ => aloof_reply _
  case encodeBase64 => exact (aloof_bytes 0 1).bind fun _ => aloof_reply _
  case registerBlob =>
    exact (aloof_text 0 1).bind fun _ => (aloof_bytes 2 3).bind fun _ => (aloof_access _).bind fun _ =>
      aloof_reply _
  case registerNamedBlob =>
    exact (aloof_text 0 1).bind fun _ => (aloof_text 2 3).bind fun _ => (aloof_bytes 4 5).bind fun _ =>
      (aloof_access _).bind fun _ => aloof_reply _
  case blobOfName =>
    exact (aloof_text 0 1).bind fun _ => (aloof_look _).bind fun _ => aloof_reply _
  case blobBytes =>
    exact (aloof_text 0 1).bind fun _ => (aloof_look _).bind fun _ => (aloof_look _).bind fun _ =>
      aloof_reply _
  case persist =>
    exact (aloof_bytes 0 1).bind fun _ => (aloof_bytes 2 3).bind fun _ => (aloof_access _).bind fun _ =>
      aloof_pure _
  case persistedPairs =>
    exact (aloof_bytes 0 1).bind fun _ => (aloof_look _).bind fun _ => aloof_reply _
  case printDebug =>
    exact (aloof_bytes 0 1).bind fun _ => (aloof_hear _).bind fun _ => aloof_pure _
  case status => exact aloof_world.bind fun _ => (aloof_look _).bind fun _ => aloof_reply _

end Core

/-! ## Hooks of managed runtimes -/

theorem Managed.aloof_write : Managed.write.Aloof :=
  (aloof_word 0).bind fun _ => (aloof_bytes 1 2).bind fun _ => (aloof_hear _).bind fun _ =>
    aloof_pure _

/-! ## Other guests -/

namespace Nesting

theorem aloof_attempt (invoke : Invoke) (context : Context) : (attempt invoke context).Aloof :=
  fun _ => rfl

theorem aloof_create : create.Aloof := fun _ => rfl

theorem aloof_release (handle : Nat) : (release handle).Aloof := fun _ => rfl

theorem aloof_link (invoke : Invoke) (guest entry : String) : (link invoke guest entry).Aloof := by
  have context : (linkContext guest entry).Aloof :=
    aloof_words.bind fun _ => aloof_create.bind fun _ => aloof_create.bind fun _ =>
      aloof_invocation.bind fun _ => aloof_pure _
  refine context.bind fun c => (aloof_attempt invoke c).bind fun outcome => ?_
  refine (aloof_release _).bind fun _ => (aloof_release _).bind fun _ => ?_
  cases outcome with
  | ok c => exact aloof_pure _
  | error e => exact aloof_fail _

theorem aloof_byName (invoke : Invoke) : (byName invoke).Aloof := by
  have context : namedContext.Aloof := fun site => by rw [run_namedContext]
  refine context.bind fun c => (aloof_attempt invoke c).bind fun outcome => ?_
  cases outcome with
  | ok c => exact aloof_pure _
  | error e => cases e <;> exact aloof_fail _

end Nesting

end GuestHost
