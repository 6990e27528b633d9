import GuestHost.Proofs.Exchange.Handles
import GuestHost.Proofs.HostCalls.Safety
import GuestHost.Proofs.HostCalls.Sizes
import Mathlib.Algebra.Group.Nat.Defs
/-!
# What the sentinel says

A core function that fails hands over `sentinel`, and nothing keeps that number for failures: what a
function hands over when it succeeds is a number too, `Core.Gives`, and may be the same. So a guest
that gets the sentinel knows that the function failed only if it rules out that the number is the
function's own: `Core.sentinel_ambiguous_only`. The functions with nothing to say never give it when
they succeed, and a new buffer gets that handle only after 65534 others.
-/

namespace GuestHost

open Stateful

/-- What a buffer takes, it takes as a whole. -/
theorem Exchange.Buffer.write_eq_ok {b : Exchange.Buffer} {content : Bytes} {n : Nat}
    (given : (b.write content).1 = .ok n) : n = content.length := by
  cases b with
  | memory m => exact (Except.ok.inj given).symm
  | request r => cases given
  | response r => exact (Except.ok.inj given).symm
  | socket s =>
    simp only [write] at given
    split at given
    · exact (Except.ok.inj given).symm
    · cases given

/-! ## What a host call hands over -/

namespace Call

variable {I : World → Prop} {types : List Wasm.ValType} {α β : Type} {x y : Call α}
  {f : α → Call β} {P Q : α → Prop} {R : β → Prop}

/-- A host call that succeeds hands over only values of a kind, as long as its arguments have the
types that it is bound with and an invariant of the world holds before it. -/
def Hands (I : World → Prop) (types : List Wasm.ValType) (x : Call α) (P : α → Prop) : Prop :=
  ∀ site, site.Fits types → I site.world → ∀ a, (x.run site).1 = .ok a → P a

theorem hands_pure {a : α} (h : P a) : Hands I types (pure a) P :=
  fun _ _ _ _ given => Except.ok.inj given ▸ h

theorem hands_refuse (reason : Reason) : Hands I types (refuse reason : Call α) P :=
  fun _ _ _ _ given => nomatch given

theorem hands_ite {c : Prop} [Decidable c] (hx : Hands I types x P) (hy : Hands I types y P) :
    Hands I types (if c then x else y) P := by
  split
  · exact hx
  · exact hy

/-- **Behind a tame host call** the arguments are as they were and the invariant still holds, so
what comes last hands over what the two do together. -/
theorem Tame.hands (hx : Tame I types x Q) (hf : ∀ a, Q a → Hands I types (f a) R) :
    Hands I types (x >>= f) R := by
  intro site fits hsite b given
  obtain ⟨arguments, kept, ends⟩ := hx site hsite
  rw [run_bind] at given
  cases come : (x.run site).1 with
  | error e =>
    rw [come] at given
    cases given
  | ok a =>
    rw [come] at given ends
    have fits' : (x.run site).2.Fits types := by
      unfold Site.Fits at fits ⊢
      rw [arguments, fits]
    exact hf a ends _ fits' kept b given

/-- The handle of the next buffer, as a word. -/
def NextWord (word : UInt32) (w : World) : Prop := handle w.registry.nextHandle = word

theorem steady_nextWord (word : UInt32) : World.Steady (NextWord word) :=
  World.steady_handles fun handles next =>
    handle (Exchange.Registry.firstFree handles (handles.size + 1) next) = word

theorem hands_reply (word : UInt32) (content : Bytes) :
    Hands (NextWord word) types (reply content) (· = word) :=
  fun _ _ next _ given => (Except.ok.inj given).symm.trans next

/-! ## Host calls that have succeeded -/

variable {site : Site} {b : β}

/-- A word that was read is the argument. -/
theorem word_of_ok {index : Nat} {g : Nat → Call β}
    (given : ((word index >>= g).run site).1 = .ok b) :
    ∃ w : UInt32, site.arguments[index]? = some (.i32 w) ∧ ((g w.toNat).run site).1 = .ok b := by
  cases passed : site.arguments[index]? with
  | none =>
    simp only [word, argument, run_bind, run_get, passed] at given
    cases given
  | some value =>
    cases value with
    | i32 w =>
      rw [run_bind, run_word passed] at given
      exact ⟨w, rfl, given⟩
    | _ =>
      simp only [word, argument, run_bind, run_get, passed] at given
      cases given

/-- Bytes that were read are as many as the argument says. -/
theorem bytes_of_ok {address length : Nat} {g : Bytes → Call β}
    (given : ((bytes address length >>= g).run site).1 = .ok b) :
    ∃ (w : UInt32) (content : Bytes), site.arguments[length]? = some (.i32 w) ∧
      content.length = w.toNat ∧ ((g content).run site).1 = .ok b := by
  unfold bytes at given
  simp only [bind_assoc] at given
  obtain ⟨offset, -, given⟩ := word_of_ok given
  obtain ⟨w, passed, given⟩ := word_of_ok given
  refine ⟨w, _, passed, site.memory.length_bytesAt offset.toNat w.toNat, ?_⟩
  simp only [slice, Memory.slice, run_bind, run_get] at given
  by_cases inside : site.memory.Holds offset.toNat w.toNat
  · simp only [if_pos inside] at given
    exact given
  · simp only [if_neg inside] at given
    cases given

/-- An operation on a buffer that was carried out is one on the buffer of a live handle. -/
theorem use_of_ok {handle : Nat}
    {operation : Exchange.Buffer → Except Exchange.Error α × Exchange.Buffer}
    (given : ((use handle operation >>= f).run site).1 = .ok b) :
    ∃ buffer a after, site.world.registry.find? handle = some buffer ∧
      (operation buffer).1 = .ok a ∧ ((f a).run after).1 = .ok b := by
  have used : ∃ a after, (site.world.use handle operation).1 = .ok a ∧
      ((f a).run after).1 = .ok b := by
    unfold use attempt at given
    simp only [run_bind, run_world, run_setWorld] at given
    cases come : (site.world.use handle operation).1 with
    | error e =>
      simp only [come] at given
      cases given
    | ok a =>
      simp only [come] at given
      exact ⟨a, _, rfl, given⟩
  obtain ⟨a, after, carried, given⟩ := used
  have carried : (site.world.registry.use handle operation).1 = .ok a := carried
  cases live : site.world.registry.find? handle with
  | some buffer =>
    refine ⟨buffer, a, after, rfl, ?_, given⟩
    rw [← carried, (Exchange.Registry.use_of_find? live operation).1]
  | none =>
    -- neither a handle that is not live nor a place without a buffer is used
    unfold Exchange.Registry.use Exchange.Registry.useAt at carried
    unfold Exchange.Registry.find? at live
    split at carried
    · rename_i place found
      rw [found] at live
      have missing : site.world.registry.at? place = none := live
      rw [missing] at carried
      cases carried
    · cases carried

end Call

/-! ## What core functions hand over -/

namespace Core

open Call

/-- The core functions that have no value of their own. -/
def silent : List String :=
  ["free_buffer", "write_exchange_buffer_header", "write_exchange_buffer_status_code",
    "persistence_set", "print_debug", "get_time"]

/-- The core functions whose value is a new buffer. -/
def replying : List String := buffering.erase "free_buffer"

/-- The core functions whose value is the size of what there is to read. -/
def sizing : List String := ["get_exchange_buffer_size", "read_exchange_buffer"]

/-- What a core function may hand over at a site when it succeeds. -/
inductive Gives (invoke : Invoke) (site : Site) : String → UInt32 → Prop
  | input : Gives invoke site "get_input_buffer_id" (handle site.invocation.input)
  | output : Gives invoke site "get_output_buffer_id" (handle site.invocation.output)
  | nothing {name : String} (plain : name ∈ silent) : Gives invoke site name 0
  | buffer {name : String} (replies : name ∈ replying) :
      Gives invoke site name (handle site.world.registry.nextHandle)
  | count {n : UInt32} (asked : site.arguments[2]? = some (.i32 n)) :
      Gives invoke site "write_exchange_buffer" n
  | size {name : String} (sizes : name ∈ sizing) {h : UInt32} {b : Exchange.Buffer}
      {content : Bytes} (passed : site.arguments[0]? = some (.i32 h))
      (live : site.world.registry.find? h.toNat = some b) (there : b.read.1 = .ok content) :
      Gives invoke site name (handle content.length)
  | nested {r : Request} {context : Context}
      (asked : (Backing.handler .callFunction).request? site = some r)
      (came : ((invoke r.context).run r.world).1 = .ok context) :
      Gives invoke site "call_function" (Nesting.returned context)

variable {word : UInt32} {invoke : Invoke} {site : Site}

/-! ### Nothing -/

theorem hands_freeBuffer : Hands (fun _ => True) (words 1) freeBuffer (· = 0) := by
  refine (tame_word 0 rfl).hands fun handle _ => tame_world.hands fun w _ => ?_
  refine (tame_setWorld trivial).hands fun _ _ => ?_
  exact hands_ite (hands_pure rfl) (hands_refuse _)

theorem hands_writeHeader : Hands (fun _ => True) (words 5) writeHeader (· = 0) :=
  (tame_word 0 rfl).hands fun _ _ => (tame_text 1 2 rfl rfl).hands fun _ _ =>
    (tame_text 3 4 rfl rfl).hands fun _ _ =>
      (tame_use World.steady_true _ _).hands fun _ _ => hands_pure rfl

theorem hands_writeStatusCode : Hands (fun _ => True) (words 2) writeStatusCode (· = 0) := by
  refine (tame_word 0 rfl).hands fun handle _ => (tame_word 1 rfl).hands fun status _ => ?_
  have write : Hands (fun _ => True) (words 2) (do
      Call.use handle (Exchange.Buffer.writeStatusCode status)
      return 0 : Call UInt32) (· = 0) :=
    (tame_use World.steady_true _ _).hands fun _ _ => hands_pure rfl
  exact hands_ite ((tame_refuse (P := fun _ => True) _).hands fun _ _ => write) write

theorem hands_persist : Hands (fun _ => True) (words 4) persist (· = 0) :=
  (tame_bytes 0 1 rfl rfl).hands fun _ _ => (tame_bytes 2 3 rfl rfl).hands fun _ _ =>
    (tame_access World.steady_true.calm _).hands fun _ _ => hands_pure rfl

theorem hands_printDebug : Hands (fun _ => True) (words 2) printDebug (· = 0) :=
  (tame_bytes 0 1 rfl rfl).hands fun _ _ =>
    (tame_hear World.steady_true.calm _).hands fun _ _ => hands_pure rfl

theorem hands_time : Hands (fun _ => True) (words 2) time (· = 0) := by
  refine (tame_word 0 rfl).hands fun address _ => (tame_word 1 rfl).hands fun room _ => ?_
  have store : Hands (fun _ => True) (words 2) (do
      Call.store 8 address (← Call.world).clock
      return 0 : Call UInt32) (· = 0) :=
    tame_world.hands fun _ _ => (tame_store _ _ _).hands fun _ _ => hands_pure rfl
  exact hands_ite ((tame_refuse (P := fun _ => True) _).hands fun _ _ => store) store

/-! ### A new buffer -/

theorem hands_readHeaders : Hands (NextWord word) (words 1) readHeaders (· = word) :=
  (tame_word 0 rfl).hands fun _ _ => (tame_use (steady_nextWord word) _ _).hands fun _ _ =>
    hands_reply word _

theorem hands_encodeBase64 : Hands (NextWord word) (words 2) encodeBase64 (· = word) :=
  (tame_bytes 0 1 rfl rfl).hands fun _ _ => hands_reply word _

theorem hands_decodeBase64 : Hands (NextWord word) (words 2) decodeBase64 (· = word) := by
  refine (tame_bytes 0 1 rfl rfl).hands fun bytes _ => ?_
  cases Base64.decode? bytes with
  | some bytes => exact hands_reply word bytes
  | none => exact hands_refuse _

theorem hands_registerBlob : Hands (NextWord word) (words 4) registerBlob (· = word) :=
  (tame_text 0 1 rfl rfl).hands fun _ _ => (tame_bytes 2 3 rfl rfl).hands fun _ _ =>
    (tame_access (steady_nextWord word).calm _).hands fun _ _ => hands_reply word _

theorem hands_registerNamedBlob : Hands (NextWord word) (words 6) registerNamedBlob (· = word) :=
  (tame_text 0 1 rfl rfl).hands fun _ _ => (tame_text 2 3 rfl rfl).hands fun _ _ =>
    (tame_bytes 4 5 rfl rfl).hands fun _ _ =>
      (tame_access (steady_nextWord word).calm _).hands fun _ _ => hands_reply word _

theorem hands_blobOfName : Hands (NextWord word) (words 2) blobOfName (· = word) :=
  (tame_text 0 1 rfl rfl).hands fun _ _ => (tame_look (steady_nextWord word).calm _).hands fun _ _ =>
    hands_reply word _

theorem hands_blobBytes : Hands (NextWord word) (words 2) blobBytes (· = word) :=
  (tame_text 0 1 rfl rfl).hands fun _ _ => (tame_look (steady_nextWord word).calm _).hands fun _ _ =>
    (tame_look (steady_nextWord word).calm _).hands fun _ _ => hands_reply word _

theorem hands_persisted : Hands (NextWord word) (words 2) persisted (· = word) := by
  refine (tame_bytes 0 1 rfl rfl).hands fun key _ => ?_
  refine (tame_look (steady_nextWord word).calm _).hands fun value _ => ?_
  cases value with
  | some value => exact hands_reply word value
  | none => exact hands_refuse _

theorem hands_persistedPairs : Hands (NextWord word) (words 2) persistedPairs (· = word) :=
  (tame_bytes 0 1 rfl rfl).hands fun _ _ => (tame_look (steady_nextWord word).calm _).hands fun _ _ =>
    hands_reply word _

theorem hands_fetch : Hands (NextWord word) (words 2) fetch (· = word) := by
  refine (tame_text 0 1 rfl rfl).hands fun address _ => tame_world.hands fun w _ => ?_
  cases w.web.target? address with
  | none => exact hands_refuse _
  | some url =>
    refine tame_world.hands fun w hw => ?_
    refine (tame_setWorld ((steady_nextWord word).calm.fetch url hw)).hands fun _ _ => ?_
    cases w.web.fetch url with
    | some body => exact hands_reply word body
    | none => exact hands_refuse _

theorem hands_status : Hands (NextWord word) (words 0) status (· = word) :=
  tame_world.hands fun _ _ => (tame_look (steady_nextWord word).calm _).hands fun _ _ =>
    hands_reply word _

/-! ### A number of bytes -/

theorem gives_writeBuffer {n : UInt32} (given : (writeBuffer.run site).1 = .ok n) :
    Gives invoke site "write_exchange_buffer" n := by
  unfold writeBuffer at given
  obtain ⟨h, -, given⟩ := word_of_ok given
  obtain ⟨w, content, asked, length, given⟩ := bytes_of_ok given
  obtain ⟨b, count, after, -, written, given⟩ := use_of_ok given
  obtain rfl := Exchange.Buffer.write_eq_ok written
  have same : w = n := by
    rw [← Except.ok.inj given, length]
    exact UInt32.ofNat_toNat.symm
  exact .count (same ▸ asked)

theorem gives_bufferSize {n : UInt32} (given : (bufferSize.run site).1 = .ok n) :
    Gives invoke site "get_exchange_buffer_size" n := by
  unfold bufferSize at given
  obtain ⟨h, passed, given⟩ := word_of_ok given
  obtain ⟨b, content, after, live, there, given⟩ := use_of_ok given
  obtain rfl := Except.ok.inj given
  exact .size (by decide) passed live there

theorem gives_readBuffer {n : UInt32} (given : (readBuffer.run site).1 = .ok n) :
    Gives invoke site "read_exchange_buffer" n := by
  unfold readBuffer at given
  obtain ⟨h, passed, given⟩ := word_of_ok given
  obtain ⟨address, -, given⟩ := word_of_ok given
  obtain ⟨room, -, given⟩ := word_of_ok given
  obtain ⟨b, content, after, live, there, given⟩ := use_of_ok given
  have size : handle content.length = n := by
    split at given
    · rw [run_bind] at given
      cases come : ((Call.write address.toNat content).run after).1 with
      | error e =>
        rw [come] at given
        cases given
      | ok done =>
        rw [come] at given
        exact Except.ok.inj given
    · exact Except.ok.inj given
  exact size ▸ .size (by decide) passed live there

/-! ### All of them -/

/-- **What each core function hands over when it succeeds.** -/
theorem gives_of_calls : ∀ call ∈ calls, ∀ (site : Site) (n : UInt32),
    site.Fits (words call.2.1) → (call.2.2.run site).1 = .ok n → Gives invoke site call.1 n := by
  simp only [calls, List.forall_mem_cons, List.not_mem_nil, false_implies, implies_true, and_true]
  have zero {name : String} {count : Nat} {call : Call UInt32}
      (h : Hands (fun _ => True) (words count) call (· = 0)) (plain : silent.contains name = true)
      (site : Site) (n : UInt32) (fits : site.Fits (words count))
      (given : (call.run site).1 = .ok n) : Gives invoke site name n := by
    rw [h site fits trivial n given]
    exact .nothing (List.contains_iff_mem.mp plain)
  have fresh {name : String} {count : Nat} {call : Call UInt32}
      (h : ∀ word, Hands (NextWord word) (words count) call (· = word))
      (replies : replying.contains name = true) (site : Site) (n : UInt32)
      (fits : site.Fits (words count)) (given : (call.run site).1 = .ok n) :
      Gives invoke site name n := by
    rw [h _ site fits rfl n given]
    exact .buffer (List.contains_iff_mem.mp replies)
  refine ⟨fun site n fits given => ?_, fun site n fits given => ?_,
    fresh (fun word => hands_reply word []) rfl, zero hands_freeBuffer rfl,
    fun _ _ _ => gives_writeBuffer, zero hands_writeHeader rfl, zero hands_writeStatusCode rfl,
    fun _ _ _ => gives_bufferSize, fun _ _ _ => gives_readBuffer,
    fresh (fun _ => hands_readHeaders) rfl, fresh (fun _ => hands_encodeBase64) rfl,
    fresh (fun _ => hands_decodeBase64) rfl, fresh (fun _ => hands_registerBlob) rfl,
    fresh (fun _ => hands_registerNamedBlob) rfl, fresh (fun _ => hands_blobOfName) rfl,
    fresh (fun _ => hands_blobBytes) rfl, zero hands_persist rfl,
    fresh (fun _ => hands_persisted) rfl, fresh (fun _ => hands_persistedPairs) rfl,
    fresh (fun _ => hands_fetch) rfl, zero hands_printDebug rfl, zero hands_time rfl,
    fresh (fun _ => hands_status) rfl⟩
  · obtain rfl := Except.ok.inj given
    exact .input
  · obtain rfl := Except.ok.inj given
    exact .output

/-- A call by name that succeeds hands over what the nested invocation returned. -/
theorem gives_of_byName {n : UInt32} (given : ((Nesting.byName invoke).run site).1 = .ok n) :
    Gives invoke site "call_function" n := by
  cases come : (Nesting.namedContext.run site).1 with
  | error e =>
    simp only [Nesting.byName, run_bind, come] at given
    cases given
  | ok context =>
    have asked : Nesting.request? .name (Nesting.namedContext.run site) = some _ :=
      Nesting.request?_of_ok come
    rw [Nesting.run_byName asked] at given
    cases ended : ((invoke context).run (Nesting.namedContext.run site).2.world).1 with
    | ok context' =>
      rw [ended] at given
      exact Except.ok.inj given ▸ .nested asked ended
    | error e =>
      rw [ended] at given
      cases e <;> cases given

/-! ## The sentinel -/

/-- How a core function may succeed and hand over the sentinel all the same, at a site whose
registry has seen a history. -/
inductive Collides (invoke : Invoke) (site : Site) (history : List Exchange.Registry.Operation) :
    String → Prop
  | input (same : handle site.invocation.input = sentinel) :
      Collides invoke site history "get_input_buffer_id"
  | output (same : handle site.invocation.output = sentinel) :
      Collides invoke site history "get_output_buffer_id"
  | buffer {name : String} (replies : name ∈ replying)
      (same : handle site.world.registry.nextHandle = sentinel)
      (many : 65534 ≤ Exchange.Registry.registrations history) :
      Collides invoke site history name
  | count (same : site.arguments[2]? = some (.i32 sentinel)) :
      Collides invoke site history "write_exchange_buffer"
  | size {name : String} (sizes : name ∈ sizing) {h : UInt32} {b : Exchange.Buffer}
      {content : Bytes} (passed : site.arguments[0]? = some (.i32 h))
      (live : site.world.registry.find? h.toNat = some b) (there : b.read.1 = .ok content)
      (same : content.length % 2 ^ 32 = 65535) : Collides invoke site history name
  | nested {r : Request} {context : Context}
      (asked : (Backing.handler .callFunction).request? site = some r)
      (came : ((invoke r.context).run r.world).1 = .ok context)
      (same : Nesting.returned context = sentinel) :
      Collides invoke site history "call_function"

variable {history : List Exchange.Registry.Operation} {name : String}

/-- A function with nothing to say does not come to the sentinel. -/
theorem Collides.not_silent (h : Collides invoke site history name) : name ∉ silent := by
  cases h with
  | buffer replies => exact (by decide : ∀ name ∈ replying, name ∉ silent) _ replies
  | size sizes => exact (by decide : ∀ name ∈ sizing, name ∉ silent) _ sizes
  | _ => decide

/-- The handle of the sentinel is given out only after all smaller ones. -/
theorem many_of_nextHandle
    (same : handle (Exchange.Registry.after history).nextHandle = sentinel) :
    65534 ≤ Exchange.Registry.registrations history := by
  refine Nat.le_of_not_lt fun few => ?_
  have words : Exchange.Registry.registrations history < maxWord := by
    simp only [maxWord]
    omega
  obtain ⟨numbered, size⟩ := Exchange.Registry.numbered_after words
  have next := numbered.nextHandle_eq
  have value := congrArg UInt32.toNat same
  rw [toNat_handle (by simp only [maxWord] at words ⊢; omega), next, size] at value
  have sentinel : sentinel.toNat = 65535 := rfl
  omega

theorem Gives.collides {n : UInt32} (given : Gives invoke site name n)
    (reached : site.world.registry = Exchange.Registry.after history) (same : n = sentinel) :
    Collides invoke site history name := by
  cases given with
  | input => exact .input same
  | output => exact .output same
  | nothing plain => exact absurd same (by decide)
  | buffer replies => exact .buffer replies same (many_of_nextHandle (reached ▸ same))
  | count asked => exact .count (same ▸ asked)
  | size sizes passed live there =>
    exact .size sizes passed live there
      ((UInt32.toNat_ofNat').symm.trans (congrArg UInt32.toNat same))
  | nested asked came => exact .nested asked came same

end Core

namespace HostFunction

variable {f : HostFunction} {site : Site} {platform : Platform}

/-- What is done behind a host function comes to at a site, before a failure that the guest
survives becomes the sentinel. -/
abbrev performedAt (f : HostFunction) (platform : Platform) (site : Site) :
    Except CallError UInt32 := ((f.backing.run (invokingAt platform site)).run site).1

end HostFunction

namespace Core

open Call HostFunction

variable {f : HostFunction} {site : Site}

/-- A core function hands its value over as it is. -/
theorem outcomeAt_of_binds {platform : Platform} (bound : Core.provider.Binds f) :
    f.outcomeAt platform site =
      ((f.value (invokingAt platform site)).run site).1.map fun n => [.i32 n] := by
  rcases bound.offered Core.offers_typed with ⟨call, hcall, typed⟩ | typed
  · exact typed.run_call rfl
  · exact typed.run_call rfl

theorem gives_of_binds {platform : Platform} (bound : Core.provider.Binds f)
    (fits : site.Fits f.type.params) {n : UInt32} (performed : f.performedAt platform site = .ok n) :
    Gives (invokingAt platform site) site f.name n := by
  rcases bound.offered Core.offers_typed with ⟨call, hcall, typed⟩ | typed
  · rw [typed.params_eq] at fits
    rw [performedAt, typed.backing_eq] at performed
    rw [typed.name_eq]
    exact gives_of_calls call hcall site n fits performed
  · rw [performedAt, typed.backing_eq] at performed
    rw [typed.name_eq]
    exact gives_of_byName performed

/-- **A guest that gets the sentinel from a core function knows of a failure only if it can rule out
that the number is the function's own.** The registry has seen any history; the arguments have the
types that the function is bound with; memory, invocation, process and the rest of the world are
any. A failure that the guest survives gives the sentinel. A success gives what `Gives` says of the
function, and that is the sentinel in the cases of `Collides` only: among them are no function with
nothing to say, and no new buffer as long as fewer than 65534 were registered. -/
theorem sentinel_ambiguous_only (platform : Platform) (bound : Core.provider.Binds f)
    (fits : site.Fits f.type.params) {history : List Exchange.Registry.Operation}
    (reached : site.world.registry = Exchange.Registry.after history) :
    (∀ e, f.performedAt platform site = .error e → e.Survived →
      f.outcomeAt platform site = .ok [.i32 sentinel]) ∧
    (∀ n, f.performedAt platform site = .ok n →
      f.outcomeAt platform site = .ok [.i32 n] ∧
        Gives (invokingAt platform site) site f.name n) ∧
    (f.outcomeAt platform site = .ok [.i32 sentinel] →
      (∃ e, f.performedAt platform site = .error e ∧ e.Survived) ∨
        f.performedAt platform site = .ok sentinel ∧ f.name ∉ silent ∧
          Collides (invokingAt platform site) site history f.name) := by
  have succeeds {n : UInt32} (performed : f.performedAt platform site = .ok n) :
      f.outcomeAt platform site = .ok [.i32 n] := by
    rw [outcomeAt_of_binds bound, value_of_run performed]
    rfl
  refine ⟨fun e performed survived => ?_,
    fun n performed => ⟨succeeds performed, gives_of_binds bound fits performed⟩, fun given => ?_⟩
  · rw [outcomeAt_of_binds bound, value_of_survived performed survived]
    rfl
  · cases performed : f.performedAt platform site with
    | error e =>
      -- a failure that the guest does not survive hands nothing over
      refine .inl ⟨e, rfl, Classical.byContradiction fun lost => ?_⟩
      rw [outcomeAt_of_binds bound, value_eq_error_iff.mpr ⟨performed, lost⟩] at given
      cases given
    | ok n =>
      rw [succeeds performed] at given
      obtain rfl := Wasm.Value.i32.inj (List.cons.inj (Except.ok.inj given)).1
      have collides := (gives_of_binds bound fits performed).collides reached rfl
      exact .inr ⟨rfl, collides.not_silent, collides⟩

/-! ### New buffers -/

/-- The core function that makes a buffer, as it is bound. -/
def creating : HostFunction :=
  coreFunction "create_exchange_buffer" (.i32s 0) (.native createBuffer)

/-- Where a guest calls it after so many buffers have been made. -/
def crowded (count : Nat) : Site :=
  { bare [] with world := { World.fresh .offline 0 with
    registry := Exchange.Registry.after (List.replicate count .create) } }

theorem binds_creating : Core.provider.Binds creating :=
  binds_coreFunction ("create_exchange_buffer", 0, createBuffer) (by simp [calls])

theorem fits_crowded (count : Nat) : (crowded count).Fits creating.type.params := rfl

theorem registry_crowded (count : Nat) :
    (crowded count).world.registry = Exchange.Registry.after (List.replicate count .create) := rfl

theorem performedAt_crowded (platform : Platform) {count : Nat} (few : count < maxWord) :
    creating.performedAt platform (crowded count) = .ok (handle (count + 1)) := by
  have registered : Exchange.Registry.registrations (List.replicate count .create) = count := by
    rw [Exchange.Registry.registrations, List.countP_replicate]
    rfl
  obtain ⟨numbered, size⟩ := Exchange.Registry.numbered_after (registered.symm ▸ few)
  have next := numbered.nextHandle_eq
  rw [size, registered] at next
  rw [← next]
  rfl

/-- The first buffer gets a handle that is told from the sentinel. -/
theorem sentinel_ambiguous_only_first :
    creating.outcomeAt (.standard .default) (crowded 0) = .ok [.i32 1] := by
  have performed := performedAt_crowded (.standard .default) (show 0 < maxWord by decide)
  exact ((sentinel_ambiguous_only (.standard .default) binds_creating
    (fits_crowded 0) (registry_crowded 0)).2.1 _ performed).1

/-- The buffer behind 65534 others gets the sentinel for its handle, though making it has not
failed. -/
theorem sentinel_handed_out :
    Core.provider.Binds creating ∧ (crowded 65534).Fits creating.type.params ∧
      (crowded 65534).world.registry =
        Exchange.Registry.after (List.replicate 65534 .create) ∧
      creating.performedAt (.standard .default) (crowded 65534) = .ok sentinel ∧
      creating.outcomeAt (.standard .default) (crowded 65534) = .ok [.i32 sentinel] := by
  have performed : creating.performedAt (.standard .default) (crowded 65534) = .ok sentinel :=
    performedAt_crowded (.standard .default) (by decide)
  refine ⟨binds_creating, fits_crowded _, registry_crowded _, performed, ?_⟩
  rw [outcomeAt_of_binds binds_creating, value_of_run performed]
  rfl

end Core

end GuestHost
