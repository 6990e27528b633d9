import GuestHost.Proofs.HostCalls.Looks
import GuestHost.Proofs.HostCalls.Sentinel
/-!
# What core functions reply

A core function whose answer is more than a word puts it into a new buffer and hands over the
handle. What it answers is settled by what it sees when it is called, `Core.result?`, and it asks
for the buffer last of all. So if there is an answer, the new buffer holds it and is all that has
come or gone in the books of the registry, and if there is none, the call fails and the books are
as they were: `Core.replies_calls`.
-/

namespace GuestHost

open Stateful Exchange Posix.Syscall

/-! ## The books of a registry -/

namespace Exchange.Registry

variable {r r' : Registry}

/-- What a registry keeps books of. The buffers themselves are no part of it. -/
structure Books where
  next : Nat
  /-- The places of the live handles. -/
  handles : Table Nat Place
  /-- The number of places. -/
  places : Nat
  created : Nat
  released : Nat

/-- The books of a registry. -/
def books (r : Registry) : Books := ⟨r.next, r.handles, r.buffers.size, r.created, r.released⟩

theorem nextHandle_eq_of_books (same : r.books = r'.books) : r.nextHandle = r'.nextHandle := by
  obtain ⟨next, handles, -⟩ := Books.mk.inj same
  rw [nextHandle, nextHandle, next, handles]

/-- A use of a buffer is not entered in the books. -/
theorem books_useAt {α : Type} (r : Registry) (place : Place)
    (operation : Buffer → Except Error α × Buffer) :
    (r.useAt place operation).2.books = r.books := by
  rw [books, size_useAt]
  unfold useAt
  split <;> rfl

/-- A buffer registered is entered in the books, whatever it holds. -/
theorem books_register (same : r.books = r'.books) (buffer : Buffer) :
    (r.register buffer).books =
      { r'.books with
        next := following r'.nextHandle
        handles := r'.handles.insert r'.nextHandle r'.buffers.size
        places := r'.buffers.size + 1
        created := r'.created + 1 } := by
  obtain ⟨-, handles, places, created, released⟩ := Books.mk.inj same
  have size : (r.register buffer).buffers.size = r.buffers.size + 1 := Array.size_push _
  rw [books, size]
  simp only [register, books, nextHandle_eq_of_books same, handles, places, created, released]

end Exchange.Registry

theorem World.steady_books (books : Registry.Books) : Steady fun w => w.registry.books = books :=
  steady_of_registry (P := fun r => r.books = books) fun same _ place operation =>
    (Registry.books_useAt _ place operation).trans same

/-! ## What host calls get -/

namespace Call

variable {α β : Type} {x : Call α} {seen? : Site → Option α} {f : α → Call β}

/-- A host call that gets something, or fails for want of it, and leaves the books of the registry
as they are. -/
def Gets (x : Call α) (got? : Site → Option α) : Prop :=
  ∀ site, (x.run site).2.world.registry.books = site.world.registry.books ∧
    (x.run site).1.toOption = got? site

theorem Reads.gets (h : Reads x seen?) : Gets x seen? := fun site =>
  ⟨congrArg (fun s : Site => s.world.registry.books) (h site).1, (h site).2⟩

theorem gets_access (access : Store.Blob.Access α) :
    Gets (Call.access access) fun site => (access site.world.shelf).1.toOption := by
  intro site
  unfold Call.access attempt World.store
  simp only [run_bind, run_world, run_setWorld]
  cases (access site.world.shelf).1 <;> exact ⟨rfl, rfl⟩

/-- A look at the buffer of a handle. -/
theorem gets_use (handle : Nat) (look : Buffer → Except Exchange.Error α) :
    Gets (use handle fun buffer => (look buffer, buffer)) fun site =>
      (site.world.registry.look handle look).toOption := by
  intro site
  beta_reduce
  rw [run_use]
  refine ⟨(World.steady_books site.world.registry.books).use handle _ rfl, ?_⟩
  have seen : (site.world.use handle fun buffer => (look buffer, buffer)).1.toOption =
      (site.world.registry.look handle look).toOption := by
    unfold World.use Registry.use Registry.useAt Registry.look Registry.find?
    cases site.world.registry.place? handle with
    | none => rfl
    | some place =>
      dsimp only [Option.bind_some]
      cases site.world.registry.at? place <;> rfl
  rw [← seen]
  cases (site.world.use handle fun buffer => (look buffer, buffer)).1 <;> rfl

/-! ## Replies -/

/-- A host call that answers with what it has got, if it has got anything. The answer goes into a
new buffer, whose handle is handed over; without one the call fails and the books of the registry
are as they were. -/
def Replies (x : Call UInt32) (answer? : Site → Option Bytes) : Prop :=
  ∀ site,
    match answer? site with
    | some content =>
      (x.run site).1 = .ok (handle site.world.registry.nextHandle) ∧
        ∃ r : Registry, r.books = site.world.registry.books ∧
          (x.run site).2.world.registry = r.register (.memory (.ofContent content))
    | none =>
      (∃ e, (x.run site).1 = .error e) ∧
        (x.run site).2.world.registry.books = site.world.registry.books

theorem replies_reply (content : Bytes) : Replies (reply content) fun _ => some content :=
  fun site => ⟨rfl, site.world.registry, rfl, rfl⟩

theorem replies_refuse (reason : Reason) : Replies (refuse reason) fun _ => none :=
  fun _ => ⟨⟨_, rfl⟩, rfl⟩

/-- **A look before a reply.** -/
theorem Reads.replies {reply : α → Call UInt32} {answer? : α → Site → Option Bytes}
    (hx : Reads x seen?) (hf : ∀ a, Replies (reply a) (answer? a)) :
    Replies (x >>= reply) fun site => (seen? site).bind fun a => answer? a site := by
  intro site
  obtain ⟨same, seen⟩ := hx site
  beta_reduce
  rw [run_bind, ← seen]
  cases come : (x.run site).1 with
  | error e => exact ⟨⟨e, rfl⟩, congrArg (fun s : Site => s.world.registry.books) same⟩
  | ok a =>
    dsimp only [Except.toOption, Option.bind_some]
    rw [same]
    exact hf a site

/-- **Something got before a reply** that depends on nothing else. -/
theorem Gets.replies {reply : α → Call UInt32} {answer? : α → Option Bytes}
    (hx : Gets x seen?) (hf : ∀ a, Replies (reply a) fun _ => answer? a) :
    Replies (x >>= reply) fun site => (seen? site).bind answer? := by
  intro site
  obtain ⟨same, seen⟩ := hx site
  beta_reduce
  rw [run_bind, ← seen]
  cases come : (x.run site).1 with
  | error e => exact ⟨⟨e, rfl⟩, same⟩
  | ok a =>
    dsimp only [Except.toOption, Option.bind_some]
    have then_ := hf a (x.run site).2
    -- what is entered in the books next depends on the books alone
    cases answer : answer? a with
    | none =>
      rw [answer] at then_
      exact ⟨then_.1, then_.2.trans same⟩
    | some content =>
      rw [answer] at then_
      obtain ⟨word, r, before, after⟩ := then_
      rw [Registry.nextHandle_eq_of_books same] at word
      exact ⟨word, r, before.trans same, after⟩

end Call

/-! ## The core functions that reply -/

namespace Core

open Call

theorem replies_readHeaders : Replies readHeaders fun site =>
    (argument? site 0).bind fun handle =>
      (site.world.registry.look handle Buffer.headers).toOption.bind fun headers =>
        some (Pairs.encode
          (headers.map fun (name, value) => (Utf8.encode name, Utf8.encode value))) :=
  (reads_word 0).replies fun handle => (gets_use handle Buffer.headers).replies fun _ =>
    replies_reply _

theorem replies_encodeBase64 : Replies encodeBase64 fun site =>
    (site.bytes? 0 1).bind fun bytes => some (Base64.encode bytes) :=
  (reads_bytes 0 1).replies fun _ => replies_reply _

theorem replies_decodeBase64 : Replies decodeBase64 fun site =>
    (site.bytes? 0 1).bind Base64.decode? := by
  refine (reads_bytes 0 1).gets.replies fun bytes => ?_
  cases Base64.decode? bytes with
  | some decoded => exact replies_reply decoded
  | none => exact replies_refuse .base64

theorem replies_registerBlob : Replies registerBlob fun site =>
    (site.text? 0 1).bind fun contentType => (site.bytes? 2 3).bind fun bytes =>
      (Store.Blob.register contentType bytes site.world.shelf).1.toOption.bind fun id =>
        some (Utf8.encode id) :=
  (reads_text 0 1).replies fun _ => (reads_bytes 2 3).replies fun _ =>
    (gets_access _).replies fun _ => replies_reply _

theorem replies_registerNamedBlob : Replies registerNamedBlob fun site =>
    (site.text? 0 1).bind fun name => (site.text? 2 3).bind fun contentType =>
      (site.bytes? 4 5).bind fun bytes =>
        (Store.Blob.registerNamed name contentType bytes site.world.shelf).1.toOption.bind
          fun id => some (Utf8.encode id) :=
  (reads_text 0 1).replies fun _ => (reads_text 2 3).replies fun _ =>
    (reads_bytes 4 5).replies fun _ => (gets_access _).replies fun _ => replies_reply _

theorem replies_blobOfName : Replies blobOfName fun site =>
    (site.text? 0 1).bind fun name =>
      (site.look? fun shelf => Store.Blob.resolveAlias shelf name).bind fun id =>
        some (Utf8.encode id) :=
  (reads_text 0 1).replies fun _ => (reads_look _).replies fun _ => replies_reply _

theorem replies_blobBytes : Replies blobBytes fun site =>
    (site.text? 0 1).bind fun reference =>
      (site.look? fun shelf => Store.Blob.resolve shelf reference).bind fun id =>
        site.look? fun shelf => Store.Blob.bytesOf shelf id := by
  refine (reads_text 0 1).replies fun _ => (reads_look _).replies fun id => ?_
  simpa using (reads_look fun shelf => Store.Blob.bytesOf shelf id).replies replies_reply

theorem replies_persisted : Replies persisted fun site =>
    (site.bytes? 0 1).bind fun key =>
      (site.look? fun shelf => Store.Persistence.get shelf key).bind id := by
  refine (reads_bytes 0 1).replies fun key => (reads_look _).gets.replies fun value => ?_
  cases value with
  | some value => exact replies_reply value
  | none => exact replies_refuse _

theorem replies_persistedPairs : Replies persistedPairs fun site =>
    (site.bytes? 0 1).bind fun start =>
      (site.look? fun shelf => Store.Persistence.subset shelf start).bind fun pairs =>
        some (Pairs.encode pairs) :=
  (reads_bytes 0 1).replies fun _ => (reads_look _).replies fun _ => replies_reply _

theorem replies_fetch : Replies fetch fun site =>
    (site.text? 0 1).bind fun address =>
      (site.world.web.target? address).bind fun url => site.world.web.fetch url := by
  refine (reads_text 0 1).replies fun address site => ?_
  rw [run_bind, run_world]
  dsimp only
  cases site.world.web.target? address with
  | none => exact replies_refuse .fetch site
  | some url =>
    -- the request is noted in the log, which is no part of the registry
    have books : (site.world.fetch url).2.registry.books = site.world.registry.books := rfl
    simp only [run_bind, run_world, run_setWorld, Option.bind_some]
    cases body : site.world.web.fetch url with
    | none =>
      rw [show (site.world.fetch url).1 = none from body]
      exact ⟨⟨_, rfl⟩, books⟩
    | some content =>
      rw [show (site.world.fetch url).1 = some content from body]
      exact ⟨rfl, _, books, rfl⟩

theorem replies_status : Replies status fun site =>
    (site.look? Store.Blob.names).bind fun names =>
      some (statusText site.world.registry.stats names) :=
  (reads_get Site.world).replies fun _ =>
    (reads_look Store.Blob.names).replies fun _ => replies_reply _

/-- **What a core function answers** at a site, if it is one that puts its answer into a buffer and
if nothing that it needs is missing there. -/
def result? (site : Site) : String → Option Bytes
  | "create_exchange_buffer" => some []
  | "read_exchange_buffer_headers" => do
    let handle ← argument? site 0
    let headers ← (site.world.registry.look handle Buffer.headers).toOption
    return Pairs.encode (headers.map fun (name, value) => (Utf8.encode name, Utf8.encode value))
  | "base64_encode" => do return Base64.encode (← site.bytes? 0 1)
  | "base64_decode" => do Base64.decode? (← site.bytes? 0 1)
  | "register_blob" => do
    let contentType ← site.text? 0 1
    let bytes ← site.bytes? 2 3
    let id ← (Store.Blob.register contentType bytes site.world.shelf).1.toOption
    return Utf8.encode id
  | "register_blob_with_name" => do
    let name ← site.text? 0 1
    let contentType ← site.text? 2 3
    let bytes ← site.bytes? 4 5
    let id ← (Store.Blob.registerNamed name contentType bytes site.world.shelf).1.toOption
    return Utf8.encode id
  | "get_blob_tech_id_from_name" => do
    let name ← site.text? 0 1
    let id ← site.look? fun shelf => Store.Blob.resolveAlias shelf name
    return Utf8.encode id
  | "get_blob_bytes_as_string" => do
    let reference ← site.text? 0 1
    let id ← site.look? fun shelf => Store.Blob.resolve shelf reference
    site.look? fun shelf => Store.Blob.bytesOf shelf id
  | "persistence_get" => do
    let key ← site.bytes? 0 1
    let value ← site.look? fun shelf => Store.Persistence.get shelf key
    value
  | "persistence_get_subset" => do
    let start ← site.bytes? 0 1
    let pairs ← site.look? fun shelf => Store.Persistence.subset shelf start
    return Pairs.encode pairs
  | "get_url" => do
    let url ← site.world.web.target? (← site.text? 0 1)
    site.world.web.fetch url
  | "get_status" => do
    let names ← site.look? Store.Blob.names
    return statusText site.world.registry.stats names
  | _ => none

/-- **Every core function whose answer goes into a buffer replies with it.** -/
theorem replies_calls : ∀ call ∈ calls, call.1 ∈ replying →
    Replies call.2.2 fun site => result? site call.1 := by
  simp only [calls, List.forall_mem_cons, List.not_mem_nil, false_implies, implies_true, and_true]
  have other {name : String} {x : Call UInt32} (h : replying.contains name = false)
      (listed : name ∈ replying) : Replies x fun site => result? site name := by
    rw [List.contains_iff_mem.mpr listed] at h
    cases h
  exact ⟨other rfl, other rfl, fun _ => replies_reply [], other rfl, other rfl, other rfl,
    other rfl, other rfl, other rfl, fun _ => replies_readHeaders,
    fun _ => replies_encodeBase64, fun _ => replies_decodeBase64, fun _ => replies_registerBlob,
    fun _ => replies_registerNamedBlob, fun _ => replies_blobOfName, fun _ => replies_blobBytes,
    other rfl, fun _ => replies_persisted, fun _ => replies_persistedPairs, fun _ => replies_fetch,
    other rfl, other rfl, fun _ => replies_status⟩

end Core

end GuestHost
