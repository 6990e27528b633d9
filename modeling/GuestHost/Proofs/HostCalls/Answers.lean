import GuestHost.Proofs.Encodings
import GuestHost.Proofs.HostCalls.Replies
import GuestHost.Proofs.Json
import GuestHost.Proofs.Store.History
import GuestHost.Proofs.Store.Scan
/-!
# What answers tell

What a core function answers is computed, `Core.result?`. Here it is told from the other end:
`Core.Answers` says what an answer is read back as, or where in the host it stands, and names none of
the functions that write answers. Pairs are decoded to what is listed of headers and of the store, a
text in base64 to the bytes that were given, and the state of the host is a JSON document,
`Core.tells_statusText`. Every answer is such a one: `Core.answers_of_result`.
-/

namespace GuestHost

open Stateful Exchange Posix.Syscall

/-! ## What is listed -/

/-- A list of pairs holds just what is found of them, each key once and in the order of bytes. -/
structure Pairs.Lists (pairs : List (Bytes × Bytes)) (found : Bytes → Bytes → Prop) : Prop where
  sorted : pairs.Pairwise fun pair later => pair.1 < later.1
  mem_iff : ∀ key value, (key, value) ∈ pairs ↔ found key value

namespace Exchange.Buffer

/-- The headers of a buffer that gives them back. -/
def headers? : Buffer → Option Headers
  | memory b => some b.headers
  | request b => some b.headers
  | response _ => none
  | socket b => some b.headers

/-- Headers as a guest gets them. -/
def listed (headers : Headers) : List (Bytes × Bytes) :=
  headers.entries.map fun (name, value) => (Utf8.encode name, Utf8.encode value)

theorem headers_eq_ok_iff {b : Buffer} {entries : List (String × String)} :
    b.headers = .ok entries ↔ ∃ headers, b.headers? = some headers ∧ headers.entries = entries := by
  cases b with
  | response b => exact iff_of_false nofun nofun
  | memory b | request b | socket b => simp [headers, headers?]

/-- Texts stand in the order of their bytes. -/
theorem lists_listed (headers : Headers) :
    Pairs.Lists (listed headers) fun key value => ∃ name text,
      headers.find? name = some text ∧ Utf8.encode name = key ∧ Utf8.encode text = value where
  sorted := headers.sorted.map _ fun _ _ lt => Utf8.encode_lt_iff.mpr lt
  mem_iff key value := by
    simp only [listed, List.mem_map, Prod.exists, Prod.mk.injEq, Table.find?_eq_some_iff]

end Exchange.Buffer

namespace Store

variable {shelf : Shelf} {start : Bytes}

/-- **What is stored under the keys with a given start**, without the name space. -/
theorem Persistence.subset_lists (unbroken : shelf.fails .scan (fullKey start) = false) :
    ∃ pairs, subset shelf start = .ok pairs ∧ Pairs.Lists pairs fun key value =>
      start <+: key ∧ shelf.entries.find? (fullKey key) = some value :=
  ⟨_, subset_eq unbroken, Shelf.sorted_inSpace, fun _ _ => Shelf.mem_inSpace⟩

theorem Persistence.lists_of_subset {pairs : List (Bytes × Bytes)}
    (listed : subset shelf start = .ok pairs) : Pairs.Lists pairs fun key value =>
      start <+: key ∧ shelf.entries.find? (fullKey key) = some value := by
  cases unbroken : shelf.fails .scan (fullKey start) with
  | false =>
    obtain ⟨pairs', listed', lists⟩ := subset_lists unbroken
    obtain rfl := Except.ok.inj (listed.symm.trans listed')
    exact lists
  | true =>
    have broken : subset shelf start = .error Shelf.injected := by
      rw [subset, Shelf.scan, if_pos unbroken]
      rfl
    cases listed.symm.trans broken

namespace Blob

variable {name contentType : String} {id : ContentId} {bytes : Bytes}

theorem id_of_register (registered : (register contentType bytes shelf).1 = .ok id) :
    id = idOf bytes := by
  have h := registered_register contentType bytes shelf
  rw [← Prod.mk.eta (p := register contentType bytes shelf), registered] at h
  exact h.eq_idOf

theorem id_of_registerNamed (registered : (registerNamed name contentType bytes shelf).1 = .ok id) :
    id = idOf bytes := by
  unfold registerNamed at registered
  split at registered
  · cases registered
  · rename_i own _ first
    split at registered
    · cases registered
    · obtain rfl : own = id := Except.ok.inj registered
      exact id_of_register (congrArg Prod.fst first)

/-- What a name is resolved to is stored for it. -/
theorem find?_of_resolveAlias (resolved : resolveAlias shelf name = .ok id) :
    shelf.entries.find? (nameKey name) = some (Utf8.encode id) := by
  unfold resolveAlias at resolved
  cases get : shelf.get (nameKey name) with
  | error e =>
    rw [get] at resolved
    cases resolved
  | ok value =>
    have stored : shelf.entries.find? (nameKey name) = value :=
      Shelf.value?_of_get (k := .name name) get
    rw [get] at resolved
    cases value with
    | none => cases resolved
    | some text =>
      simp only [bind, Except.bind, Utf8.read] at resolved
      cases read : Utf8.decode? text with
      | none =>
        rw [read] at resolved
        cases resolved
      | some own =>
        rw [read] at resolved
        obtain rfl : own = id := Except.ok.inj resolved
        rw [stored, Utf8.decode?_eq_some_iff.mp read]

end Blob

end Store

namespace Core

/-! ## The state of a host -/

/-- A document tells how much a registry has been used and what the names are, the last of two with
one spelling. -/
def Tells (stats : Stats) (names : List (String × Store.ContentId)) (document : Json) : Prop :=
  ∃ blobs created live released,
    document = .object [(some "blobs", .object blobs), (some "exchange_buffers",
      .object [(some "created", created), (some "live", live), (some "released", released)])] ∧
    (blobs.map Prod.fst).Nodup ∧
    (∀ m, m ∈ blobs ↔
      ∃ name id, names.reverse.lookup name = some id ∧ m = (some name, .string (some id))) ∧
    created.int? = some stats.created ∧ live.int? = some stats.live ∧
    released.int? = some stats.released

/-- **The state of a host** is read as what it tells. -/
theorem tells_statusText (stats : Stats) (names : List (String × Store.ContentId)) :
    ∃ document, Json.parse? (statusText stats names) = some document ∧
      Tells stats names document := by
  let table := Table.ofList names
  let blobs : Json.Members := table.entries.map fun entry =>
    (entry.1, Json.quoted entry.2, .string (some entry.2))
  let counts : Json.Members :=
    [("created", Json.decimal stats.created, .number (Json.decimal stats.created)),
      ("live", Json.decimal stats.live, .number (Json.decimal stats.live)),
      ("released", Json.decimal stats.released, .number (Json.decimal stats.released))]
  have named : blobs.Spelled := by
    intro m hm
    obtain ⟨e, -, rfl⟩ := List.mem_map.mp hm
    exact Json.spells_quoted e.2
  have counted : counts.Spelled := by
    simp only [counts, Json.Members.Spelled, List.forall_mem_cons, List.not_mem_nil, false_implies,
      implies_true, and_true]
    exact ⟨Json.spells_decimal _, Json.spells_decimal _, Json.spells_decimal _⟩
  let members : Json.Members :=
    [("blobs", Json.braced (blobs.map fun m => (m.1, m.2.1)), .object blobs.documents),
      ("exchange_buffers", Json.braced (counts.map fun m => (m.1, m.2.1)),
        .object counts.documents)]
  have spelled : members.Spelled := by
    simp only [members, Json.Members.Spelled, List.forall_mem_cons, List.not_mem_nil, false_implies,
      implies_true, and_true]
    exact ⟨Json.spells_braced named, Json.spells_braced counted⟩
  have written : statusText stats names = Json.braced (members.map fun m => (m.1, m.2.1)) := by
    simp only [members, blobs, statusText, List.map_map]
    rfl
  refine ⟨.object members.documents, ?_, blobs.documents, _, _, _, rfl, ?_, ?_,
    Json.int?_decimal _, Json.int?_decimal _, Json.int?_decimal _⟩
  · rw [written]
    exact (Json.spells_braced spelled).parse?_eq
  · have keys : blobs.documents.map Prod.fst = table.keys.map some := by
      simp only [blobs, Json.Members.documents, Table.keys, List.map_map]
      rfl
    rw [keys]
    exact table.nodup_keys.map (Option.some_injective _)
  · intro m
    have docs : blobs.documents = table.entries.map fun e => (some e.1, .string (some e.2)) := by
      simp only [blobs, Json.Members.documents, List.map_map]
      rfl
    have found (name : String) (id : Store.ContentId) :
        (name, id) ∈ table.entries ↔ names.reverse.lookup name = some id := by
      rw [← Table.find?_eq_some_iff, Table.find?_ofList]
    simp only [docs, List.mem_map, Prod.exists, found, @eq_comm _ m]

/-! ## Answers -/

/-- What the answer of a core function is, told by what it is read back as or where it stands. -/
inductive Answers (site : Site) : String → Bytes → Prop where
  | create : Answers site "create_exchange_buffer" []
  /-- The headers of a buffer. -/
  | headers {handle : Nat} {b : Buffer} {headers : Headers} {pairs : List (Bytes × Bytes)}
      {content : Bytes} (passed : argument? site 0 = some handle)
      (live : site.world.registry.find? handle = some b) (given : b.headers? = some headers)
      (lists : Pairs.Lists pairs fun key value => ∃ name text,
        headers.find? name = some text ∧ Utf8.encode name = key ∧ Utf8.encode text = value)
      (read : Pairs.Encodable pairs → Pairs.decode? content = some (pairs, [])) :
      Answers site "read_exchange_buffer_headers" content
  /-- Letters that spell the bytes that are passed. -/
  | encoded {bytes content : Bytes} (passed : site.bytes? 0 1 = some bytes)
      (read : Base64.decode? content = some bytes)
      (length : content.length = (bytes.length + 2) / 3 * 4) :
      Answers site "base64_encode" content
  /-- The bytes that are spelled by the letters that are passed. -/
  | decoded {text content : Bytes} (passed : site.bytes? 0 1 = some text)
      (spelled : Base64.encode content = text) : Answers site "base64_decode" content
  /-- The digest of the bytes that are passed. -/
  | registered {contentType : String} {bytes : Bytes} (typed : site.text? 0 1 = some contentType)
      (passed : site.bytes? 2 3 = some bytes) :
      Answers site "register_blob" (Utf8.encode (Store.Blob.idOf bytes))
  | registeredNamed {name contentType : String} {bytes : Bytes} (named : site.text? 0 1 = some name)
      (typed : site.text? 2 3 = some contentType) (passed : site.bytes? 4 5 = some bytes) :
      Answers site "register_blob_with_name" (Utf8.encode (Store.Blob.idOf bytes))
  /-- What is stored for a name. -/
  | pointed {name : String} {content : Bytes} (named : site.text? 0 1 = some name)
      (stored : site.world.shelf.entries.find? (Store.Blob.nameKey name) = some content) :
      Answers site "get_blob_tech_id_from_name" content
  /-- The bytes that are stored for what a reference stands for. -/
  | blob {reference : String} {id : Store.ContentId} {content : Bytes}
      (named : site.text? 0 1 = some reference)
      (resolved : Store.Blob.resolve site.world.shelf reference = .ok id)
      (stored : site.world.shelf.entries.find? (Store.Blob.bytesKey id) = some content) :
      Answers site "get_blob_bytes_as_string" content
  /-- The value that is stored under a key. -/
  | value {key content : Bytes} (passed : site.bytes? 0 1 = some key)
      (stored : site.world.shelf.entries.find? (Store.Persistence.fullKey key) = some content) :
      Answers site "persistence_get" content
  /-- All that is stored under keys with a given start. -/
  | subset {start content : Bytes} {pairs : List (Bytes × Bytes)}
      (passed : site.bytes? 0 1 = some start)
      (lists : Pairs.Lists pairs fun key value => start <+: key ∧
        site.world.shelf.entries.find? (Store.Persistence.fullKey key) = some value)
      (read : Pairs.Encodable pairs → Pairs.decode? content = some (pairs, [])) :
      Answers site "persistence_get_subset" content
  /-- The body of the page at an address. -/
  | page {address : String} {url : Url} {page : Page} (passed : site.text? 0 1 = some address)
      (client : site.world.web.client = true) (read : site.world.web.address? address = some url)
      (got : site.world.web.page? url = some page) (fine : page.status < 400 ∨ 600 ≤ page.status) :
      Answers site "get_url" page.body
  /-- The state of the host. -/
  | status {names : List (String × Store.ContentId)} {document : Json} {content : Bytes}
      (listed : Store.Blob.names site.world.shelf = .ok names)
      (read : Json.parse? content = some document)
      (tells : Tells site.world.registry.stats names document) :
      Answers site "get_status" content

/-- **Every answer is what it should be.** -/
theorem answers_of_result {site : Site} {name : String} {content : Bytes}
    (answer : result? site name = some content) : Answers site name content := by
  unfold result? at answer
  split at answer
  -- what is passed and what is found come before the answer
  any_goals simp only [Option.bind_eq_bind, Option.bind_eq_some_iff, Option.pure_def,
    Option.some.injEq] at answer
  · obtain rfl := answer
    exact .create
  · obtain ⟨handle, passed, entries, look, rfl⟩ := answer
    have look := toOption_eq_some_iff.mp look
    unfold Registry.look at look
    split at look
    · rename_i b live
      obtain ⟨headers, given, rfl⟩ := Buffer.headers_eq_ok_iff.mp look
      exact .headers passed live given (Buffer.lists_listed headers) Pairs.decode?_encode
    · cases look
  · obtain ⟨bytes, passed, rfl⟩ := answer
    exact .encoded passed (Base64.decode?_encode bytes) (Base64.length_encode bytes)
  · obtain ⟨text, passed, read⟩ := answer
    exact .decoded passed (Base64.encode_of_decode? read)
  · obtain ⟨contentType, typed, bytes, passed, id, registered, rfl⟩ := answer
    rw [Store.Blob.id_of_register (toOption_eq_some_iff.mp registered)]
    exact .registered typed passed
  · obtain ⟨name, named, contentType, typed, bytes, passed, id, registered, rfl⟩ := answer
    rw [Store.Blob.id_of_registerNamed (toOption_eq_some_iff.mp registered)]
    exact .registeredNamed named typed passed
  · obtain ⟨name, named, id, resolved, rfl⟩ := answer
    exact .pointed named (Store.Blob.find?_of_resolveAlias (toOption_eq_some_iff.mp resolved))
  · obtain ⟨reference, named, id, resolved, read⟩ := answer
    exact .blob named (toOption_eq_some_iff.mp resolved)
      (Store.Blob.value?_of_bytesOf (toOption_eq_some_iff.mp read))
  · obtain ⟨key, passed, value, read, rfl⟩ := answer
    exact .value passed (Store.Shelf.value?_of_get (k := .guest key) (toOption_eq_some_iff.mp read))
  · obtain ⟨start, passed, pairs, listed, rfl⟩ := answer
    have listed := toOption_eq_some_iff.mp listed
    exact .subset passed (Store.Persistence.lists_of_subset listed) Pairs.decode?_encode
  · obtain ⟨address, passed, url, target, got⟩ := answer
    unfold Web.target? at target
    unfold Web.fetch at got
    split at target
    · rename_i client
      split at got
      · rename_i page came
        split at got
        · cases got
        · rename_i fine
          obtain rfl := Option.some.inj got
          refine .page passed client target came ?_
          simpa [Page.fails, Nat.lt_or_ge, imp_iff_not_or] using fine
      · cases got
    · cases target
  · obtain ⟨names, listed, rfl⟩ := answer
    obtain ⟨document, read, tells⟩ := tells_statusText site.world.registry.stats names
    exact .status (toOption_eq_some_iff.mp listed) read tells
  · cases answer

end Core

end GuestHost
