import GuestHost.Proofs.HostCalls.Accounts
/-!
# Pairs are read back

Two core functions reply with encodings of lists of pairs: one with the headers of a buffer, the
other with what is stored under the keys with a given start. What a guest decodes is just that, in
order: `Core.pairs_read_back`.
-/

namespace GuestHost

open Exchange Posix.Syscall

/-! ## The replies -/

/-- The reply to a host call decodes to a list of pairs and nothing behind it. -/
def HostCall.RepliesPairs (invoke : Invoke) (c : HostCall) (pairs : List (Bytes × Bytes)) : Prop :=
  ∃ n content, c.outcome invoke = .ok [.i32 n] ∧
    (c.left invoke).find? n.toNat = some (.memory (.ofContent content)) ∧
    Pairs.decode? content = some (pairs, [])

namespace Core

open HostFunction

variable {c : HostCall} {invoke : Invoke} {pairs : List (Bytes × Bytes)}

/-- A reply with an encoding decodes to the pairs. -/
theorem repliesPairs_of_result (core : c.OfCore) (replies : c.function.name ∈ replying)
    (ready : c.before.Ready) (encodable : Pairs.Encodable pairs)
    (answer : result? c.site c.function.name = some (Pairs.encode pairs)) :
    c.RepliesPairs invoke pairs := by
  obtain ⟨n, made, -, found, -⟩ := replied_of_result invoke core.bound replies ready answer
  refine ⟨n, Pairs.encode pairs, outcome_of_performed core made, found, ?_⟩
  exact Pairs.decode?_encode encodable

/-- **The headers of a buffer** are decoded from the reply to a call for them. -/
theorem repliesPairs_headers (core : c.OfCore)
    (named : c.function.name = "read_exchange_buffer_headers") (ready : c.before.Ready)
    {handle : Nat}
    {b : Buffer} {headers : Headers} (passed : argument? c.site 0 = some handle)
    (live : c.before.find? handle = some b) (given : b.headers? = some headers)
    (encodable : Pairs.Encodable (Buffer.listed headers)) :
    c.RepliesPairs invoke (Buffer.listed headers) := by
  refine repliesPairs_of_result core (named ▸ by decide) ready encodable ?_
  have look : c.site.world.registry.look handle Buffer.headers = .ok headers.entries := by
    rw [Registry.look, live]
    exact Buffer.headers_eq_ok_iff.mpr ⟨headers, given, rfl⟩
  rw [named]
  show (argument? c.site 0).bind _ = _
  rw [passed, Option.bind_some, look]
  rfl

/-- **The pairs stored under the keys with a given start** are decoded from the reply to a call for
them. -/
theorem repliesPairs_subset (core : c.OfCore)
    (named : c.function.name = "persistence_get_subset") (ready : c.before.Ready) {start : Bytes}
    (passed : c.site.bytes? 0 1 = some start)
    (listed : Store.Persistence.subset c.site.world.shelf start = .ok pairs)
    (encodable : Pairs.Encodable pairs) : c.RepliesPairs invoke pairs := by
  refine repliesPairs_of_result core (named ▸ by decide) ready encodable ?_
  rw [named]
  show (c.site.bytes? 0 1).bind _ = _
  rw [passed, Option.bind_some, Site.look?, listed]
  rfl

/-- **Pairs are read back.** A list of pairs whose numbers are words is decoded from its encoding
and whatever follows it, so lists with one encoding are one list and no encoding is the start of
another. The reply to a call for the headers of a memory, request or socket buffer decodes to just
its headers, and the reply to a call for what is stored under the keys with a given start decodes to
just that, both in the order of bytes and with nothing behind them. -/
theorem pairs_read_back :
    (∀ pairs rest, Pairs.Encodable pairs →
      Pairs.decode? (Pairs.encode pairs ++ rest) = some (pairs, rest)) ∧
    (∀ pairs others, Pairs.Encodable pairs → Pairs.Encodable others →
      Pairs.encode pairs = Pairs.encode others → pairs = others) ∧
    (∀ pairs others, Pairs.Encodable pairs → Pairs.Encodable others →
      Pairs.encode pairs <+: Pairs.encode others → Pairs.encode pairs = Pairs.encode others) ∧
    (∀ (invoke : Invoke) (c : HostCall), c.OfCore → c.before.Ready →
      (c.function.name = "read_exchange_buffer_headers" → ∀ handle b headers,
        argument? c.site 0 = some handle → c.before.find? handle = some b →
        b.headers? = some headers →
          (Pairs.Lists (Buffer.listed headers) fun key value => ∃ name text,
            headers.find? name = some text ∧ Utf8.encode name = key ∧ Utf8.encode text = value) ∧
          (Pairs.Encodable (Buffer.listed headers) →
            c.RepliesPairs invoke (Buffer.listed headers))) ∧
      (c.function.name = "persistence_get_subset" → ∀ start, c.site.bytes? 0 1 = some start →
        c.site.world.shelf.fails .scan (Store.Persistence.fullKey start) = false → ∃ pairs,
          Store.Persistence.subset c.site.world.shelf start = .ok pairs ∧
          (Pairs.Lists pairs fun key value => start <+: key ∧
            c.site.world.shelf.entries.find? (Store.Persistence.fullKey key) = some value) ∧
          (Pairs.Encodable pairs → c.RepliesPairs invoke pairs))) := by
  refine ⟨fun pairs rest encodable => Pairs.decode?_append encodable rest, ?_, ?_, ?_⟩
  · intro pairs others encodable encodable' same
    exact Pairs.eq_of_prefix encodable encodable' (same ▸ List.prefix_rfl)
  · intro pairs others encodable encodable' starts
    exact congrArg Pairs.encode (Pairs.eq_of_prefix encodable encodable' starts)
  · intro invoke c core ready
    refine ⟨fun named handle b headers passed live given => ?_,
      fun named start passed unbroken => ?_⟩
    · exact ⟨Buffer.lists_listed headers,
        repliesPairs_headers core named ready passed live given⟩
    · obtain ⟨pairs, listed, lists⟩ := Store.Persistence.subset_lists unbroken
      exact ⟨pairs, listed, lists, repliesPairs_subset core named ready passed listed⟩

/-- The core function that reads headers, as it is bound. -/
def readingHeaders : HostFunction :=
  coreFunction "read_exchange_buffer_headers" (.i32s 1) (.native readHeaders)

/-- The core function that reads stored pairs, as it is bound. -/
def readingPairs : HostFunction :=
  coreFunction "persistence_get_subset" (.i32s 2) (.native persistedPairs)

/-- Two headers. -/
def twoHeaders : Headers := .ofPairs [("b", "2"), ("a", "1")]

/-- Where a guest asks for the two headers of a buffer. -/
def labelled : Site :=
  { bare [.i32 1] with world := { World.fresh .offline 0 with
    registry := Registry.empty.register (.memory ⟨twoHeaders, [], 200⟩) } }

/-- Where a guest asks for all that is stored, and that is one value. -/
def stocked : Site :=
  { bare [.i32 0, .i32 0] with world := { World.fresh .offline 0 with
    shelf := ⟨Table.empty.insert (Store.Persistence.fullKey [107]) [118], []⟩ } }

theorem binds_readingHeaders : Core.provider.Binds readingHeaders :=
  binds_coreFunction ("read_exchange_buffer_headers", 1, readHeaders) (by simp [calls])

theorem binds_readingPairs : Core.provider.Binds readingPairs :=
  binds_coreFunction ("persistence_get_subset", 2, persistedPairs) (by simp [calls])

/-- A part that spells a length is read back as it is, the headers come in order, and a stored pair
comes without its name space. -/
theorem pairs_read_back_few :
    let invoke := Invocation.invoke (.standard .default) 0
    Pairs.decode? (Pairs.encode [([2, 0, 0, 0], [])] ++ [7]) =
        some ([([2, 0, 0, 0], [])], [7]) ∧
      HostCall.RepliesPairs invoke ⟨readingHeaders, labelled⟩ [([97], [49]), ([98], [50])] ∧
      HostCall.RepliesPairs invoke ⟨readingPairs, stocked⟩ [([107], [118])] := by
  intro invoke
  have words {key value : Bytes} {rest : List (Bytes × Bytes)} (rests : Pairs.Encodable rest)
      (few : rest.length + 1 < 2 ^ 31) (short : key.length < 2 ^ 32 ∧ value.length < 2 ^ 32) :
      Pairs.Encodable ((key, value) :: rest) :=
    ⟨few, List.forall_mem_cons.mpr ⟨short, rests.short⟩⟩
  have none : Pairs.Encodable [] := ⟨by decide, List.forall_mem_nil _⟩
  have headers : Buffer.listed twoHeaders = [([97], [49]), ([98], [50])] := by decide +kernel
  have stored : Store.Persistence.subset stocked.world.shelf [] = .ok [([107], [118])] := rfl
  refine ⟨pairs_read_back.1 _ _ (words none (by decide) (by decide)), ?_, ?_⟩
  · have core : HostCall.OfCore ⟨readingHeaders, labelled⟩ :=
      ⟨binds_readingHeaders, by decide, rfl, fun _ => by decide⟩
    have replied := ((pairs_read_back.2.2.2 invoke _ core ⟨by decide, by decide⟩).1 rfl 1 _
      twoHeaders rfl rfl rfl).2
    rw [headers] at replied
    exact replied (words (words none (by decide) (by decide)) (by decide) (by decide))
  · have core : HostCall.OfCore ⟨readingPairs, stocked⟩ :=
      ⟨binds_readingPairs, by decide, rfl, fun _ => by decide⟩
    obtain ⟨pairs, listed, -, replied⟩ :=
      (pairs_read_back.2.2.2 invoke _ core ⟨by decide, by decide⟩).2 rfl [] rfl rfl
    obtain rfl := Except.ok.inj (stored.symm.trans listed)
    exact replied (words none (by decide) (by decide))

end Core

end GuestHost
