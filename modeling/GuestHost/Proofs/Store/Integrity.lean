import GuestHost.Proofs.Store.Abstracts
/-!
# What is found under a content id

An id may be any text: one that was computed from bytes, or one that a reference spells. Whatever
it is, bytes are found under it only if it is their own id, and behind their abstract,
`sound_after`; so they stay what they are, whatever is done to the store, and every abstract gives
the length of a blob that was registered: `content_matches_id`. None of this needs digests to
differ, since no registration writes under an id other than that of its bytes.
-/

namespace GuestHost

namespace Store

open Blob

variable {s s' : Shelf} {id : ContentId} {operation : Operation} {answer : Answer}
  {contentType : String} {b : Bytes}

/-! ## Reading -/

/-- The bytes of a blob are what is stored, if they can be read. -/
theorem Blob.bytesOf_eq (s : Shelf) (id : ContentId) :
    bytesOf s id =
      if s.fails .get (bytesKey id) then .error Shelf.injected
      else
        match s.value? (.bytes id) with
        | some bytes => .ok bytes
        | none => .error (.notFound id) := by
  rw [Key.bytesKey_eq]
  cases reads : s.fails .get (Key.bytes id).encode with
  | true =>
    simp only [bytesOf, Key.bytesKey_eq, Shelf.get_eq_of_fails reads]
    rfl
  | false =>
    simp only [bytesOf, Key.bytesKey_eq, Shelf.get_eq_of_reads reads]
    cases s.value? (.bytes id) <;> rfl

/-- An abstract that is read is stored as it reads. -/
theorem Blob.stored_of_abstractOf {abstract : Abstract} (h : abstractOf s id = .ok abstract) :
    ∃ stored, s.value? (.abstract id) = some stored ∧ Abstract.read? stored = some abstract := by
  obtain ⟨stored, found⟩ := Option.ne_none_iff_exists'.mp (value?_of_abstractOf h)
  refine ⟨stored, found, ?_⟩
  cases reads : s.fails .get (Key.abstract id).encode with
  | true =>
    simp only [abstractOf, Key.abstractKey_eq, Shelf.get_eq_of_fails reads] at h
    cases h
  | false =>
    simp only [abstractOf, Key.abstractKey_eq, Shelf.get_eq_of_reads reads, found, bind,
      Except.bind] at h
    cases read : Abstract.read? stored with
    | none =>
      rw [read] at h
      cases h
    | some known =>
      rw [read] at h
      exact congrArg some (Except.ok.inj h)

/-! ## Bytes under their own ids -/

/-- A registration stores its own bytes, behind their abstract, or none. -/
theorem Registered.bytes_eq {outcome : Except Error ContentId}
    (h : Registered contentType b s (outcome, s')) (id : ContentId) :
    s'.value? (.bytes id) = s.value? (.bytes id) ∨
      id = idOf b ∧ s'.value? (.bytes id) = some b ∧ s'.value? (.abstract id) ≠ none := by
  by_cases same : id = idOf b
  · subst same
    cases h <;> simp
  · exact .inl (h.frame (by simp) (by simpa using same))

/-- **Bytes are stored by a registration of them**, under their own id and behind their
abstract. -/
theorem Effect.bytes_eq (h : Effect s operation (answer, s')) (id : ContentId) :
    s'.value? (.bytes id) = s.value? (.bytes id) ∨
      ∃ b, id = idOf b ∧ s'.value? (.bytes id) = some b ∧ s'.value? (.abstract id) ≠ none := by
  cases bytes : operation.bytes? with
  | none =>
    exact .inl (h.blob_eq (fun c hc => nomatch bytes.symm.trans hc) (by simp) (by simp))
  | some b =>
    obtain ⟨contentType, outcome, s₁, registered, frame, -⟩ := h.registered_of_bytes bytes
    rw [frame (.bytes id) (by simp), frame (.abstract id) (by simp)]
    exact (registered.bytes_eq id).imp_right fun stored => ⟨b, stored⟩

/-- A store holds bytes under their own ids only, and behind their abstracts. -/
structure Shelf.Sound (s : Shelf) : Prop where
  own : ∀ id b, s.value? (.bytes id) = some b → id = idOf b
  known : ∀ id b, s.value? (.bytes id) = some b → s.value? (.abstract id) ≠ none

/-- No operation stores bytes elsewhere. -/
theorem Shelf.Sound.effect (sound : s.Sound) (h : Effect s operation (answer, s')) : s'.Sound := by
  have step (id : ContentId) (b : Bytes) (found : s'.value? (.bytes id) = some b) :
      id = idOf b ∧ s'.value? (.abstract id) ≠ none := by
    rcases h.bytes_eq id with same | ⟨c, own, stored, known⟩
    · rw [same] at found
      exact ⟨sound.own id b found, (h.known_kept (sound.known id b found)).1⟩
    · obtain rfl := Option.some.inj (stored.symm.trans found)
      exact ⟨own, known⟩
  exact ⟨fun id b found => (step id b found).1, fun id b found => (step id b found).2⟩

/-- **After every history bytes are found under their own ids only.** -/
theorem sound_after (steps : List Step) : (after steps).Sound := by
  induction steps using List.reverseRecOn with
  | nil =>
    have nothing (id : ContentId) (b : Bytes) : (after []).value? (.bytes id) ≠ some b := nofun
    exact ⟨fun id b found => absurd found (nothing id b), fun id b found => absurd found (nothing id b)⟩
  | append_singleton steps t ih =>
    have earlier : ((after steps).withFaults t.faults).Sound := ⟨ih.own, ih.known⟩
    rw [after_snoc]
    exact earlier.effect (t.effect (after steps))

/-- **Bytes that are found stay**, whatever is done to the store afterwards. -/
theorem bytes_stay {steps : List Step} (found : (after steps).value? (.bytes id) = some b)
    (rest : List Step) : (after (steps ++ rest)).value? (.bytes id) = some b := by
  induction rest using List.reverseRecOn with
  | nil => rwa [List.append_nil]
  | append_singleton rest t ih =>
    have known := (sound_after (steps ++ rest)).known id b ih
    rw [← List.append_assoc, after_snoc]
    exact ((t.effect (after (steps ++ rest))).known_kept known).2.trans ih

/-! ## The law -/

/-- **What is found under an id is what the id says.** After any history of operations on blobs,
names and guest keys, with any faults on the way and any when the store is read: bytes that are
found under an id, however it is spelled, have it as their own id, and every later reading that
does not fail gives the same bytes; and an abstract that is found gives the length of a byte string
with that id that was registered. -/
theorem content_matches_id (steps : List Step) (faults : List Fault) (id : ContentId) :
    (∀ b, bytesOf ((after steps).withFaults faults) id = .ok b →
      id = idOf b ∧ ∀ rest faults',
        let later := (after (steps ++ rest)).withFaults faults'
        bytesOf later id =
          if later.fails .get (bytesKey id) then .error Shelf.injected else .ok b) ∧
    ∀ a, abstractOf ((after steps).withFaults faults) id = .ok a →
      ∃ b ∈ Registers steps, id = idOf b ∧ a.length = b.length := by
  refine ⟨fun b read => ?_, fun a read => ?_⟩
  · have found := value?_of_bytesOf read
    rw [Shelf.value?_withFaults] at found
    refine ⟨(sound_after steps).own id b found, fun rest faults' => ?_⟩
    dsimp only
    rw [bytesOf_eq, Shelf.value?_withFaults, bytes_stay found rest]
  · obtain ⟨stored, found, reads⟩ := stored_of_abstractOf read
    rw [Shelf.value?_withFaults] at found
    rcases exists_noted steps id with none | ⟨contentType, b, registered, own, noted⟩
    · rw [none] at found
      cases found
    · obtain rfl := Option.some.inj (noted.symm.trans found)
      refine ⟨b, registered, own, ?_⟩
      rw [noteOf, Abstract.read?_render] at reads
      split at reads
      · rw [← Option.some.inj reads]
      · cases reads

/-- A blob that is registered once. -/
def registered : List Step :=
  [⟨[], .register "text/plain" [0x61]⟩]

/-- What a guest may then try: a key that is spelled as the key of the bytes, and a registration of
other bytes under a name that is their id. -/
def attacked : List Step :=
  [⟨[], .set (bytesKey (idOf [0x61])) [0x62]⟩,
    ⟨[], .registerNamed (idOf [0x61]) "text/plain" [0x62]⟩]

/-- The bytes of the blob are found under its id before and after. -/
theorem content_matches_id_attacked :
    bytesOf ((after registered).withFaults []) (idOf [0x61]) = .ok [0x61] ∧
      bytesOf ((after (registered ++ attacked)).withFaults []) (idOf [0x61]) = .ok [0x61] := by
  have read : bytesOf ((after registered).withFaults []) (idOf [0x61]) = .ok [0x61] := by
    decide +kernel
  obtain ⟨-, stays⟩ := (content_matches_id registered [] (idOf [0x61])).1 _ read
  exact ⟨read, stays attacked []⟩

end Store

end GuestHost
