import GuestHost.Proofs.Json
import GuestHost.Proofs.Store.Durability
/-!
# The abstracts in a store

An abstract reads back as it was written, whatever its content type: `Abstract.read?_render`. Every
abstract in a store was written by a registration of a blob with that id, so registering a known
blob finds its length as it is and decides by its content type alone: `register_noted`.
-/

namespace GuestHost

namespace Store

open Blob

/-! ## Reading back -/

/-- **An abstract reads back as it was stored** if its length is a word. -/
theorem Abstract.read?_render (a : Abstract) :
    read? a.render = if a.length < 18446744073709551616 then some a else none := by
  let members : Json.Members :=
    [("content_type", Json.quoted a.contentType, .string (some a.contentType)),
      ("length", Json.decimal a.length, .number (Json.decimal a.length))]
  have spelled : members.Spelled := by
    simp [members, Json.Members.Spelled, Json.spells_quoted, Json.spells_decimal]
  have parsed : Json.parse? a.render = some (.object members.documents) :=
    (Json.spells_braced spelled).parse?_eq
  have fields : (Json.object members.documents).fields? ["content_type", "length"] =
      some [some (.string (some a.contentType)), some (.number (Json.decimal a.length))] := rfl
  have word : (Json.number (Json.decimal a.length)).word? =
      if a.length < 18446744073709551616 then some a.length else none := by
    have digits : (Json.decimal a.length).all Json.isDigit = true :=
      List.all_eq_true.mpr (Json.isDigit_decimal a.length)
    simp [Json.word?, digits, Json.ofDigits_decimal]
  rw [read?, parsed, Option.bind_some, ofJson?, fields]
  simp only [Option.bind_eq_bind, Option.bind_some, Json.text?, word]
  split <;> rfl

/-- Quotes and control characters are escaped and read back. -/
example : Abstract.read? (Abstract.render ⟨"a\"\n\x01", 3⟩) = some ⟨"a\"\n\x01", 3⟩ := by
  decide +kernel

/-- A byte string whose length can be noted down and read back. -/
def Notable (b : Bytes) : Prop := b.length < 18446744073709551616

theorem read?_noteOf {b : Bytes} (notable : Notable b) (contentType : String) :
    Abstract.read? (noteOf contentType b) = some ⟨contentType, b.length⟩ := by
  rw [noteOf, Abstract.read?_render]
  exact if_pos notable

/-! ## What is noted down -/

/-- An operation registers bytes with a content type, under a name or not. -/
def Operation.Registers (operation : Operation) (contentType : String) (bytes : Bytes) : Prop :=
  operation = .register contentType bytes ∨
    ∃ name, operation = .registerNamed name contentType bytes

theorem Operation.Registers.bytes_eq {operation : Operation} {contentType : String} {b : Bytes}
    (h : operation.Registers contentType b) : operation.bytes? = some b := by
  rcases h with rfl | ⟨name, rfl⟩ <;> rfl

variable {s s' : Shelf} {id : ContentId} {operation : Operation} {answer : Answer}
  {contentType name : String} {b : Bytes}

/-- A registration writes its own abstract or none. -/
theorem Registered.abstract_eq {outcome : Except Error ContentId}
    (h : Registered contentType b s (outcome, s')) (id : ContentId) :
    s'.value? (.abstract id) = s.value? (.abstract id) ∨
      id = idOf b ∧ s'.value? (.abstract id) = some (noteOf contentType b) := by
  by_cases same : id = idOf b
  · subst same
    cases h <;> simp
  · exact .inl (h.frame (by simpa using same) (by simp))

/-- **An abstract is written by a registration of a blob with its id.** -/
theorem Effect.abstract_eq (h : Effect s operation (answer, s')) (id : ContentId) :
    s'.value? (.abstract id) = s.value? (.abstract id) ∨
      ∃ contentType b, operation.Registers contentType b ∧ id = idOf b ∧
        s'.value? (.abstract id) = some (noteOf contentType b) := by
  cases h with
  | looked _ _ => exact .inl rfl
  | set key value => exact .inl (by simp)
  | registered h => exact (h.abstract_eq id).imp_right fun ⟨own, noted⟩ =>
      ⟨_, _, .inl rfl, own, noted⟩
  | unnamed name _ h => exact (h.abstract_eq id).imp_right fun ⟨own, noted⟩ =>
      ⟨_, _, .inr ⟨name, rfl⟩, own, noted⟩
  | named name h =>
    rw [Shelf.value?_stored, if_neg (by simp)]
    exact (h.abstract_eq id).imp_right fun ⟨own, noted⟩ => ⟨_, _, .inr ⟨name, rfl⟩, own, noted⟩

/-- Every abstract was written by a registration of a blob with its id. -/
theorem exists_noted (steps : List Step) (id : ContentId) :
    (after steps).value? (.abstract id) = none ∨ ∃ contentType, ∃ b ∈ Registers steps,
      id = idOf b ∧ (after steps).value? (.abstract id) = some (noteOf contentType b) := by
  induction steps using List.reverseRecOn with
  | nil => exact .inl rfl
  | append_singleton steps t ih =>
    have step := (t.effect (after steps)).abstract_eq id
    rw [← after_snoc, Shelf.value?_withFaults] at step
    rcases step with same | ⟨contentType, b, registers, own, noted⟩
    · rw [same]
      refine ih.imp_right fun ⟨contentType, b, ⟨u, hu, hb⟩, noted⟩ => ?_
      exact ⟨contentType, b, ⟨u, List.mem_append_left _ hu, hb⟩, noted⟩
    · exact .inr ⟨contentType, b, ⟨t, by simp, registers.bytes_eq⟩, own, noted⟩

/-- Where byte strings have different digests, the abstract of a blob was written by a registration
of the blob itself. -/
theorem noted_of_distinct {B : Set Bytes} (distinct : Set.InjOn Digest.sha256 B) (hb : b ∈ B)
    {steps : List Step} (registers : Registers steps ⊆ B) :
    (after steps).value? (.abstract (idOf b)) = none ∨ ∃ contentType,
      (after steps).value? (.abstract (idOf b)) = some (noteOf contentType b) := by
  refine (exists_noted steps (idOf b)).imp_right fun ⟨contentType, c, hc, same, noted⟩ => ?_
  obtain rfl := distinct hb (registers hc) (Blob.idOf_inj.mp same)
  exact ⟨contentType, noted⟩

/-! ## Registrations without faults -/

theorem Shelf.fails_of_faultless (faultless : s.faults = []) (access : Access) (key : Bytes) :
    s.fails access key = false := by
  simp [Shelf.fails, faultless]

/-- Without faults an abstract reads back as it was noted down. -/
theorem abstractOf_of_noted (faultless : s.faults = []) (notable : Notable b)
    (noted : s.value? (.abstract (idOf b)) = some (noteOf contentType b)) :
    abstractOf s (idOf b) = .ok ⟨contentType, b.length⟩ := by
  have fails := Shelf.fails_of_faultless faultless
  simp only [abstractOf, Key.abstractKey_eq, Shelf.get_eq_of_reads (fails _ _), noted, bind,
    Except.bind, read?_noteOf notable]
  rfl

/-- Registering new bytes without faults stores both entries. -/
theorem register_fresh (faultless : s.faults = [])
    (new : s.value? (.abstract (idOf b)) = none) (contentType : String) :
    register contentType b s = (.ok (idOf b),
      (s.stored (.abstract (idOf b)) (noteOf contentType b)).stored (.bytes (idOf b)) b) := by
  have fails := Shelf.fails_of_faultless faultless
  have fails' := Shelf.fails_of_faultless
    (s := s.stored (.abstract (idOf b)) (noteOf contentType b)) faultless
  simp only [register, Key.abstractKey_eq, Key.bytesKey_eq, Shelf.get_eq_of_reads (fails _ _), new]
  rw [← noteOf, Shelf.put_eq_of_writes _ (fails _ _)]
  dsimp only
  rw [Shelf.put_eq_of_writes _ (fails' _ _)]

/-- **Registering known bytes without faults** writes their abstract if their content type changes,
and nothing otherwise. -/
theorem register_noted {old : String} (faultless : s.faults = []) (notable : Notable b)
    (noted : s.value? (.abstract (idOf b)) = some (noteOf old b)) (contentType : String) :
    register contentType b s = (.ok (idOf b),
      if old = contentType then s
      else s.stored (.abstract (idOf b)) (noteOf contentType b)) := by
  have fails := Shelf.fails_of_faultless faultless
  simp only [register, Key.abstractKey_eq, Shelf.get_eq_of_reads (fails _ _), noted,
    read?_noteOf notable, Abstract.mk.injEq, and_true]
  rw [← noteOf, Shelf.put_eq_of_writes _ (fails _ _)]
  split <;> rfl

end Store

end GuestHost
