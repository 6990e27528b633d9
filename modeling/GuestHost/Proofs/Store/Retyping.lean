import GuestHost.Proofs.Store.Aliases
import GuestHost.Proofs.Store.Scan
/-!
# Registering a known blob again

Without faults, a blob that a history registers is acknowledged and its abstract is noted down:
`acknowledged_of_registers`, `noted_of_registers`. Registering it again finds the abstract, reads it
back and compares it with the one it would write. So it changes nothing if the content type is the
one recorded, and otherwise the abstract alone: `reregistered_keeps_rest`. What is read back is what
was written whatever characters the content type has, so there is no content type that is taken for
a new one every time.
-/

namespace GuestHost

namespace Store

open Blob

variable {s : Shelf} {id : ContentId} {b key value : Bytes} {contentType : String}
  {steps : List Step}

/-! ## What a registration leaves of a history -/

/-- An operation that registers bytes does so under a name or without one. -/
theorem Operation.exists_registers {operation : Operation} (h : operation.bytes? = some b) :
    ∃ contentType, operation.Registers contentType b := by
  cases operation with
  | register contentType bytes =>
    obtain rfl := Option.some.inj h
    exact ⟨contentType, .inl rfl⟩
  | registerNamed name contentType bytes =>
    obtain rfl := Option.some.inj h
    exact ⟨contentType, .inr ⟨name, rfl⟩⟩
  | _ => cases h

/-- **Without faults every registration is acknowledged.** -/
theorem acknowledged_of_registers (faultless : ∀ t ∈ steps, t.faults = [])
    (distinct : Set.InjOn Digest.sha256 (Registers steps)) (notable : Notable b)
    (known : b ∈ Registers steps) : Acknowledged steps b (idOf b) := by
  obtain ⟨t, ht, hb⟩ := known
  obtain ⟨before, rest, rfl⟩ := List.append_of_mem ht
  refine ⟨before, t, rest, rfl, hb, ?_⟩
  have faultless' : ∀ u ∈ before, u.faults = [] := fun u hu => faultless u (by simp [hu])
  have registers : Registers before ⊆ Registers (before ++ t :: rest) :=
    fun c ⟨u, hu, hc⟩ => ⟨u, by simp [hu], hc⟩
  have same : (after before).withFaults t.faults = after before := by
    rw [Shelf.withFaults, faultless t ht, ← faultless_after faultless']
  rw [Step.run, same]
  obtain ⟨contentType, plain | ⟨name, named⟩⟩ := Operation.exists_registers hb
  · obtain ⟨s', registered, -⟩ :=
      exists_registered faultless' distinct ⟨t, ht, hb⟩ registers notable contentType
    rw [plain, Operation.run, registered]
  · obtain ⟨s', registered, -⟩ :=
      points_registerNamed faultless' distinct ⟨t, ht, hb⟩ registers notable name contentType
    rw [named, Operation.run, registered]

/-- **Without faults the abstract of a registered blob stands**, with the length of the blob. -/
theorem noted_of_registers (faultless : ∀ t ∈ steps, t.faults = [])
    (distinct : Set.InjOn Digest.sha256 (Registers steps)) (notable : Notable b)
    (known : b ∈ Registers steps) :
    ∃ recorded, (after steps).value? (.abstract (idOf b)) = some (noteOf recorded b) := by
  refine (noted_of_distinct distinct known subset_rfl).resolve_left fun new => ?_
  have acknowledged := acknowledged_of_registers faultless distinct notable known
  cases standing distinct known steps subset_rfl with
  | absent _ _ _ unknown => exact unknown _ acknowledged
  | whole present _ _ => exact present new
  | torn present _ _ => exact present new

/-! ## What does not see an abstract -/

theorem Shelf.get_stored_of_ne {k : Key} (h : key ≠ k.encode) :
    (s.stored k value).get key = s.get key := by
  simp only [Shelf.get, Shelf.find?_stored_of_ne h]
  rfl

/-- The names and what they point at do not depend on abstracts. -/
theorem Blob.names_stored_abstract : names (s.stored (.abstract id) value) = names s := by
  have entries : Shelf.range nameSpace (s.stored (.abstract id) value).entries.entries =
      Shelf.range nameSpace s.entries.entries := by
    refine Shelf.range_congr fun key starts => Shelf.find?_stored_of_ne ?_
    rintro rfl
    obtain ⟨name, abstract⟩ := Key.exists_name_of_prefix starts
    cases abstract
  simp only [names, Shelf.scan, entries]
  rfl

/-- A store differs from another in the abstract of one blob at most: every other key holds what it
held, and what is asked for other than that abstract is answered as before. -/
structure SameBut (id : ContentId) (s s' : Shelf) : Prop where
  entries : ∀ key, key ≠ abstractKey id → s'.entries.find? key = s.entries.find? key
  bytesOf : ∀ other, bytesOf s' other = bytesOf s other
  abstractOf : ∀ other, other ≠ id → abstractOf s' other = abstractOf s other
  resolveAlias : ∀ name, resolveAlias s' name = resolveAlias s name
  hasAlias : ∀ name, hasAlias s' name = hasAlias s name
  names : names s' = names s

theorem SameBut.refl (id : ContentId) (s : Shelf) : SameBut id s s :=
  ⟨fun _ _ => rfl, fun _ => rfl, fun _ _ => rfl, fun _ => rfl, fun _ => rfl, rfl⟩

/-- **An abstract is seen by what asks for it only.** -/
theorem SameBut.stored (id : ContentId) (s : Shelf) (value : Bytes) :
    SameBut id s (s.stored (.abstract id) value) where
  entries _ other := Shelf.find?_stored_of_ne other
  bytesOf other := by
    rw [Blob.bytesOf, Key.bytesKey_eq,
      Shelf.get_stored_of_ne (by simp [Key.encode_injective.eq_iff])]
    rfl
  abstractOf other differs := by
    rw [Blob.abstractOf, Key.abstractKey_eq,
      Shelf.get_stored_of_ne (by simpa [Key.encode_injective.eq_iff] using differs)]
    rfl
  resolveAlias name := by
    rw [Blob.resolveAlias, Key.nameKey_eq,
      Shelf.get_stored_of_ne (by simp [Key.encode_injective.eq_iff])]
    rfl
  hasAlias name := by
    rw [Blob.hasAlias, Key.nameKey_eq,
      Shelf.get_stored_of_ne (by simp [Key.encode_injective.eq_iff])]
    rfl
  names := names_stored_abstract

/-! ## Registering again -/

/-- **A known blob registered again.** After any history without faults, over byte strings with
different digests, a byte string that the history registers was acknowledged, and its recorded
abstract reads back with its length, a 64-bit word. To register it again with any content type
answers with the same id. If the content type is the one recorded, the store is as before; if not,
the abstract is written anew and nothing else is changed. Either way the abstract reads back with
the content type given. -/
theorem reregistered_keeps_rest (steps : List Step) (faultless : ∀ t ∈ steps, t.faults = [])
    (distinct : Set.InjOn Digest.sha256 (Registers steps)) (known : b ∈ Registers steps)
    (notable : Notable b) (contentType : String) :
    ∃ recorded s', Acknowledged steps b (idOf b) ∧
      abstractOf (after steps) (idOf b) = .ok ⟨recorded, b.length⟩ ∧
      register contentType b (after steps) = (.ok (idOf b), s') ∧
      (contentType = recorded → s' = after steps) ∧
      (contentType ≠ recorded →
        s'.entries.find? (abstractKey (idOf b)) = some (Abstract.render ⟨contentType, b.length⟩)) ∧
      abstractOf s' (idOf b) = .ok ⟨contentType, b.length⟩ ∧ SameBut (idOf b) (after steps) s' := by
  obtain ⟨recorded, noted⟩ := noted_of_registers faultless distinct notable known
  have healthy := faultless_after faultless
  have acknowledged := acknowledged_of_registers faultless distinct notable known
  have before := abstractOf_of_noted healthy notable noted
  have registered := register_noted healthy notable noted contentType
  refine ⟨recorded, _, acknowledged, before, registered, ?_⟩
  by_cases same : recorded = contentType
  · rw [if_pos same]
    exact ⟨fun _ => rfl, fun differs => absurd same.symm differs, same ▸ before, .refl _ _⟩
  · rw [if_neg same]
    have written : ((after steps).stored (.abstract (idOf b)) (noteOf contentType b)).value?
        (.abstract (idOf b)) = some (noteOf contentType b) := by simp
    exact ⟨fun equal => absurd equal.symm same, fun _ => written,
      abstractOf_of_noted healthy notable written, .stored _ _ _⟩

/-- A blob registered under a name. -/
def namedOnce : List Step := [⟨[], .registerNamed "a" "text/plain" [0x61]⟩]

/-- A content type full of characters that are escaped is found to be another, and is recorded. -/
theorem reregistered_keeps_rest_escaped :
    (∀ t ∈ namedOnce, t.faults = []) ∧ Set.InjOn Digest.sha256 (Registers namedOnce) ∧
      [0x61] ∈ Registers namedOnce ∧ Notable [0x61] ∧
      ∃ s', register "\"\\\n\x01" [0x61] (after namedOnce) = (.ok (idOf [0x61]), s') ∧
        abstractOf s' (idOf [0x61]) = .ok ⟨"\"\\\n\x01", 1⟩ ∧
        resolveAlias s' "a" = .ok (idOf [0x61]) := by
  have faultless : ∀ t ∈ namedOnce, t.faults = [] := by simp [namedOnce]
  have single : ∀ b ∈ Registers namedOnce, b = [0x61] := by
    rintro b ⟨t, ht, hb⟩
    obtain rfl := List.mem_singleton.mp ht
    exact (Option.some.inj hb).symm
  have distinct : Set.InjOn Digest.sha256 (Registers namedOnce) := fun b hb c hc _ => by
    rw [single b hb, single c hc]
  have known : [0x61] ∈ Registers namedOnce := ⟨_, List.mem_singleton_self _, rfl⟩
  have notable : Notable [0x61] := by simp [Notable]
  obtain ⟨recorded, s', -, -, registered, -, -, noted, same⟩ :=
    reregistered_keeps_rest namedOnce faultless distinct known notable "\"\\\n\x01"
  refine ⟨faultless, distinct, known, notable, s', registered, noted, ?_⟩
  rw [same.resolveAlias]
  decide +kernel

end Store

end GuestHost
