import GuestHost.Proofs.Store.Abstracts
/-!
# What an alias points at

Without faults, a registration under a name succeeds, and from then on the name points at the blob,
which is stored with the content type that it was given, until the name is registered again or the
blob is retyped: `points_after_registered`. A reference is a text that gives a content id outright. What
resolves references never looks at names that are spelled so, though names may be:
`Blob.resolve_eq_ok_iff`.
-/

namespace GuestHost

/-- What is left behind a start is what the start stands in front of. -/
theorem Bytes.after?_eq_some_iff {start text rest : Bytes} :
    after? start text = some rest ↔ text = start ++ rest := by
  induction start generalizing text with
  | nil => simp [after?]
  | cons b start ih =>
    cases text with
    | nil => simp [after?]
    | cons c text =>
      rw [after?]
      split
      · rename_i same
        simp [same, ih]
      · rename_i differ
        simp [Ne.symm differ]

namespace Store

open Blob

variable {s s' : Shelf} {name contentType : String} {id : ContentId} {b : Bytes}

/-! ## References -/

namespace Blob

/-- The reference that gives a content id outright. -/
def reference (id : ContentId) : String := "techID://" ++ id

theorem encode_reference (id : ContentId) :
    Utf8.encode (reference id) = idScheme ++ Utf8.encode id :=
  Utf8.encode_append _ _

/-- **A reference is resolved to the id that it gives**, whatever is stored. -/
theorem resolve_reference (s : Shelf) (id : ContentId) : resolve s (reference id) = .ok id := by
  have rest := Bytes.after?_eq_some_iff.mpr (encode_reference id)
  rw [resolve, rest, Option.bind_some, Utf8.decode?_encode]

/-- Any other text is resolved as an alias. -/
theorem resolve_alias (h : ∀ id, name ≠ reference id) : resolve s name = resolveAlias s name := by
  unfold resolve
  split
  · rename_i id given
    obtain ⟨rest, behind, read⟩ := Option.bind_eq_some_iff.mp given
    rw [Bytes.after?_eq_some_iff, Utf8.decode?_eq_some_iff.mp read, ← encode_reference] at behind
    exact absurd (Utf8.encode_injective behind) (h id)
  · rfl

/-- **An alias is resolved to what it points at unless it is a reference to something else.** -/
theorem resolve_eq_ok_iff (points : resolveAlias s name = .ok id) :
    resolve s name = .ok id ↔ ∀ other, name = reference other → other = id := by
  by_cases given : ∃ other, name = reference other
  · obtain ⟨other, rfl⟩ := given
    rw [resolve_reference, Except.ok.injEq]
    constructor
    · rintro rfl other' same
      exact ((String.append_right_inj _).mp same).symm
    · exact fun h => h other rfl
  · rw [not_exists] at given
    rw [resolve_alias given, points]
    simp [given]

end Blob

/-! ## Names that point at blobs -/

/-- A name points at a blob in a store without faults that holds the blob with a content type. -/
structure Points (s : Shelf) (name contentType : String) (b : Bytes) : Prop where
  faultless : s.faults = []
  named : s.value? (.name name) = some (Utf8.encode (idOf b))
  noted : s.value? (.abstract (idOf b)) = some (noteOf contentType b)
  stored : s.value? (.bytes (idOf b)) = some b

/-- An operation that neither registers the name again nor gives the blob another content type. -/
def Operation.Spares (operation : Operation) (name contentType : String) (b : Bytes) : Prop :=
  (∀ other c, operation ≠ .registerNamed name other c) ∧
    ∀ other, operation.Registers other b → other = contentType

/-- A name is left alone by what does not register it. -/
theorem Effect.name_kept {operation : Operation} {answer : Answer}
    (h : Effect s operation (answer, s')) (other : ∀ type c, operation ≠ .registerNamed name type c) :
    s'.value? (.name name) = s.value? (.name name) := by
  cases h with
  | looked _ _ => rfl
  | set key value => simp
  | registered h => exact h.frame (by simp) (by simp)
  | unnamed _ _ h => exact h.frame (by simp) (by simp)
  | named name' h =>
    have differ : name ≠ name' := by
      rintro rfl
      exact other _ _ rfl
    simp [differ, h.frame]

namespace Points

/-- **A name goes on pointing at its blob** until it is registered again or the blob is retyped. -/
theorem spared (h : Points s name contentType b) {operation : Operation} {answer : Answer}
    (spares : operation.Spares name contentType b)
    (distinct : ∀ c, operation.bytes? = some c → idOf b = idOf c → b = c)
    (effect : Effect s operation (answer, s')) : Points s' name contentType b := by
  have known : s.value? (.abstract (idOf b)) ≠ none := by simp [h.noted]
  refine ⟨effect.faults_eq.trans h.faultless, (effect.name_kept spares.1).trans h.named, ?_,
    (effect.known_kept known).2.trans h.stored⟩
  rcases effect.abstract_eq (idOf b) with same | ⟨type, c, registers, own, noted⟩
  · exact same.trans h.noted
  · obtain rfl := distinct c registers.bytes_eq own
    rw [noted, spares.2 type registers]

theorem hasAlias (h : Points s name contentType b) : Blob.hasAlias s name = .ok true := by
  have fails := Shelf.fails_of_faultless h.faultless
  simp only [Blob.hasAlias, Key.nameKey_eq, Shelf.get_eq_of_reads (fails _ _), h.named]
  rfl

theorem resolveAlias (h : Points s name contentType b) :
    Blob.resolveAlias s name = .ok (idOf b) := by
  have fails := Shelf.fails_of_faultless h.faultless
  simp only [Blob.resolveAlias, Key.nameKey_eq, Shelf.get_eq_of_reads (fails _ _), h.named,
    bind, Except.bind, Utf8.read, Utf8.decode?_encode]
  rfl

theorem abstractOf (h : Points s name contentType b) (notable : Notable b) :
    Blob.abstractOf s (idOf b) = .ok ⟨contentType, b.length⟩ :=
  abstractOf_of_noted h.faultless notable h.noted

end Points

/-! ## Registering a name -/

variable {steps : List Step}

theorem faultless_after (faultless : ∀ t ∈ steps, t.faults = []) : (after steps).faults = [] := by
  rcases List.eq_nil_or_concat' steps with rfl | ⟨before, t, rfl⟩
  · rfl
  · rw [after_snoc, (t.effect (after before)).faults_eq]
    exact faultless t (by simp)

/-- Without faults, no registration is torn. -/
theorem not_torn (faultless : ∀ t ∈ steps, t.faults = []) : ¬ Torn steps b := by
  rintro ⟨before, t, rest, rfl, -, tears⟩
  have lost := tears.lost
  rw [Shelf.fails_of_faultless (faultless t (by simp))] at lost
  cases lost

/-- **Without faults, every registration succeeds** and leaves the blob with its content type and
its bytes. -/
theorem exists_registered (faultless : ∀ t ∈ steps, t.faults = []) {B : Set Bytes}
    (distinct : Set.InjOn Digest.sha256 B) (hb : b ∈ B) (registers : Registers steps ⊆ B)
    (notable : Notable b) (contentType : String) :
    ∃ s', register contentType b (after steps) = (.ok (idOf b), s') ∧ s'.faults = [] ∧
      s'.value? (.abstract (idOf b)) = some (noteOf contentType b) ∧
      s'.value? (.bytes (idOf b)) = some b := by
  have healthy := faultless_after faultless
  rcases noted_of_distinct distinct hb registers with new | ⟨old, noted⟩
  · exact ⟨_, register_fresh healthy new contentType, healthy, by simp, by simp⟩
  · -- a blob that is known is whole, since nothing has been torn
    have present : (after steps).value? (.bytes (idOf b)) = some b := by
      cases standing distinct hb steps registers with
      | absent new _ _ _ => simp [noted] at new
      | whole _ present _ => exact present
      | torn _ _ torn => exact absurd torn (not_torn faultless)
    refine ⟨_, register_noted healthy notable noted contentType, ?_⟩
    split
    · rename_i same
      exact ⟨healthy, same ▸ noted, present⟩
    · exact ⟨healthy, by simp, by simpa using present⟩

/-- **Registered without faults, a name points at its blob.** -/
theorem points_registerNamed (faultless : ∀ t ∈ steps, t.faults = []) {B : Set Bytes}
    (distinct : Set.InjOn Digest.sha256 B) (hb : b ∈ B) (registers : Registers steps ⊆ B)
    (notable : Notable b) (name contentType : String) :
    ∃ s', registerNamed name contentType b (after steps) = (.ok (idOf b), s') ∧
      Points s' name contentType b := by
  obtain ⟨s₁, registered, healthy, noted, present⟩ :=
    exists_registered faultless distinct hb registers notable contentType
  have writes := Shelf.fails_of_faultless healthy .put (Key.name name).encode
  refine ⟨s₁.stored (.name name) (Utf8.encode (idOf b)), ?_, healthy, by simp, by simpa using noted,
    by simpa using present⟩
  simp only [registerNamed, registered, Key.nameKey_eq, Shelf.put_eq_of_writes _ writes]

/-- An operation without faults on a store without faults. -/
theorem after_snoc_of_faultless (faultless : ∀ t ∈ steps, t.faults = []) (operation : Operation) :
    after (steps ++ [⟨[], operation⟩]) = (operation.run (after steps)).2 := by
  have same : (after steps).withFaults [] = after steps := by
    rw [Shelf.withFaults, ← faultless_after faultless]
  rw [after_snoc, Step.run, same]

/-- **A name goes on pointing at its blob** through a history that spares both. -/
theorem Points.after_append {rest : List Step} (h : Points (after steps) name contentType b)
    (faultless : ∀ t ∈ rest, t.faults = [])
    (spares : ∀ t ∈ rest, t.operation.Spares name contentType b)
    (distinct : ∀ c ∈ Registers rest, idOf b = idOf c → b = c) :
    Points (after (steps ++ rest)) name contentType b := by
  induction rest using List.reverseRecOn with
  | nil => rwa [List.append_nil]
  | append_singleton rest t ih =>
    have earlier : Points (after (steps ++ rest)) name contentType b :=
      ih (fun u hu => faultless u (by simp [hu])) (fun u hu => spares u (by simp [hu]))
        fun c ⟨u, hu, hc⟩ => distinct c ⟨u, by simp [hu], hc⟩
    have same : (after (steps ++ rest)).withFaults t.faults = after (steps ++ rest) := by
      rw [Shelf.withFaults, faultless t (by simp), ← earlier.faultless]
    have effect := t.effect (after (steps ++ rest))
    rw [same, ← after_snoc, List.append_assoc] at effect
    exact earlier.spared (spares t (by simp)) (fun c hc => distinct c ⟨t, by simp, hc⟩) effect

/-- **What is registered under a name stays there.** A name is registered without faults, after any
history and before one that spares the name and its blob. The registration succeeds, and the name
points at the blob in the end. -/
theorem points_after_registered {before rest : List Step}
    (faultless : ∀ t ∈ before, t.faults = []) (faultless' : ∀ t ∈ rest, t.faults = [])
    (distinct : Set.InjOn Digest.sha256
      (Registers (before ++ ⟨[], .registerNamed name contentType b⟩ :: rest)))
    (notable : Notable b) (spares : ∀ t ∈ rest, t.operation.Spares name contentType b) :
    (registerNamed name contentType b (after before)).1 = .ok (idOf b) ∧
      Points (after (before ++ ⟨[], .registerNamed name contentType b⟩ :: rest)) name contentType
        b := by
  have here : b ∈ Registers (before ++ ⟨[], .registerNamed name contentType b⟩ :: rest) :=
    ⟨⟨[], .registerNamed name contentType b⟩, by simp, rfl⟩
  obtain ⟨s', registered, points⟩ := points_registerNamed faultless distinct here
    (fun c ⟨t, ht, hc⟩ => ⟨t, by simp [ht], hc⟩) notable name contentType
  have first : Points (after (before ++ [⟨[], .registerNamed name contentType b⟩])) name contentType
      b := by
    rw [after_snoc_of_faultless faultless]
    simpa only [Operation.run, registered] using points
  refine ⟨by rw [registered], ?_⟩
  rw [List.append_cons]
  refine first.after_append faultless' spares fun c ⟨t, ht, hc⟩ same => ?_
  exact distinct here ⟨t, by simp [ht], hc⟩ (Blob.idOf_inj.mp same)

end Store

end GuestHost
