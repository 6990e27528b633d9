import GuestHost.Proofs.Store.History
import Mathlib.Data.Set.Function
/-!
# What a store keeps of the blobs it was given

A blob that was acknowledged, by an answer with its id, can be read back for good unless one of its
registrations was torn: `bytesOf_of_acknowledged`. After a torn registration the abstract alone is
stored. Later registrations of the same bytes find it, take the bytes to be known and are
acknowledged, and nothing ever stores the bytes: the order of the two writes, abstract first, is
what makes a failed registration impossible to repeat. Every name points at a blob that was
acknowledged.
-/

namespace GuestHost

namespace Store

open Blob

variable {steps : List Step} {t : Step} {b : Bytes} {id : ContentId}

/-! ## What a history did with a blob -/

/-- The byte strings that a history registers. -/
def Registers (steps : List Step) : Set Bytes :=
  {b | ∃ t ∈ steps, t.operation.bytes? = some b}

/-- A registration of the bytes was torn. -/
def Torn (steps : List Step) (b : Bytes) : Prop :=
  Sometime (fun s t => t.operation.bytes? = some b ∧ Tears (s.withFaults t.faults) b) steps

/-- A registration of the bytes answered with an id. -/
def Acknowledged (steps : List Step) (b : Bytes) (id : ContentId) : Prop :=
  Sometime (fun s t => t.operation.bytes? = some b ∧ (t.run s).1 = .id (.ok id)) steps

theorem torn_snoc : Torn (steps ++ [t]) b ↔
    Torn steps b ∨ t.operation.bytes? = some b ∧ Tears ((after steps).withFaults t.faults) b :=
  sometime_snoc

theorem acknowledged_snoc : Acknowledged (steps ++ [t]) b id ↔
    Acknowledged steps b id ∨
      t.operation.bytes? = some b ∧ (t.run (after steps)).1 = .id (.ok id) :=
  sometime_snoc

/-- What the last step of a history did. -/
theorem Step.effect (t : Step) (s : Shelf) :
    Effect (s.withFaults t.faults) t.operation ((t.run s).1, (t.run s).2) :=
  t.operation.effect _

/-- **A blob is acknowledged under the id of its bytes.** -/
theorem Acknowledged.eq_idOf (h : Acknowledged steps b id) : id = idOf b := by
  obtain ⟨before, t, rest, -, hbytes, answer⟩ := h
  obtain ⟨_, outcome, _, registered, -, hid⟩ := (t.effect _).registered_of_bytes hbytes
  obtain rfl := hid id answer
  exact registered.eq_idOf

theorem Acknowledged.mem_registers (h : Acknowledged steps b id) : b ∈ Registers steps := by
  obtain ⟨before, t, rest, rfl, hbytes, -⟩ := h
  exact ⟨t, by simp, hbytes⟩

/-! ## How a blob stands -/

/-- How a blob can stand after a history: both of its entries are missing and it has not been
acknowledged, both are there, or the bytes are missing because a registration was torn. -/
inductive Standing (steps : List Step) (b : Bytes) : Prop where
  | absent : (after steps).value? (.abstract (idOf b)) = none →
      (after steps).value? (.bytes (idOf b)) = none →
      ¬ Torn steps b → (∀ id, ¬ Acknowledged steps b id) → Standing steps b
  | whole : (after steps).value? (.abstract (idOf b)) ≠ none →
      (after steps).value? (.bytes (idOf b)) = some b → ¬ Torn steps b → Standing steps b
  | torn : (after steps).value? (.abstract (idOf b)) ≠ none →
      (after steps).value? (.bytes (idOf b)) = none → Torn steps b → Standing steps b

namespace Standing

variable {steps' : List Step}

/-- A blob stands as it did if neither its entries nor its past have changed. -/
theorem keep (h : Standing steps b)
    (habstract : (after steps').value? (.abstract (idOf b)) =
      (after steps).value? (.abstract (idOf b)))
    (hbytes : (after steps').value? (.bytes (idOf b)) = (after steps).value? (.bytes (idOf b)))
    (htorn : Torn steps' b ↔ Torn steps b)
    (hack : ∀ id, Acknowledged steps' b id → Acknowledged steps b id) : Standing steps' b := by
  cases h with
  | absent new missing whole unknown =>
    exact .absent (habstract.trans new) (hbytes.trans missing) (mt htorn.mp whole)
      fun id => mt (hack id) (unknown id)
  | whole known present whole =>
    exact .whole (habstract ▸ known) (hbytes.trans present) (mt htorn.mp whole)
  | torn known missing torn =>
    exact .torn (habstract ▸ known) (hbytes.trans missing) (htorn.mpr torn)

/-- A known blob stands as it did if it stays known and its bytes have not changed, whether it is
acknowledged or not. -/
theorem keep_known (h : Standing steps b)
    (known : (after steps).value? (.abstract (idOf b)) ≠ none)
    (known' : (after steps').value? (.abstract (idOf b)) ≠ none)
    (hbytes : (after steps').value? (.bytes (idOf b)) = (after steps).value? (.bytes (idOf b)))
    (htorn : Torn steps' b ↔ Torn steps b) : Standing steps' b := by
  cases h with
  | absent new _ _ _ => exact absurd new known
  | whole _ present whole => exact .whole known' (hbytes.trans present) (mt htorn.mp whole)
  | torn _ missing torn => exact .torn known' (hbytes.trans missing) (htorn.mpr torn)

/-- A blob that is not known has no bytes stored, and none of its registrations was torn. -/
theorem of_new (h : Standing steps b)
    (new : (after steps).value? (.abstract (idOf b)) = none) :
    (after steps).value? (.bytes (idOf b)) = none ∧ ¬ Torn steps b := by
  cases h with
  | absent _ missing whole _ => exact ⟨missing, whole⟩
  | whole known _ _ => exact absurd new known
  | torn known _ _ => exact absurd new known

/-- A step that registers other bytes, or none, leaves a blob as it stands. -/
theorem snoc_of_ne (h : Standing steps b)
    (other : ∀ c, t.operation.bytes? = some c → idOf b ≠ idOf c) :
    Standing (steps ++ [t]) b := by
  have hne : t.operation.bytes? ≠ some b := fun hb => other b hb rfl
  refine h.keep ?_ ?_ (by simp [torn_snoc, hne]) (by simp [acknowledged_snoc, hne])
  · rw [after_snoc]
    exact (t.effect _).blob_eq (by simpa using other) (by simp) (by simp)
  · rw [after_snoc]
    exact (t.effect _).blob_eq (by simpa using other) (by simp) (by simp)

/-- A step that registers the bytes of a blob completes an absent blob or tears it, and leaves any
other as it stands. -/
theorem snoc_of_bytes (h : Standing steps b) (hb : t.operation.bytes? = some b) :
    Standing (steps ++ [t]) b := by
  obtain ⟨contentType, outcome, s₁, registered, frame, answer⟩ :=
    (t.effect (after steps)).registered_of_bytes hb
  rw [← after_snoc] at frame
  have habstract := frame (.abstract (idOf b)) (by simp)
  have hbytes := frame (.bytes (idOf b)) (by simp)
  have htorn : Torn (steps ++ [t]) b ↔
      Torn steps b ∨ Tears ((after steps).withFaults t.faults) b := by simp [torn_snoc, hb]
  cases registered with
  | refused e whole =>
    rw [or_iff_left whole] at htorn
    refine h.keep habstract hbytes htorn fun id hid => ?_
    exact (acknowledged_snoc.mp hid).resolve_right fun ⟨_, hid⟩ => by simpa using answer id hid
  | known known =>
    rw [or_iff_left fun tears => known tears.new] at htorn
    exact h.keep_known known (habstract ▸ known) hbytes htorn
  | retyped known =>
    rw [or_iff_left fun tears => known tears.new] at htorn
    exact h.keep_known known (by simp [habstract]) (hbytes.trans (by simp)) htorn
  | torn tears =>
    -- nothing was stored before, and the abstract alone is now
    have missing := (h.of_new tears.new).1
    exact .torn (by simp [habstract]) (hbytes.trans (by simpa using missing))
      (htorn.mpr (.inr tears))
  | stored new whole =>
    rw [or_iff_left whole] at htorn
    exact .whole (by simp [habstract]) (hbytes.trans (by simp))
      (mt htorn.mp (h.of_new new).2)

end Standing

/-- **Every blob stands in one of the three ways after every history** over byte strings with
different digests. -/
theorem standing {B : Set Bytes} (distinct : Set.InjOn Digest.sha256 B) (hb : b ∈ B)
    (steps : List Step) (registers : Registers steps ⊆ B) : Standing steps b := by
  -- every step leaves the blob in one of the ways, from whichever it finds it in
  induction steps using List.reverseRecOn with
  | nil => exact .absent rfl rfl not_sometime_nil fun _ => not_sometime_nil
  | append_singleton steps t ih =>
    have hsteps : Registers steps ⊆ B := fun c ⟨u, hu, hc⟩ =>
      registers ⟨u, List.mem_append_left _ hu, hc⟩
    by_cases same : t.operation.bytes? = some b
    · exact (ih hsteps).snoc_of_bytes same
    · -- other bytes have another id, since their digests differ
      refine (ih hsteps).snoc_of_ne fun c hc hid => same ?_
      have hmem : c ∈ B := registers ⟨t, by simp, hc⟩
      rw [distinct hb hmem (Blob.idOf_inj.mp hid), hc]

/-! ## Names -/

/-- **Every name points at a blob that was acknowledged.** -/
theorem name_acknowledged (steps : List Step) (name : String) (value : Bytes)
    (h : (after steps).value? (.name name) = some value) :
    ∃ b, Acknowledged steps b (idOf b) ∧ value = Utf8.encode (idOf b) := by
  induction steps using List.reverseRecOn with
  | nil => simp at h
  | append_singleton steps t ih =>
    have step := (t.effect (after steps)).name_eq name
    rw [← after_snoc, Shelf.value?_withFaults] at step
    rcases step with same | ⟨c, hc, answer, pointed⟩
    · obtain ⟨b, hb, hvalue⟩ := ih (same ▸ h)
      exact ⟨b, acknowledged_snoc.mpr (.inl hb), hvalue⟩
    · rw [pointed] at h
      exact ⟨c, acknowledged_snoc.mpr (.inr ⟨hc, answer⟩), by simpa using h.symm⟩

/-! ## Reading back -/

theorem name_of_resolveAlias {s : Shelf} {name : String}
    (h : Blob.resolveAlias s.heal name = .ok id) :
    ∃ value, s.value? (.name name) = some value ∧ Utf8.read value = .ok id := by
  have get : s.heal.get (nameKey name) = .ok (s.value? (.name name)) :=
    Shelf.get_eq_of_reads (k := .name name) rfl
  simp only [Blob.resolveAlias, get] at h
  cases pointed : s.value? (.name name) with
  | none => simp [pointed, bind, Except.bind, throw, throwThe, MonadExceptOf.throw] at h
  | some value =>
    refine ⟨value, rfl, ?_⟩
    simp only [pointed, bind, Except.bind] at h
    cases read : Utf8.read value with
    | ok text => simpa [read, pure, Except.pure] using h
    | error fault => simp [read, throw, throwThe, MonadExceptOf.throw] at h

/-- A name resolves to the id of a blob that was acknowledged under it. -/
theorem acknowledged_of_resolveAlias {name : String}
    (h : Blob.resolveAlias (after steps).heal name = .ok id) : ∃ b, Acknowledged steps b id := by
  obtain ⟨value, pointed, read⟩ := name_of_resolveAlias h
  obtain ⟨b, hb, rfl⟩ := name_acknowledged steps name value pointed
  have same : idOf b = id := by simpa [Utf8.read, Utf8.decode?_encode] using read
  exact ⟨b, same ▸ hb⟩

/-- **What an acknowledged blob reads back as.** Its own bytes, unless one of its registrations was
torn; then nothing is ever found under its id. -/
theorem bytesOf_of_acknowledged (distinct : Set.InjOn Digest.sha256 (Registers steps))
    (h : Acknowledged steps b id) :
    (Blob.bytesOf (after steps).heal id = .ok b ↔ ¬ Torn steps b) ∧
      (Blob.bytesOf (after steps).heal id = .error (.notFound id) ↔ Torn steps b) := by
  obtain rfl := h.eq_idOf
  have read := Blob.bytesOf_of_faultless (s := (after steps).heal) rfl (idOf b)
  rw [Shelf.value?_heal] at read
  cases standing distinct h.mem_registers steps subset_rfl with
  | absent _ _ _ unknown => exact absurd h (unknown _)
  | whole _ present whole => simp [read, present, whole]
  | torn _ missing torn => simp [read, missing, torn]

/-- **Acknowledged blobs are kept unless they were torn.** After every history over byte strings
with different digests, an acknowledged blob reads back as its bytes exactly if none of its
registrations was torn, and every name that resolves leads to an acknowledged blob, of which the
same is true. -/
theorem acknowledged_kept_iff (steps : List Step)
    (distinct : Set.InjOn Digest.sha256 (Registers steps)) :
    (∀ b id, Acknowledged steps b id →
      (Blob.bytesOf (after steps).heal id = .ok b ↔ ¬ Torn steps b) ∧
        (Blob.bytesOf (after steps).heal id = .error (.notFound id) ↔ Torn steps b)) ∧
      ∀ name id, Blob.resolveAlias (after steps).heal name = .ok id →
        ∃ b, Acknowledged steps b id ∧
          (Blob.bytesOf (after steps).heal id = .ok b ↔ ¬ Torn steps b) := by
  refine ⟨fun b id h => bytesOf_of_acknowledged distinct h, fun name id h => ?_⟩
  obtain ⟨b, hb⟩ := acknowledged_of_resolveAlias h
  exact ⟨b, hb, (bytesOf_of_acknowledged distinct hb).1⟩

/-- A blob registered while its bytes cannot be written, and registered again with a name. -/
def retried : List Step :=
  [⟨[⟨.put, bytesKey (idOf [0x61])⟩], .register "text/plain" [0x61]⟩,
    ⟨[], .registerNamed "a" "text/plain" [0x61]⟩]

/-- The second registration succeeds, and the bytes stay missing under the id and the name. -/
theorem acknowledged_retried_lost :
    Acknowledged retried [0x61] (idOf [0x61]) ∧
      Blob.resolveAlias (after retried).heal "a" = .ok (idOf [0x61]) ∧
      Blob.bytesOf (after retried).heal (idOf [0x61]) = .error (.notFound (idOf [0x61])) := by
  have torn : Torn retried [0x61] := by
    refine ⟨[], _, [_], rfl, rfl, rfl, ?_, ?_, ?_⟩ <;> decide +kernel
  have acknowledged : Acknowledged retried [0x61] (idOf [0x61]) := by
    refine ⟨[_], _, [], rfl, rfl, ?_⟩
    decide +kernel
  have distinct : Set.InjOn Digest.sha256 (Registers retried) := by
    have single : ∀ b ∈ Registers retried, b = [0x61] := by
      rintro b ⟨t, ht, hb⟩
      simp only [retried, List.mem_cons, List.not_mem_nil, or_false] at ht
      rcases ht with rfl | rfl <;> simpa [Operation.bytes?] using hb.symm
    intro b hb c hc _
    rw [single b hb, single c hc]
  refine ⟨acknowledged, by decide +kernel, ?_⟩
  exact (((acknowledged_kept_iff retried distinct).1 _ _ acknowledged).2).mpr torn

end Store

end GuestHost
