import GuestHost.Proofs.Store.Key
import Mathlib.Data.List.Induction
/-!
# Histories of a store

A history is a list of operations on a store that starts out empty, each under faults of its own:
`after` is the store it leaves. What an operation can do is said once, in `Effect`, and what a
registration can do in `Registered`; everything that is claimed of all histories is read off these
two. A registration is **torn** where it notes down the abstract of new bytes and cannot write the
bytes.
-/

namespace GuestHost

namespace Store

open Blob

/-! ## Operations -/

/-- An operation on blobs and names, or on the keys of the guests. -/
inductive Operation where
  | register (contentType : String) (bytes : Bytes)
  | registerNamed (name contentType : String) (bytes : Bytes)
  | resolveAlias (name : String)
  | hasAlias (name : String)
  | resolve (reference : String)
  | abstractOf (id : ContentId)
  | bytesOf (id : ContentId)
  | names
  | set (key value : Bytes)
  | get (key : Bytes)
  | subset (start : Bytes)

/-- What an operation answers. -/
inductive Answer where
  | id (outcome : Except Error ContentId)
  | flag (outcome : Except Error Bool)
  | abstract (outcome : Except Error Abstract)
  | bytes (outcome : Except Error Bytes)
  | names (outcome : Except Error (List (String × ContentId)))
  | done (outcome : Except Error Unit)
  | value (outcome : Except Error (Option Bytes))
  | pairs (outcome : Except Error (List (Bytes × Bytes)))
  deriving DecidableEq

namespace Operation

/-- An operation carried out: its answer, and the store after it. -/
def run : Operation → Shelf → Answer × Shelf
  | register contentType bytes, s =>
    let (outcome, s) := Blob.register contentType bytes s
    (.id outcome, s)
  | registerNamed name contentType bytes, s =>
    let (outcome, s) := Blob.registerNamed name contentType bytes s
    (.id outcome, s)
  | resolveAlias name, s => (.id (Blob.resolveAlias s name), s)
  | hasAlias name, s => (.flag (Blob.hasAlias s name), s)
  | resolve reference, s => (.id (Blob.resolve s reference), s)
  | abstractOf id, s => (.abstract (Blob.abstractOf s id), s)
  | bytesOf id, s => (.bytes (Blob.bytesOf s id), s)
  | names, s => (.names (Blob.names s), s)
  | set key value, s =>
    match Persistence.set s key value with
    | .ok s => (.done (.ok ()), s)
    | .error e => (.done (.error e), s)
  | get key, s => (.value (Persistence.get s key), s)
  | subset start, s => (.pairs (Persistence.subset s start), s)

/-- The bytes that an operation registers. -/
def bytes? : Operation → Option Bytes
  | register _ bytes => some bytes
  | registerNamed _ _ bytes => some bytes
  | _ => none

end Operation

/-! ## Registrations -/

/-- A registration of these bytes would be torn: they are new, their abstract can be written, and
they cannot. -/
structure Tears (s : Shelf) (bytes : Bytes) : Prop where
  new : s.value? (.abstract (idOf bytes)) = none
  readable : s.fails .get (Key.abstract (idOf bytes)).encode = false
  noted : s.fails .put (Key.abstract (idOf bytes)).encode = false
  lost : s.fails .put (Key.bytes (idOf bytes)).encode = true

/-- The abstract that a registration writes. -/
def noteOf (contentType : String) (bytes : Bytes) : Bytes :=
  Abstract.render ⟨contentType, bytes.length⟩

/-- What a registration can come to: its outcome, and the store after it. -/
inductive Registered (contentType : String) (bytes : Bytes) (s : Shelf) :
    Except Error ContentId × Shelf → Prop where
  | refused (e : Error) : ¬ Tears s bytes → Registered contentType bytes s (.error e, s)
  | known : s.value? (.abstract (idOf bytes)) ≠ none →
      Registered contentType bytes s (.ok (idOf bytes), s)
  | retyped : s.value? (.abstract (idOf bytes)) ≠ none →
      Registered contentType bytes s
        (.ok (idOf bytes), s.stored (.abstract (idOf bytes)) (noteOf contentType bytes))
  | torn : Tears s bytes →
      Registered contentType bytes s
        (.error Shelf.injected, s.stored (.abstract (idOf bytes)) (noteOf contentType bytes))
  | stored : s.value? (.abstract (idOf bytes)) = none → ¬ Tears s bytes →
      Registered contentType bytes s
        (.ok (idOf bytes), (s.stored (.abstract (idOf bytes)) (noteOf contentType bytes)).stored
          (.bytes (idOf bytes)) bytes)

variable {s : Shelf} {contentType : String} {bytes : Bytes}

/-- A registration of bytes whose abstract is stored writes no more than an abstract. -/
theorem registered_known {stored : Bytes} (known : s.value? (.abstract (idOf bytes)) = some stored)
    (read : s.fails .get (Key.abstract (idOf bytes)).encode = false) :
    Registered contentType bytes s (register contentType bytes s) := by
  have present : s.value? (.abstract (idOf bytes)) ≠ none := by simp [known]
  have whole : ¬ Tears s bytes := fun tears => present tears.new
  simp only [register, Key.abstractKey_eq, Shelf.get_eq_of_reads read, known]
  cases Abstract.read? stored with
  | none => exact .refused _ whole
  | some abstract =>
    dsimp only
    split
    · exact .known present
    · cases noted : s.fails .put (Key.abstract (idOf bytes)).encode with
      | true =>
        simp only [Shelf.put_eq_of_fails _ noted]
        exact .refused _ whole
      | false =>
        simp only [Shelf.put_eq_of_writes _ noted]
        exact .retyped present

/-- A registration of new bytes writes their abstract and then the bytes, as far as it gets. -/
theorem registered_new (new : s.value? (.abstract (idOf bytes)) = none)
    (read : s.fails .get (Key.abstract (idOf bytes)).encode = false) :
    Registered contentType bytes s (register contentType bytes s) := by
  simp only [register, Key.abstractKey_eq, Key.bytesKey_eq, Shelf.get_eq_of_reads read, new]
  cases noted : s.fails .put (Key.abstract (idOf bytes)).encode with
  | true =>
    simp only [Shelf.put_eq_of_fails _ noted]
    exact .refused _ fun tears => by simp [tears.noted] at noted
  | false =>
    simp only [Shelf.put_eq_of_writes _ noted]
    -- storing the abstract makes no difference to which accesses fail
    have faults : (s.stored (.abstract (idOf bytes))
        (Abstract.render ⟨contentType, bytes.length⟩)).fails .put (Key.bytes (idOf bytes)).encode =
          s.fails .put (Key.bytes (idOf bytes)).encode := rfl
    cases lost : s.fails .put (Key.bytes (idOf bytes)).encode with
    | true =>
      rw [← faults] at lost
      simp only [Shelf.put_eq_of_fails bytes lost]
      exact .torn ⟨new, read, noted, lost⟩
    | false =>
      rw [← faults] at lost
      simp only [Shelf.put_eq_of_writes bytes lost]
      exact .stored new fun tears => by simp [faults, tears.lost] at lost

/-- **What a registration can do to a store.** -/
theorem registered_register (contentType : String) (bytes : Bytes) (s : Shelf) :
    Registered contentType bytes s (register contentType bytes s) := by
  cases read : s.fails .get (Key.abstract (idOf bytes)).encode with
  | true =>
    simp only [register, Key.abstractKey_eq, Shelf.get_eq_of_fails read]
    exact .refused _ fun tears => by simp [tears.readable] at read
  | false =>
    cases known : s.value? (.abstract (idOf bytes)) with
    | none => exact registered_new known read
    | some stored => exact registered_known known read

/-- **The id that a registration answers with is the one of its bytes.** -/
theorem Registered.eq_idOf {id : ContentId} {s' : Shelf}
    (h : Registered contentType bytes s (.ok id, s')) : id = idOf bytes := by
  cases h <;> rfl

/-- **A registration changes two entries at most**, the abstract and the bytes of its blob. -/
theorem Registered.frame {outcome : Except Error ContentId} {s' : Shelf} {k : Key}
    (h : Registered contentType bytes s (outcome, s')) (habstract : k ≠ .abstract (idOf bytes))
    (hbytes : k ≠ .bytes (idOf bytes)) : s'.value? k = s.value? k := by
  cases h <;> simp [habstract, hbytes]

/-! ## What operations do -/

/-- What an operation can come to: its answer, and the store after it. -/
inductive Effect (s : Shelf) : Operation → Answer × Shelf → Prop where
  | looked {operation : Operation} (answer : Answer) :
      operation.bytes? = none → Effect s operation (answer, s)
  | set (key value : Bytes) :
      Effect s (.set key value) (.done (.ok ()), s.stored (.guest key) value)
  | registered {contentType : String} {bytes : Bytes} {outcome : Except Error ContentId}
      {s' : Shelf} : Registered contentType bytes s (outcome, s') →
      Effect s (.register contentType bytes) (.id outcome, s')
  | unnamed {contentType : String} {bytes : Bytes} {outcome : Except Error ContentId}
      {s' : Shelf} (name : String) (e : Error) : Registered contentType bytes s (outcome, s') →
      Effect s (.registerNamed name contentType bytes) (.id (.error e), s')
  | named {contentType : String} {bytes : Bytes} {s' : Shelf} (name : String) :
      Registered contentType bytes s (.ok (idOf bytes), s') →
      Effect s (.registerNamed name contentType bytes)
        (.id (.ok (idOf bytes)), s'.stored (.name name) (Utf8.encode (idOf bytes)))

theorem effect_registerNamed (name contentType : String) (bytes : Bytes) (s : Shelf) :
    Effect s (.registerNamed name contentType bytes)
      (Operation.run (.registerNamed name contentType bytes) s) := by
  have h := registered_register contentType bytes s
  simp only [Operation.run, registerNamed]
  cases hr : register contentType bytes s with
  | mk outcome s' =>
    rw [hr] at h
    cases outcome with
    | error e => exact .unnamed name e h
    | ok id =>
      obtain rfl := h.eq_idOf
      simp only [Key.nameKey_eq]
      cases writes : s'.fails .put (Key.name name).encode with
      | true =>
        simp only [Shelf.put_eq_of_fails _ writes]
        exact .unnamed name _ h
      | false =>
        simp only [Shelf.put_eq_of_writes _ writes]
        exact .named name h

/-- **What an operation can do to a store.** -/
theorem Operation.effect (operation : Operation) (s : Shelf) :
    Effect s operation (operation.run s) := by
  cases operation with
  | register contentType bytes => exact .registered (registered_register contentType bytes s)
  | registerNamed name contentType bytes => exact effect_registerNamed name contentType bytes s
  | set key value =>
    cases writes : s.fails .put (Key.guest key).encode with
    | true =>
      have put : Persistence.set s key value = .error Shelf.injected := if_pos writes
      simpa only [run, put] using .looked _ rfl
    | false =>
      have put : Persistence.set s key value = .ok (s.stored (.guest key) value) :=
        if_neg (Bool.eq_false_iff.mp writes)
      simpa only [run, put] using .set key value
  | _ => exact .looked _ rfl

namespace Effect

variable {operation : Operation} {answer : Answer} {s' : Shelf}

/-- An operation that registers nothing leaves all blobs as they are. -/
theorem blob_eq {k : Key} (h : Effect s operation (answer, s'))
    (hid : ∀ c, operation.bytes? = some c → k ≠ .abstract (idOf c) ∧ k ≠ .bytes (idOf c))
    (hname : ∀ name, k ≠ .name name) (hguest : ∀ key, k ≠ .guest key) :
    s'.value? k = s.value? k := by
  cases h with
  | looked _ _ => rfl
  | set key value => simp [hguest]
  | registered h => exact h.frame (hid _ rfl).1 (hid _ rfl).2
  | unnamed _ _ h => exact h.frame (hid _ rfl).1 (hid _ rfl).2
  | named name h =>
    rw [Shelf.value?_stored, if_neg (hname name), h.frame (hid _ rfl).1 (hid _ rfl).2]

/-- An operation on bytes registers them, and if it answers with an id, so did the
registration. -/
theorem registered_of_bytes (h : Effect s operation (answer, s'))
    (hbytes : operation.bytes? = some bytes) :
    ∃ contentType outcome s₁, Registered contentType bytes s (outcome, s₁) ∧
      (∀ k, (∀ name, k ≠ .name name) → s'.value? k = s₁.value? k) ∧
      ∀ id, answer = .id (.ok id) → outcome = .ok id := by
  cases h with
  | looked _ none => simp [none] at hbytes
  | set key value => cases hbytes
  | registered h =>
    cases hbytes
    exact ⟨_, _, _, h, fun _ _ => rfl, fun id hid => by simpa using hid⟩
  | unnamed name e h =>
    cases hbytes
    exact ⟨_, _, _, h, fun _ _ => rfl, fun id hid => by simp at hid⟩
  | named name h =>
    cases hbytes
    exact ⟨_, _, _, h, fun k hk => by simp [hk], fun id hid => by simpa using hid⟩

/-- **A name is pointed at a blob by a registration that succeeds.** -/
theorem name_eq (h : Effect s operation (answer, s')) (name : String) :
    s'.value? (.name name) = s.value? (.name name) ∨
      ∃ c, operation.bytes? = some c ∧ answer = .id (.ok (idOf c)) ∧
        s'.value? (.name name) = some (Utf8.encode (idOf c)) := by
  cases h with
  | looked _ _ => exact .inl rfl
  | set key value => exact .inl (by simp)
  | registered h => exact .inl (h.frame (by simp) (by simp))
  | unnamed _ _ h => exact .inl (h.frame (by simp) (by simp))
  | named other h =>
    by_cases same : name = other
    · exact .inr ⟨_, rfl, rfl, by simp [same]⟩
    · exact .inl (by simp [same, h.frame])

/-- **A known blob keeps its bytes**, whatever is done to the store. -/
theorem known_kept {id : ContentId} (h : Effect s operation (answer, s'))
    (known : s.value? (.abstract id) ≠ none) :
    s'.value? (.abstract id) ≠ none ∧ s'.value? (.bytes id) = s.value? (.bytes id) := by
  by_cases same : ∃ c, operation.bytes? = some c ∧ id = idOf c
  · obtain ⟨c, hc, rfl⟩ := same
    obtain ⟨contentType, outcome, s₁, registered, frame, -⟩ := h.registered_of_bytes hc
    rw [frame (.abstract (idOf c)) (by simp), frame (.bytes (idOf c)) (by simp)]
    cases registered with
    | refused _ _ => exact ⟨known, rfl⟩
    | known _ => exact ⟨known, rfl⟩
    | retyped _ => simp
    | torn tears => exact absurd tears.new known
    | stored new _ => exact absurd new known
  · have other : ∀ c, operation.bytes? = some c → id ≠ idOf c :=
      fun c hc hid => same ⟨c, hc, hid⟩
    rw [h.blob_eq (k := .abstract id) (by simpa using other) (by simp) (by simp),
      h.blob_eq (k := .bytes id) (by simpa using other) (by simp) (by simp)]
    exact ⟨known, rfl⟩

/-- No operation makes faults or mends them. -/
theorem faults_eq (h : Effect s operation (answer, s')) : s'.faults = s.faults := by
  have registered {contentType : String} {bytes : Bytes} {outcome : Except Error ContentId}
      {s' : Shelf} (h : Registered contentType bytes s (outcome, s')) : s'.faults = s.faults := by
    cases h <;> rfl
  cases h with
  | looked _ _ => rfl
  | set key value => rfl
  | registered h => exact registered h
  | unnamed _ _ h => exact registered h
  | named name h => exact Shelf.faults_stored.trans (registered h)

end Effect

/-! ## Faults -/

/-- The entries that a registration of bytes under a name accesses. -/
def Key.ofRegistration (name : String) (bytes : Bytes) : List Key :=
  [.abstract (idOf bytes), .bytes (idOf bytes), .name name]

/-- None of the keys that a registration accesses is spelled as the start of another. -/
theorem Key.eq_of_prefix {name : String} {bytes : Bytes} {k l : Key}
    (hk : k ∈ Key.ofRegistration name bytes) (hl : l ∈ Key.ofRegistration name bytes)
    (h : k.encode <+: l.encode) : k = l := by
  obtain ⟨byId, byName, -, abstracts, contents⟩ := Key.spellings
  simp only [ofRegistration, List.mem_cons, List.not_mem_nil, or_false] at hk hl
  -- spellings of the same shape agree outright, and others part at a letter of their own
  rcases hk with rfl | rfl | rfl <;> rcases hl with rfl | rfl | rfl <;>
    simp only [encode, abstractKey, bytesKey, nameKey, Utf8.encode_append, byId, byName, abstracts,
      contents] at h <;>
    simp [List.prefix_append_right_inj] at h ⊢

/-- **Faults can single out accesses.** However the accesses of a registration are to fail and to
succeed, there are faults under which they do. -/
theorem exists_faults (name : String) (bytes : Bytes) (fate : Access → Key → Bool) :
    ∃ faults, ∀ s : Shelf, ∀ access, ∀ k ∈ Key.ofRegistration name bytes,
      (s.withFaults faults).fails access k.encode = fate access k := by
  let keys := Key.ofRegistration name bytes
  refine ⟨[Access.get, .put, .scan].flatMap fun a =>
    (keys.filter (fate a)).map fun k => ⟨a, k.encode⟩, fun s access k hk => ?_⟩
  rw [Bool.eq_iff_iff]
  simp only [Shelf.fails, Shelf.withFaults, List.any_eq_true, List.mem_flatMap, List.mem_map,
    List.mem_filter, Bool.and_eq_true, beq_iff_eq, List.isPrefixOf_iff_prefix]
  constructor
  · rintro ⟨_, ⟨a, -, l, ⟨hl, hfate⟩, rfl⟩, rfl, hprefix⟩
    rwa [← Key.eq_of_prefix hl hk hprefix]
  · intro hfate
    exact ⟨_, ⟨access, by cases access <;> simp, k, ⟨hk, hfate⟩, rfl⟩, rfl, List.prefix_refl _⟩

/-! ## Steps -/

/-- An operation and the faults under which it is carried out. -/
structure Step where
  faults : List Fault
  operation : Operation

/-- A step carried out: its answer, and the store after it. -/
def Step.run (t : Step) (s : Shelf) : Answer × Shelf := t.operation.run (s.withFaults t.faults)

/-- The store after a history. -/
def after (steps : List Step) : Shelf := steps.foldl (fun s t => (t.run s).2) .empty

/-- Some step of a history was as described when it was taken. -/
def Sometime (p : Shelf → Step → Prop) (steps : List Step) : Prop :=
  ∃ before t rest, steps = before ++ t :: rest ∧ p (after before) t

variable {p : Shelf → Step → Prop} {steps : List Step} {t : Step}

@[simp] theorem after_nil : after [] = .empty := rfl

theorem after_snoc : after (steps ++ [t]) = (t.run (after steps)).2 := by
  simp [after]

@[simp] theorem not_sometime_nil : ¬ Sometime p [] := by
  rintro ⟨before, t, rest, h, -⟩
  simp at h

@[simp] theorem sometime_snoc :
    Sometime p (steps ++ [t]) ↔ Sometime p steps ∨ p (after steps) t := by
  constructor
  · rintro ⟨before, u, rest, h, hp⟩
    -- the step is the last one exactly if nothing comes after it
    rcases List.eq_nil_or_concat' rest with rfl | ⟨rest, v, rfl⟩
    · obtain ⟨rfl, last⟩ := List.append_inj' h rfl
      cases last
      exact .inr hp
    · rw [← List.cons_append, ← List.append_assoc] at h
      exact .inl ⟨before, u, rest, (List.append_inj' h rfl).1, hp⟩
  · rintro (⟨before, u, rest, rfl, hp⟩ | hp)
    · exact ⟨before, u, rest ++ [t], by simp, hp⟩
    · exact ⟨steps, t, [], rfl, hp⟩

end Store

end GuestHost
