import GuestHost.Proofs.Store.Durability
import GuestHost.Proofs.Store.Parts
/-!
# The names in a store

Two views of the names of a store have to agree: a name is looked up under its own key, and all of
them are listed by a scan of the name space. A name points at what was last registered under it by a
registration that succeeded, `value?_name_after`, and nothing stands in the name space but names,
`keyed_after`, so the list holds each of them once, with what it points at:
`names_latest`. A registration that fails points no name anywhere, wherever it fails.
-/

namespace GuestHost

/-- Text survives lenient reading. -/
theorem Utf8.lossy_encode (text : String) : lossy (encode text) = text := by
  rw [lossy, decode?_encode]

namespace Store

open Blob

variable {s s' : Shelf} {operation : Operation} {answer : Answer} {steps : List Step} {t : Step}
  {name : String} {id : ContentId}

/-! ## What is registered under names -/

/-- The name that an operation registers and the id that it answers with, if it does both. -/
def naming? : Operation × Answer → Option (String × ContentId)
  | (.registerNamed name _ _, .id (.ok id)) => some (name, id)
  | _ => none

/-- The names that a history registered and the ids that it was answered with, in order. -/
def namings (steps : List Step) : List (String × ContentId) :=
  (answers steps .empty).filterMap naming?

theorem answers_snoc (steps : List Step) (t : Step) (s : Shelf) :
    answers (steps ++ [t]) s = answers steps s ++
      [(t.operation, (t.run (steps.foldl (fun s t => (t.run s).2) s)).1)] := by
  induction steps generalizing s with
  | nil => rfl
  | cons u rest ih => rw [List.cons_append, answers, ih, answers, List.cons_append, List.foldl_cons]

theorem namings_snoc (steps : List Step) (t : Step) :
    namings (steps ++ [t]) =
      namings steps ++ (naming? (t.operation, (t.run (after steps)).1)).toList := by
  have last : answers (steps ++ [t]) .empty = answers steps .empty ++
      [(t.operation, (t.run (after steps)).1)] := answers_snoc steps t .empty
  rw [namings, last, List.filterMap_append, ← namings]
  cases registered : naming? (t.operation, (t.run (after steps)).1) <;> simp [registered]

/-- **An operation points a name at the id that it answers with** if it registers the name, and
nowhere else. -/
theorem Effect.value?_name (h : Effect s operation (answer, s')) (name : String) :
    s'.value? (.name name) =
      (((naming? (operation, answer)).toList.lookup name).map Utf8.encode).or
        (s.value? (.name name)) := by
  cases h with
  | looked _ nothing =>
    have none : naming? (operation, answer) = none := by
      cases operation <;> first | rfl | cases nothing
    rw [none]
    rfl
  | set key value => simp [naming?]
  | registered h =>
    rw [h.frame (by simp) (by simp)]
    rfl
  | unnamed other e h =>
    rw [h.frame (by simp) (by simp)]
    rfl
  | @named contentType bytes _ other h =>
    have named : naming? (.registerNamed other contentType bytes, .id (.ok (idOf bytes))) =
      some (other, idOf bytes) := rfl
    by_cases same : name = other
    · simp [named, same]
    · have differs : (name == other) = false := beq_eq_false_iff_ne.mpr same
      have elsewhere : Key.name name ≠ .name other := by simpa using same
      rw [Shelf.value?_stored, if_neg elsewhere, h.frame (by simp) (by simp)]
      simp [named, List.lookup_cons, differs]

/-- **A name points at the id of its last registration that succeeded**, after every history. -/
theorem value?_name_after (steps : List Step) (name : String) :
    (after steps).value? (.name name) =
      ((namings steps).reverse.lookup name).map Utf8.encode := by
  induction steps using List.reverseRecOn with
  | nil => rfl
  | append_singleton steps t ih =>
    have step := (t.effect (after steps)).value?_name name
    rw [← after_snoc, Shelf.value?_withFaults, ih] at step
    have last : (naming? (t.operation, (t.run (after steps)).1)).toList.reverse =
        (naming? (t.operation, (t.run (after steps)).1)).toList := by
      cases naming? (t.operation, (t.run (after steps)).1) <;> rfl
    rw [step, namings_snoc, List.reverse_append, List.lookup_append, last]
    cases (naming? (t.operation, (t.run (after steps)).1)).toList.lookup name <;> rfl

/-! ## What stands in a store -/

/-- Everything in a store stands under a key of one of the sorts. -/
def Shelf.Keyed (s : Shelf) : Prop :=
  ∀ full value, s.entries.find? full = some value → ∃ k : Key, full = k.encode

theorem Shelf.Keyed.stored (keyed : s.Keyed) (k : Key) (value : Bytes) :
    (s.stored k value).Keyed := by
  intro full found stands
  by_cases same : full = k.encode
  · exact ⟨k, same⟩
  · rw [Shelf.find?_stored_of_ne same] at stands
    exact keyed full found stands

theorem Registered.keyed {contentType : String} {bytes : Bytes} {outcome : Except Error ContentId}
    (h : Registered contentType bytes s (outcome, s')) (keyed : s.Keyed) : s'.Keyed := by
  cases h with
  | refused _ _ => exact keyed
  | known _ => exact keyed
  | retyped _ => exact keyed.stored _ _
  | torn _ => exact keyed.stored _ _
  | stored _ _ => exact (keyed.stored _ _).stored _ _

theorem Effect.keyed (h : Effect s operation (answer, s')) (keyed : s.Keyed) : s'.Keyed := by
  cases h with
  | looked _ _ => exact keyed
  | set key value => exact keyed.stored _ _
  | registered h => exact h.keyed keyed
  | unnamed _ _ h => exact h.keyed keyed
  | named _ h => exact (h.keyed keyed).stored _ _

/-- **No history leaves anything under other keys.** -/
theorem keyed_after (steps : List Step) : (after steps).Keyed := by
  induction steps using List.reverseRecOn with
  | nil => exact fun _ _ stands => nomatch stands
  | append_singleton steps t ih =>
    have effect := t.effect (after steps)
    rw [← after_snoc] at effect
    exact effect.keyed ih

/-! ## The two views -/

/-- What is listed of the name space is a name with the id it points at. -/
theorem exists_naming_of_listed {e : Bytes × Bytes}
    (listed : e ∈ Shelf.inSpace nameSpace [] (after steps).entries) :
    ∃ name id, e = (Utf8.encode name, Utf8.encode id) ∧
      (namings steps).reverse.lookup name = some id := by
  obtain ⟨key, value⟩ := e
  obtain ⟨-, stands⟩ := Shelf.mem_inSpace.mp listed
  obtain ⟨k, spelled⟩ := keyed_after steps _ _ stands
  obtain ⟨name, rfl⟩ := Key.exists_name_of_prefix (spelled ▸ List.prefix_append nameSpace key)
  obtain rfl : key = Utf8.encode name := List.append_cancel_left spelled
  have pointed : (after steps).value? (.name name) = some value := stands
  rw [value?_name_after, Option.map_eq_some_iff] at pointed
  obtain ⟨id, last, rfl⟩ := pointed
  exact ⟨name, id, rfl, last⟩

theorem mem_inSpace_names :
    (Utf8.encode name, Utf8.encode id) ∈ Shelf.inSpace nameSpace [] (after steps).entries ↔
      (namings steps).reverse.lookup name = some id := by
  constructor
  · intro listed
    obtain ⟨name', id', same, last⟩ := exists_naming_of_listed listed
    rw [Prod.mk.injEq, Utf8.encode_injective.eq_iff, Utf8.encode_injective.eq_iff] at same
    rwa [same.1, same.2]
  · intro last
    have pointed : (after steps).value? (.name name) = some (Utf8.encode id) := by
      rw [value?_name_after, last, Option.map_some]
    exact Shelf.mem_inSpace.mpr ⟨List.nil_prefix, pointed⟩

/-- What is stored among the names depends on what was registered under names alone. -/
theorem find?_eq_of_namings {steps' : List Step} (same : namings steps' = namings steps)
    {key : Bytes} (starts : nameSpace <+: key) :
    (after steps').entries.find? key = (after steps).entries.find? key := by
  -- a key among the names is a name or has nothing under it in either store
  have named {steps : List Step} {value : Bytes}
      (found : (after steps).entries.find? key = some value) : ∃ n, key = (Key.name n).encode := by
    obtain ⟨k, rfl⟩ := keyed_after steps key value found
    obtain ⟨n, rfl⟩ := Key.exists_name_of_prefix starts
    exact ⟨n, rfl⟩
  by_cases spelled : ∃ n, key = (Key.name n).encode
  · obtain ⟨n, rfl⟩ := spelled
    have points : (after steps').value? (.name n) = (after steps).value? (.name n) := by
      rw [value?_name_after, value?_name_after, same]
    exact points
  · have none {steps : List Step} : (after steps).entries.find? key = none :=
      Option.eq_none_iff_forall_ne_some.mpr fun _ found => spelled (named found)
    rw [none, none]

/-- Without faults the names are what a scan of their name space lists. -/
theorem Blob.names_heal (s : Shelf) :
    names s.heal = .ok ((Shelf.inSpace nameSpace [] s.entries).map fun e =>
      (Utf8.lossy e.1, Utf8.lossy e.2)) := by
  have scanned : s.heal.scan nameSpace = .ok (Shelf.range nameSpace s.entries.entries) := rfl
  rw [names, scanned, Shelf.inSpace, List.append_nil, List.map_map]
  rfl

/-- The names that are listed after a history, each with the id it points at. -/
theorem mem_names_after {listed : List (String × ContentId)}
    (h : names (after steps).heal = .ok listed) :
    (name, id) ∈ listed ↔ (namings steps).reverse.lookup name = some id := by
  rw [names_heal] at h
  obtain rfl := Except.ok.inj h
  rw [← mem_inSpace_names, List.mem_map]
  constructor
  · rintro ⟨e, met, same⟩
    obtain ⟨name', id', rfl, -⟩ := exists_naming_of_listed met
    rw [Utf8.lossy_encode, Utf8.lossy_encode, Prod.mk.injEq] at same
    rwa [← same.1, ← same.2]
  · intro met
    exact ⟨_, met, by rw [Utf8.lossy_encode, Utf8.lossy_encode]⟩

/-- The names are listed in the order of their bytes, each of them once. -/
theorem sorted_names_after {listed : List (String × ContentId)}
    (h : names (after steps).heal = .ok listed) :
    listed.Pairwise fun a b => Utf8.encode a.1 < Utf8.encode b.1 := by
  rw [names_heal] at h
  obtain rfl := Except.ok.inj h
  refine List.pairwise_map.mpr (Shelf.sorted_inSpace.imp_of_mem fun {e e'} here there lt => ?_)
  obtain ⟨name, id, rfl, -⟩ := exists_naming_of_listed here
  obtain ⟨name', id', rfl, -⟩ := exists_naming_of_listed there
  simpa only [Utf8.lossy_encode] using lt

/-- A name is looked up as what was last registered under it. -/
theorem resolveAlias_after (steps : List Step) (name : String) :
    resolveAlias (after steps).heal name =
      ((namings steps).reverse.lookup name).elim (.error (.notFound name)) .ok := by
  have get : (after steps).heal.get (nameKey name) = .ok ((after steps).value? (.name name)) := rfl
  rw [resolveAlias, get, value?_name_after]
  cases (namings steps).reverse.lookup name with
  | none => rfl
  | some id => simp [bind, Except.bind, pure, Except.pure, Utf8.read, Utf8.decode?_encode]

/-- A name points somewhere if anything was registered under it. -/
theorem hasAlias_after (steps : List Step) (name : String) :
    hasAlias (after steps).heal name = .ok ((namings steps).reverse.lookup name).isSome := by
  have get : (after steps).heal.get (nameKey name) = .ok ((after steps).value? (.name name)) := rfl
  rw [hasAlias, get, value?_name_after]
  cases (namings steps).reverse.lookup name <;> rfl

/-- A registration under a name that fails, at whichever of its accesses, registers nothing under a
name. -/
theorem namings_of_failed {contentType : String} {bytes : Bytes} {e : Error}
    (operation : t.operation = .registerNamed name contentType bytes)
    (failed : (t.run (after steps)).1 = .id (.error e)) :
    namings (steps ++ [t]) = namings steps := by
  rw [namings_snoc, operation, failed]
  exact List.append_nil _

theorem names_of_namings {steps' : List Step} (same : namings steps' = namings steps) :
    names (after steps').heal = names (after steps).heal := by
  rw [names_heal, names_heal, Shelf.inSpace, Shelf.inSpace,
    Shelf.range_congr fun key starts => find?_eq_of_namings same (by simpa using starts)]

/-- **The names of a store, in both views.** After every history, under whatever faults, the names
of a store without faults are listed in the order of their bytes, each once: those under which a
registration succeeded, with the id that the last of these answered with. Looked up one by one they
are found as listed, and no others are found. A registration under a name that fails changes
neither view. -/
theorem names_latest (steps : List Step) : ∃ listed, names (after steps).heal = .ok listed ∧
    (listed.Pairwise fun a b => Utf8.encode a.1 < Utf8.encode b.1) ∧
    (∀ name id, (name, id) ∈ listed ↔ (namings steps).reverse.lookup name = some id) ∧
    (∀ name, name ∈ listed.map Prod.fst ↔ ∃ id, (name, id) ∈ namings steps) ∧
    (∀ name id, resolveAlias (after steps).heal name = .ok id ↔ (name, id) ∈ listed) ∧
    (∀ name, name ∉ listed.map Prod.fst →
      resolveAlias (after steps).heal name = .error (.notFound name)) ∧
    (∀ name, hasAlias (after steps).heal name = .ok (decide (name ∈ listed.map Prod.fst))) ∧
    ∀ t name contentType bytes e, t.operation = .registerNamed name contentType bytes →
      (t.run (after steps)).1 = .id (.error e) →
      names (after (steps ++ [t])).heal = .ok listed ∧
        ∀ other, resolveAlias (after (steps ++ [t])).heal other =
            resolveAlias (after steps).heal other ∧
          hasAlias (after (steps ++ [t])).heal other = hasAlias (after steps).heal other := by
  have some_iff (name : String) :
      ((namings steps).reverse.lookup name).isSome ↔ ∃ id, (name, id) ∈ namings steps := by
    simp [List.lookup_isSome_iff]
  obtain ⟨listed, lists⟩ : ∃ listed, names (after steps).heal = .ok listed := ⟨_, names_heal _⟩
  have listed_iff (name : String) :
      name ∈ listed.map Prod.fst ↔ ((namings steps).reverse.lookup name).isSome := by
    simp [mem_names_after lists, Option.isSome_iff_exists]
  refine ⟨listed, lists, sorted_names_after lists, fun _ _ => mem_names_after lists,
    fun name => (listed_iff name).trans (some_iff name), fun name id => ?_, fun name absent => ?_,
    fun name => ?_, fun t name contentType bytes e operation failed => ?_⟩
  · rw [resolveAlias_after, mem_names_after lists]
    cases (namings steps).reverse.lookup name <;> simp
  · rw [listed_iff, Option.not_isSome_iff_eq_none] at absent
    rw [resolveAlias_after, absent]
    rfl
  · rw [hasAlias_after, decide_eq_decide.mpr (listed_iff name), Bool.decide_coe]
  · have same : namings (steps ++ [t]) = namings steps := namings_of_failed operation failed
    refine ⟨(names_of_namings same).trans lists, fun other => ?_⟩
    rw [resolveAlias_after, resolveAlias_after, hasAlias_after, hasAlias_after, same]
    exact ⟨rfl, rfl⟩

/-- Two names are pointed at a blob, and the first of them, the empty one, at another. -/
def repointed : List Step :=
  [⟨[], .registerNamed "" "text/plain" [0x61]⟩, ⟨[], .registerNamed "a/b" "text/plain" [0x61]⟩,
    ⟨[], .registerNamed "" "text/plain" [0x62]⟩]

/-- The second name is to be pointed at the other blob too, and cannot be written. -/
def unpointed : Step := ⟨[⟨.put, nameKey "a/b"⟩], .registerNamed "a/b" "text/plain" [0x62]⟩

/-- The registration that fails leaves the second name where it pointed. -/
theorem names_repointed_unpointed :
    (unpointed.run (after repointed)).1 = .id (.error Shelf.injected) ∧
      names (after (repointed ++ [unpointed])).heal =
        .ok [("", idOf [0x62]), ("a/b", idOf [0x61])] ∧
      resolveAlias (after (repointed ++ [unpointed])).heal "a/b" = .ok (idOf [0x61]) := by
  have failed : (unpointed.run (after repointed)).1 = .id (.error Shelf.injected) := by
    decide +kernel
  have before : names (after repointed).heal = .ok [("", idOf [0x62]), ("a/b", idOf [0x61])] := by
    decide +kernel
  obtain ⟨listed, lists, -, -, -, resolved, -, -, kept⟩ := names_latest repointed
  obtain rfl := Except.ok.inj (lists.symm.trans before)
  obtain ⟨names, looked⟩ := kept unpointed _ _ _ _ rfl failed
  exact ⟨failed, names, (looked "a/b").1.trans ((resolved _ _).mpr (by simp))⟩

end Store

end GuestHost
