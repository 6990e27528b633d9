import GuestHost.Proofs.Store.History
import GuestHost.Proofs.Store.Scan
/-!
# Blobs and guests do not interfere

One store holds what guests keep and what is kept of blobs, in two parts that no key is in both of.
An operation is `Confined` to its part: its answer and what it does there depend on that part and
the faults alone, and the other part is left as it was. So the answers of the operations on one part
are those of the history that holds no others, `parts_do_not_interfere`, whatever keys the guests
choose and wherever the faults are.
-/

namespace GuestHost

namespace Store

open Blob

/-- The parts of a store. -/
inductive Region where
  | guests
  | blobs
  deriving DecidableEq

namespace Region

/-- How the keys of a part start. -/
def start : Region → Bytes
  | guests => Persistence.nameSpace
  | blobs => Utf8.encode "/blobs/"

/-- **No key is in both parts.** -/
theorem eq_of_start {part other : Region} {key : Bytes} (h : part.start <+: key)
    (h' : other.start <+: key) : part = other := by
  have starts : part.start <+: other.start ∨ other.start <+: part.start :=
    List.prefix_or_prefix_of_prefix h h'
  revert starts
  cases part <;> cases other <;> decide

/-- Two stores hold the same in a part. -/
def Agree (part : Region) (s t : Shelf) : Prop :=
  ∀ key, part.start <+: key → s.entries.find? key = t.entries.find? key

theorem Agree.refl (part : Region) (s : Shelf) : part.Agree s s := fun _ _ => rfl

theorem Agree.trans {part : Region} {s t u : Shelf} (h : part.Agree s t) (h' : part.Agree t u) :
    part.Agree s u := fun key inside => (h key inside).trans (h' key inside)

end Region

/-- The part that an operation is about. -/
def Operation.part : Operation → Region
  | set _ _ => .guests
  | get _ => .guests
  | subset _ => .guests
  | _ => .blobs

/-- An access is confined to a part: it leaves the faults and other parts alone, and what it answers
and does depends on the faults and the part. -/
structure Confined {β : Type} (part : Region) (access : Shelf → β × Shelf) : Prop where
  faults (s : Shelf) : (access s).2.faults = s.faults
  same {s t : Shelf} : s.faults = t.faults → part.Agree s t →
    (access s).1 = (access t).1 ∧ part.Agree (access s).2 (access t).2
  apart {other : Region} (s : Shelf) : other ≠ part → other.Agree (access s).2 s

namespace Confined

variable {α β : Type} {part : Region} {key value : Bytes}

/-! ## Single accesses -/

/-- What is read off a part is confined to it. -/
theorem look {f : Shelf → β} (h : ∀ {s t}, s.faults = t.faults → part.Agree s t → f s = f t) :
    Confined part fun s => (f s, s) where
  faults _ := rfl
  same faults agree := ⟨h faults agree, agree⟩
  apart s _ := .refl _ s

theorem fails_congr {s t : Shelf} (faults : s.faults = t.faults) (access : Access) (key : Bytes) :
    s.fails access key = t.fails access key := by
  simp only [Shelf.fails, faults]

theorem get_congr {s t : Shelf} (inside : part.start <+: key) (faults : s.faults = t.faults)
    (agree : part.Agree s t) : s.get key = t.get key := by
  rw [Shelf.get, Shelf.get, fails_congr faults, agree key inside]

/-- A scan for a start inside a part meets keys of the part only. -/
theorem scan_congr {s t : Shelf} {start : Bytes} (inside : part.start <+: start)
    (faults : s.faults = t.faults) (agree : part.Agree s t) : s.scan start = t.scan start := by
  have entries : Shelf.range start s.entries.entries = Shelf.range start t.entries.entries :=
    Shelf.range_congr fun key starts => agree key (inside.trans starts)
  rw [Shelf.scan, Shelf.scan, fails_congr faults, entries]

theorem put_eq (key value : Bytes) (s : Shelf) :
    Blob.put key value s =
      if s.fails .put key then (.error Shelf.injected, s)
      else (.ok (), { s with entries := s.entries.insert key value }) := by
  unfold Blob.put Shelf.put
  cases s.fails .put key <;> rfl

theorem put (inside : part.start <+: key) (value : Bytes) :
    Confined part (Blob.put key value) where
  faults s := by
    rw [put_eq]
    split <;> rfl
  same {s t} faults agree := by
    rw [put_eq, put_eq, fails_congr faults]
    split
    · exact ⟨rfl, agree⟩
    · refine ⟨rfl, fun other starts => ?_⟩
      simp only [Table.find?_insert, agree other starts]
  apart {other} s differs := by
    rw [put_eq]
    split
    · exact .refl other s
    · intro k starts
      -- the key that is written starts as its own part says
      have ne : k ≠ key := fun same => differs (Region.eq_of_start starts (same ▸ inside))
      simp only [Table.find?_insert, if_neg ne]

/-! ## Accesses one after the other -/

/-- An access whose answer decides on the next. -/
theorem andThen {access : Shelf → α × Shelf} {next : α → Shelf → β × Shelf}
    (first : Confined part access) (then_ : ∀ a, Confined part (next a)) :
    Confined part fun s => next (access s).1 (access s).2 where
  faults s := ((then_ _).faults _).trans (first.faults s)
  same {s t} faults agree := by
    obtain ⟨answer, agree'⟩ := first.same faults agree
    have faults' : (access s).2.faults = (access t).2.faults := by
      rw [first.faults, first.faults, faults]
    rw [answer]
    exact (then_ _).same faults' agree'
  apart s differs := ((then_ _).apart _ differs).trans (first.apart s differs)

/-- An answer that is put in other words. -/
theorem answer {access : Shelf → α × Shelf} (h : Confined part access) (f : α → β) :
    Confined part fun s => (f (access s).1, (access s).2) :=
  h.andThen fun a => look (f := fun _ => f a) fun _ _ => rfl

/-- An access that the next one follows unless it fails. -/
theorem unlessFails {access : Blob.Access α} {next : α → Blob.Access β}
    (first : Confined part access) (then_ : ∀ a, Confined part (next a)) :
    Confined part fun s =>
      match access s with
      | (.error e, s) => (.error e, s)
      | (.ok a, s) => next a s := by
  let follow (outcome : Except Error α) (s : Shelf) : Except Error β × Shelf :=
    match outcome with
    | .error e => (.error e, s)
    | .ok a => next a s
  have follows (outcome : Except Error α) : Confined part (follow outcome) := by
    cases outcome with
    | error e => exact look fun _ _ => rfl
    | ok a => exact then_ a
  convert first.andThen follows using 2 with s
  rcases access s with ⟨_ | _, _⟩ <;> rfl

/-- A put that the next access follows unless it fails. -/
theorem afterPut {next : Blob.Access β} (inside : part.start <+: key) (value : Bytes)
    (then_ : Confined part next) :
    Confined part fun s =>
      match Blob.put key value s with
      | (.error e, s) => (.error e, s)
      | (.ok (), s) => next s := by
  convert (put inside value).unlessFails fun _ => then_ using 2 with s
  rcases Blob.put key value s with ⟨_ | _, _⟩ <;> rfl

/-- An access that looks at a key and goes on as it finds it. -/
theorem afterGet {access : Shelf → β × Shelf} (inside : part.start <+: key)
    (h : ∀ known, ∃ next, Confined part next ∧ ∀ s, s.get key = known → access s = next s) :
    Confined part access := by
  choose next confined eq using h
  have goes : access = fun s => next (s.get key) s := funext fun s => eq _ s rfl
  rw [goes]
  exact (look (get_congr inside)).andThen confined

end Confined

/-! ## Operations -/

namespace Region

theorem start_byId (id : ContentId) (entry : String) :
    blobs.start <+: Utf8.encode ("/blobs/byid/" ++ id ++ entry) := by
  have start : blobs.start <+: Utf8.encode "/blobs/byid/" := by decide
  rw [Utf8.encode_append, Utf8.encode_append, List.append_assoc]
  exact start.trans (List.prefix_append _ _)

theorem start_abstractKey (id : ContentId) : blobs.start <+: abstractKey id := start_byId id _

theorem start_bytesKey (id : ContentId) : blobs.start <+: bytesKey id := start_byId id _

theorem start_nameSpace : blobs.start <+: Blob.nameSpace := by decide

theorem start_nameKey (name : String) : blobs.start <+: nameKey name :=
  start_nameSpace.trans (List.prefix_append _ _)

theorem start_fullKey (key : Bytes) : guests.start <+: Persistence.fullKey key :=
  List.prefix_append _ _

end Region

open Region Confined

theorem confined_register (contentType : String) (bytes : Bytes) :
    Confined .blobs (register contentType bytes) := by
  have done : Confined .blobs fun s => ((.ok (idOf bytes) : Except Error ContentId), s) :=
    look fun _ _ => rfl
  have inside := start_abstractKey (idOf bytes)
  -- what is stored decides which of the puts are made
  refine afterGet inside fun known => ?_
  match known with
  | .error e =>
    exact ⟨fun s => (.error e, s), look fun _ _ => rfl, fun s get => by rw [register, get]⟩
  | .ok none =>
    have write := afterPut inside (noteOf contentType bytes)
      (afterPut (start_bytesKey (idOf bytes)) bytes done)
    exact ⟨_, write, fun s get => by grind [register, noteOf]⟩
  | .ok (some stored) =>
    cases read : Abstract.read? stored with
    | none =>
      refine ⟨fun s => (.error .json, s), look fun _ _ => rfl, fun s get => ?_⟩
      simp only [register, get, read]
    | some known =>
      by_cases same : known = ⟨contentType, bytes.length⟩
      · exact ⟨_, done, fun s get => by simp only [register, get, read, if_pos same]⟩
      · have retype := afterPut inside (noteOf contentType bytes) done
        exact ⟨_, retype, fun s get => by grind [register, noteOf]⟩

theorem confined_registerNamed (name contentType : String) (bytes : Bytes) :
    Confined .blobs (registerNamed name contentType bytes) := by
  have done (id : ContentId) : Confined .blobs fun s => ((.ok id : Except Error ContentId), s) :=
    look fun _ _ => rfl
  convert (confined_register contentType bytes).unlessFails fun id =>
    afterPut (start_nameKey name) (Utf8.encode id) (done id) using 2 with s
  grind [registerNamed]

/-- **Every operation is confined to its part.** -/
theorem Operation.confined (operation : Operation) : Confined operation.part operation.run := by
  cases operation with
  | register contentType bytes => exact (confined_register contentType bytes).answer Answer.id
  | registerNamed name contentType bytes =>
    exact (confined_registerNamed name contentType bytes).answer Answer.id
  | resolveAlias name =>
    refine look fun faults agree => ?_
    simp only [Blob.resolveAlias, get_congr (start_nameKey name) faults agree]
  | hasAlias name =>
    refine look fun faults agree => ?_
    simp only [Blob.hasAlias, get_congr (start_nameKey name) faults agree]
  | resolve reference =>
    refine look fun faults agree => ?_
    simp only [Blob.resolve, Blob.resolveAlias, get_congr (start_nameKey reference) faults agree]
  | abstractOf id =>
    refine look fun faults agree => ?_
    simp only [Blob.abstractOf, get_congr (start_abstractKey id) faults agree]
  | bytesOf id =>
    refine look fun faults agree => ?_
    simp only [Blob.bytesOf, get_congr (start_bytesKey id) faults agree]
  | names =>
    refine look fun faults agree => ?_
    simp only [Blob.names, scan_congr start_nameSpace faults agree]
  | set key value =>
    have same : run (.set key value) = fun s =>
        (.done (Blob.put (Persistence.fullKey key) value s).1,
          (Blob.put (Persistence.fullKey key) value s).2) := by
      funext s
      simp only [run, Persistence.set, Blob.put]
      cases s.put (Persistence.fullKey key) value <;> rfl
    rw [same]
    exact (Confined.put (start_fullKey key) value).answer Answer.done
  | get key =>
    refine look fun faults agree => ?_
    simp only [Persistence.get, get_congr (start_fullKey key) faults agree]
  | subset start =>
    refine look fun faults agree => ?_
    simp only [Persistence.subset, scan_congr (start_fullKey start) faults agree]

/-! ## Histories -/

/-- The operations of a history with their answers, on a store as it is when the history begins. -/
def answers : List Step → Shelf → List (Operation × Answer)
  | [], _ => []
  | t :: rest, s => (t.operation, (t.run s).1) :: answers rest (t.run s).2

/-- A step on a part answers and does there what it would on any store that holds the same. -/
theorem Step.run_congr {part : Region} {s u : Shelf} {t : Step} (inside : t.operation.part = part)
    (agree : part.Agree s u) :
    (t.run s).1 = (t.run u).1 ∧ part.Agree (t.run s).2 (t.run u).2 := by
  subst inside
  exact t.operation.confined.same (s := s.withFaults t.faults) (t := u.withFaults t.faults) rfl agree

/-- A step on another part changes nothing here. -/
theorem Step.run_apart {part : Region} {t : Step} (outside : t.operation.part ≠ part) (s : Shelf) :
    part.Agree (t.run s).2 s :=
  t.operation.confined.apart (s.withFaults t.faults) outside.symm

/-- Stores that hold the same in a part give its operations the same answers. -/
theorem answers_congr {part : Region} {steps : List Step} {s u : Shelf} (agree : part.Agree s u) :
    (answers steps s).filter (fun e => e.1.part = part) =
      answers (steps.filter fun t => t.operation.part = part) u := by
  induction steps generalizing s u with
  | nil => rfl
  | cons t rest ih =>
    by_cases inside : t.operation.part = part
    · obtain ⟨answer, agree'⟩ := Step.run_congr inside agree
      rw [answers, List.filter_cons_of_pos (by simpa using inside),
        List.filter_cons_of_pos (by simpa using inside), answers, answer, ih agree']
    · rw [answers, List.filter_cons_of_neg (by simpa using inside),
        List.filter_cons_of_neg (by simpa using inside),
        ih ((Step.run_apart inside s).trans agree)]

/-- **The parts of a store do not interfere.** In every history, with any faults on the way, the
operations on one part are answered as in the history without the operations on the other: guests
cannot tell what is done to blobs, and blobs and names are safe from guests, whatever keys and
starts of keys these choose. -/
theorem parts_do_not_interfere (part : Region) (steps : List Step) (s : Shelf) :
    (answers steps s).filter (fun e => e.1.part = part) =
      answers (steps.filter fun t => t.operation.part = part) s :=
  answers_congr (.refl part s)

end Store

end GuestHost
