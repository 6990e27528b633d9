import GuestHost.Proofs.Exchange.Handles
import GuestHost.Proofs.HostCalls.Tame
/-!
# Buffers at their places

A buffer is used where it is kept, be it through a handle that stands for its place,
`Registry.use_of_place?`, or by somebody who holds on to the place. No two handles ever stand for
one place, `Registry.Distinct`, and no other handle ever takes the place of the one that does,
`World.steady_namedBy`, so that a buffer whose handle has been released is out of reach of all
handles, `Registry.NamedBy.none_of_ne`. What a memory buffer holds, `World.Has`, is added to by
writing at its place, `World.Has.write`, and left alone by plain operations and by whatever is done
at other places, `World.calm_has` and `World.Has.useAt_of_ne`.
-/

namespace GuestHost

namespace Exchange

namespace Registry

variable {r : Registry} {handle : Nat} {place other : Place} {b : Buffer} {α : Type}

/-! ## Using a buffer -/

theorem at?_put_self (held : r.at? place = some b) (buffer : Buffer) :
    (r.put place buffer).at? place = some buffer := by
  have inside : place < r.buffers.size := (Array.getElem?_eq_some_iff.mp held).1
  simp only [at?, put, change, Array.getElem?_modify, if_true, Array.getElem?_eq_getElem inside]
  rfl

theorem put_self (held : r.at? place = some b) : r.put place b = r := by
  have same : r.buffers.modify place (fun _ => b) = r.buffers := by
    refine Array.ext_getElem? fun i => ?_
    rw [Array.getElem?_modify]
    split
    · rename_i here
      subst here
      rw [show r.buffers[place]? = some b from held, Option.map_some]
    · rfl
  rw [put, change, same]

theorem put_put (r : Registry) (place : Place) (b b' : Buffer) :
    (r.put place b).put place b' = r.put place b' := by
  have same : (r.buffers.modify place fun _ => b).modify place (fun _ => b') =
      r.buffers.modify place fun _ => b' := by
    refine Array.ext_getElem? fun i => ?_
    simp only [Array.getElem?_modify]
    split <;> simp [Function.comp_def]
  rw [put, put, change, change, same]
  rfl

theorem useAt_of_at? (held : r.at? place = some b)
    (operation : Buffer → Except Error α × Buffer) :
    r.useAt place operation = ((operation b).1, r.put place (operation b).2) := by
  rw [useAt, held]

/-- An operation on the buffer of a live handle is one at its place. -/
theorem use_of_place? (live : r.place? handle = some place)
    (operation : Buffer → Except Error α × Buffer) :
    r.use handle operation = r.useAt place operation := by
  rw [use, live]

/-- An operation on the buffer of a live handle is carried out on that buffer, which the handle
stands for afterwards too. -/
theorem use_of_find? (live : r.find? handle = some b)
    (operation : Buffer → Except Error α × Buffer) :
    (r.use handle operation).1 = (operation b).1 ∧
      (r.use handle operation).2.find? handle = some (operation b).2 := by
  obtain ⟨place, found, held⟩ := Option.bind_eq_some_iff.mp live
  rw [use_of_place? found, useAt_of_at? held]
  refine ⟨rfl, ?_⟩
  rw [find?, show (r.put place (operation b).2).place? handle = some place from found]
  exact at?_put_self held _

theorem size_useAt (r : Registry) (place : Place) (operation : Buffer → Except Error α × Buffer) :
    (r.useAt place operation).2.buffers.size = r.buffers.size := by
  unfold useAt
  split
  · exact Array.size_modify
  · rfl

theorem buffers_release (r : Registry) (given : Nat) : (r.release given).buffers = r.buffers := by
  unfold release
  split <;> rfl

/-- A handle that is live behind a release was live before. -/
theorem place?_of_release {given : Nat} (live : (r.release given).place? handle = some place) :
    r.place? handle = some place := by
  rw [place?_release] at live
  split at live
  · cases live
  · exact live

/-- A buffer that is registered leaves those that there are alone. -/
theorem at?_register_of_at? (held : r.at? place = some b) (buffer : Buffer) :
    (r.register buffer).at? place = some b := by
  have inside : place < r.buffers.size := (Array.getElem?_eq_some_iff.mp held).1
  simp only [at?, register, Array.getElem?_push]
  rw [if_neg (Nat.ne_of_lt inside)]
  exact held

/-! ## Handles and places -/

/-- Live handles stand for places of buffers, no two of them for one. -/
structure Distinct (r : Registry) : Prop where
  inside : ∀ handle place, r.place? handle = some place → place < r.buffers.size
  alone : ∀ handle other place, r.place? handle = some place → r.place? other = some place →
    other = handle

/-- There is a buffer at a place, and no live handles stand for the place but some. -/
structure NamedBy (who : Nat → Prop) (place : Place) (r : Registry) : Prop where
  inside : place < r.buffers.size
  named : ∀ handle, r.place? handle = some place → who handle

theorem distinct_empty : empty.Distinct :=
  ⟨fun _ _ live => (nomatch live), fun _ _ _ live => (nomatch live)⟩

namespace Distinct

/-- A buffer that is registered gets a handle and a place of its own. -/
theorem register (h : r.Distinct) (buffer : Buffer) : (r.register buffer).Distinct := by
  have size : (r.register buffer).buffers.size = r.buffers.size + 1 := Array.size_push _
  refine ⟨fun handle place live => ?_, fun handle other place live live' => ?_⟩
  · rw [place?_register] at live
    rw [size]
    split at live
    · cases live
      exact Nat.lt_succ_self _
    · exact Nat.lt_succ_of_lt (h.inside handle place live)
  · rw [place?_register] at live live'
    -- the new place is behind all that there are
    split at live <;> split at live'
    · rename_i same same'
      exact same'.trans same.symm
    · cases live
      exact absurd (h.inside other _ live') (Nat.lt_irrefl _)
    · cases live'
      exact absurd (h.inside handle _ live) (Nat.lt_irrefl _)
    · exact h.alone handle other place live live'

theorem release (h : r.Distinct) (given : Nat) : (r.release given).Distinct := by
  refine ⟨fun handle place live => ?_, fun handle other place live live' =>
    h.alone handle other place (place?_of_release live) (place?_of_release live')⟩
  rw [buffers_release]
  exact h.inside handle place (place?_of_release live)

theorem useAt (h : r.Distinct) (place : Place) (operation : Buffer → Except Error α × Buffer) :
    (r.useAt place operation).2.Distinct := by
  refine ⟨fun handle other live => ?_, fun handle other target live live' => ?_⟩
  · rw [place?_useAt] at live
    rw [size_useAt]
    exact h.inside handle other live
  · rw [place?_useAt] at live live'
    exact h.alone handle other target live live'

/-- The place of a live handle is named by that handle only. -/
theorem namedBy (h : r.Distinct) (live : r.place? handle = some place) :
    r.NamedBy (· = handle) place :=
  ⟨h.inside handle place live, fun other live' => h.alone handle other place live live'⟩

end Distinct

namespace NamedBy

variable {who : Nat → Prop}

/-- **No buffer that is registered is put at a place that there is.** -/
theorem register (h : r.NamedBy who place) (buffer : Buffer) :
    (r.register buffer).NamedBy who place where
  inside := by
    show place < (r.buffers.push buffer).size
    rw [Array.size_push]
    exact Nat.lt_succ_of_lt h.inside
  named handle live := by
    rw [place?_register] at live
    split at live
    · exact absurd (Option.some.inj live) (Nat.ne_of_gt h.inside)
    · exact h.named handle live

theorem release (h : r.NamedBy who place) (given : Nat) : (r.release given).NamedBy who place where
  inside := by
    rw [buffers_release]
    exact h.inside
  named handle live := h.named handle (place?_of_release live)

theorem useAt (h : r.NamedBy who place) (given : Place)
    (operation : Buffer → Except Error α × Buffer) :
    (r.useAt given operation).2.NamedBy who place where
  inside := by
    rw [size_useAt]
    exact h.inside
  named handle live := by
    rw [place?_useAt] at live
    exact h.named handle live

/-- A place that has lost the one handle that could stand for it is named by none. -/
theorem none_of_ne (h : r.NamedBy (· = handle) place) (gone : r.place? handle ≠ some place) :
    r.NamedBy (fun _ => False) place :=
  ⟨h.inside, fun other live => gone (h.named other live ▸ live)⟩

/-- **No call through a handle reaches a place that none stands for.** -/
theorem at?_use (h : r.NamedBy (fun _ => False) place) (handle : Nat)
    (operation : Buffer → Except Error α × Buffer) :
    (r.use handle operation).2.at? place = r.at? place := by
  unfold use
  split
  · rename_i given found
    have live (same : place = given) : r.place? handle = some place := by rw [found, same]
    exact at?_useAt_of_ne (fun same => h.named handle (live same)) operation
  · rfl

end NamedBy

end Registry

end Exchange

open Exchange

namespace World

variable {w : World} {place other : Place} {handle : Nat} {content : Bytes} {α : Type}

/-! ## Worlds -/

theorem registry_useAt (w : World) (place : Place)
    (operation : Buffer → Except Error α × Buffer) :
    (w.useAt place operation).2.registry = (w.registry.useAt place operation).2 :=
  noteRefusal_registry _ _

theorem registry_use (w : World) (handle : Nat)
    (operation : Buffer → Except Error α × Buffer) :
    (w.use handle operation).2.registry = (w.registry.use handle operation).2 :=
  noteRefusal_registry _ _

theorem use_of_place? (live : w.registry.place? handle = some place)
    (operation : Buffer → Except Error α × Buffer) :
    w.use handle operation = w.useAt place operation := by
  unfold use useAt
  rw [Registry.use_of_place? live]

/-- What operations on buffers keep of the registry is steady. -/
theorem steady_of_registry {P : Registry → Prop}
    (useAt : ∀ {r : Registry}, P r → ∀ {α : Type} (place : Place)
      (operation : Buffer → Except Error α × Buffer), P (r.useAt place operation).2) :
    Steady fun w => P w.registry := by
  refine ⟨fun _ _ h => h, fun _ _ h => h, fun w α place operation h => ?_⟩
  rw [registry_useAt]
  exact useAt h place operation

theorem steady_distinct : Steady fun w => w.registry.Distinct :=
  steady_of_registry fun h => h.useAt

theorem roomy_distinct : Roomy fun w => w.registry.Distinct :=
  ⟨fun _ buffer h => h.register buffer, fun _ handle h => h.release handle⟩

/-- **No other handles come to stand for a place**, whatever hosts and guests do. -/
theorem steady_namedBy (who : Nat → Prop) (place : Place) :
    Steady fun w => w.registry.NamedBy who place := steady_of_registry fun h => h.useAt

theorem roomy_namedBy (who : Nat → Prop) (place : Place) :
    Roomy fun w => w.registry.NamedBy who place :=
  ⟨fun _ buffer h => h.register buffer, fun _ handle h => h.release handle⟩

/-! ## What a memory buffer holds -/

/-- The buffer at a place is a memory buffer with some content. -/
def Has (place : Place) (content : Bytes) (w : World) : Prop :=
  ∃ b : MemoryBuffer, w.registry.at? place = some (.memory b) ∧ b.content = content

/-- What is done at one place leaves what is at the others alone. -/
theorem Has.useAt_of_ne (h : w.Has place content) (apart : place ≠ other)
    (operation : Buffer → Except Error α × Buffer) :
    (w.useAt other operation).2.Has place content := by
  obtain ⟨b, held, rfl⟩ := h
  refine ⟨b, ?_, rfl⟩
  rw [registry_useAt, Registry.at?_useAt_of_ne apart, held]

/-- **Writing at a place succeeds and adds the bytes** behind those that are there. -/
theorem Has.write (h : w.Has place content) (bytes : Bytes) :
    (w.useAt place (Buffer.write bytes)).1 = .ok bytes.length ∧
      (w.useAt place (Buffer.write bytes)).2.Has place (content ++ bytes) := by
  obtain ⟨b, held, rfl⟩ := h
  have written := Registry.useAt_of_at? held (Buffer.write bytes)
  refine ⟨?_, { b with content := b.content ++ bytes }, ?_, rfl⟩
  · show (w.registry.useAt place (Buffer.write bytes)).1 = _
    rw [written]
    rfl
  · rw [registry_useAt, written]
    exact Registry.at?_put_self held _

/-- **Reading at a place gives all that is there**, and leaves it there. -/
theorem Has.read (h : w.Has place content) :
    (w.useAt place Buffer.read).1 = .ok content ∧
      (w.useAt place Buffer.read).2.Has place content := by
  obtain ⟨b, held, rfl⟩ := h
  have taken := Registry.useAt_of_at? held Buffer.read
  refine ⟨?_, b, ?_, rfl⟩
  · show (w.registry.useAt place Buffer.read).1 = _
    rw [taken]
    rfl
  · rw [registry_useAt, taken]
    exact Registry.at?_put_self held _

/-- **Plain operations change the content of no memory buffer.** -/
theorem Has.useAt_plain (h : w.Has place content) (given : Place)
    {operation : Buffer → Except Error α × Buffer} (plain : Buffer.Plain operation) :
    (w.useAt given operation).2.Has place content := by
  by_cases same : place = given
  · subst same
    obtain ⟨b, held, rfl⟩ := h
    obtain ⟨b', left, content⟩ := plain b
    refine ⟨b', ?_, content⟩
    rw [registry_useAt, Registry.useAt_of_at? held, left]
    exact Registry.at?_put_self held _
  · exact h.useAt_of_ne same operation

theorem calm_has (place : Place) (content : Bytes) : Calm (Has place content) where
  note _ _ _ h := h
  shelf _ _ h := h
  useAt _ _ given _ plain _ h := h.useAt_plain given plain

/-- **Making buffers and freeing them changes no content.** -/
theorem roomy_has (place : Place) (content : Bytes) : Roomy (Has place content) where
  register w buffer h := by
    obtain ⟨b, held, rfl⟩ := h
    exact ⟨b, Registry.at?_register_of_at? held buffer, rfl⟩
  release w handle h := by
    obtain ⟨b, held, rfl⟩ := h
    refine ⟨b, ?_, rfl⟩
    show (w.registry.release handle).at? place = _
    rw [Registry.at?, Registry.buffers_release]
    exact held

end World

end GuestHost
