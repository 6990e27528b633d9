import GuestHost.Exchange.Registry
import Mathlib.Data.List.Induction
import Mathlib.Data.List.Range
/-!
# What becomes of handles

A history is what hosts and guests do with a registry, one call after the other and each with any
handle it likes. As long as handles are numbered on, `Numbered` says what a registry looks like:
the handles given out are all the numbers up to the number of buffers, and a live handle stands
for the place that it was given for. Hence no handle is given out twice, a call through one handle
leaves the buffers of all others alone, and the counters add up: `handles_never_reused`.
-/

namespace GuestHost

namespace Exchange

namespace Registry

/-! ## Calls -/

/-- A call of a registry. Whoever has got hold of the place of a buffer may use the buffer on,
whether its handle is live or not. -/
inductive Operation : Type 1 where
  | create
  | register (buffer : Buffer)
  | get (handle : Nat)
  | use {α : Type} (handle : Nat) (operation : Buffer → Except Error α × Buffer)
  | useAt {α : Type} (place : Place) (operation : Buffer → Except Error α × Buffer)
  | release (handle : Nat)

/-- What a call answers. -/
inductive Answer where
  | handle (handle : Nat)
  | found (place : Option Place)
  | used (outcome : Except Error Unit)
  | released (wasLive : Bool)

namespace Operation

/-- A call carried out. -/
def run : Operation → Registry → Answer × Registry
  | create, r => (.handle r.nextHandle, r.register (.memory (.ofContent [])))
  | register buffer, r => (.handle r.nextHandle, r.register buffer)
  | get handle, r => (.found (r.place? handle), r)
  | use handle operation, r =>
    (.used ((r.use handle operation).1.map fun _ => ()), (r.use handle operation).2)
  | useAt place operation, r =>
    (.used ((r.useAt place operation).1.map fun _ => ()), (r.useAt place operation).2)
  | release handle, r => (.released (r.isLive handle), r.release handle)

/-- Whether a call registers a buffer. -/
def registers : Operation → Bool
  | create => true
  | register _ => true
  | _ => false

/-- A call goes through a handle: the one that it is given, or the one that it returns. -/
def Through (r : Registry) (handle : Nat) : Operation → Prop
  | create => handle = r.nextHandle
  | register _ => handle = r.nextHandle
  | get given => handle = given
  | use given _ => handle = given
  | useAt place _ => r.place? handle = some place
  | release given => handle = given

end Operation

/-- The registry after a history. -/
def after (calls : List Operation) : Registry :=
  calls.foldl (fun r call => (call.run r).2) .empty

/-- The calls of a history with their answers, the first call being made on a registry. -/
def transcript : Registry → List Operation → List (Operation × Answer)
  | _, [] => []
  | r, call :: rest => (call, (call.run r).1) :: transcript (call.run r).2 rest

/-- The handles that were returned, in order. -/
def returned (t : List (Operation × Answer)) : List Nat :=
  t.filterMap fun
    | (_, .handle handle) => some handle
    | _ => none

/-- The handles that were released: the releases answered by true, in order. -/
def freed (t : List (Operation × Answer)) : List Nat :=
  t.filterMap fun
    | (.release handle, .released true) => some handle
    | _ => none

/-- A handle was returned and has not been released since. -/
def Held (t : List (Operation × Answer)) (handle : Nat) : Prop :=
  ∃ before call since, t = before ++ (call, .handle handle) :: since ∧ handle ∉ freed since

variable {r : Registry} {calls : List Operation} {call : Operation} {handle : Nat}
  {t : List (Operation × Answer)} {e : Operation × Answer}

theorem after_snoc : after (calls ++ [call]) = (call.run (after calls)).2 := by
  simp [after]

theorem transcript_append (r : Registry) (calls rest : List Operation) :
    transcript r (calls ++ rest) = transcript r calls ++
      transcript (calls.foldl (fun r call => (call.run r).2) r) rest := by
  induction calls generalizing r with
  | nil => rfl
  | cons call calls ih =>
    rw [List.cons_append, transcript, transcript, ih, List.foldl_cons, List.cons_append]

theorem transcript_snoc :
    transcript .empty (calls ++ [call]) =
      transcript .empty calls ++ [(call, (call.run (after calls)).1)] :=
  transcript_append _ _ _

theorem held_snoc :
    Held (t ++ [e]) handle ↔ e.2 = .handle handle ∨ Held t handle ∧ handle ∉ freed [e] := by
  constructor
  · rintro ⟨before, call, since, h, kept⟩
    -- the handle was returned by the last call exactly if nothing comes after it
    rcases List.eq_nil_or_concat' since with rfl | ⟨since, last, rfl⟩
    · obtain ⟨-, last⟩ := List.append_inj' h rfl
      cases last
      exact .inl rfl
    · rw [← List.cons_append, ← List.append_assoc] at h
      obtain ⟨rfl, last⟩ := List.append_inj' h rfl
      cases last
      rw [freed, List.filterMap_append, List.mem_append, not_or] at kept
      exact .inr ⟨⟨before, call, since, rfl, kept.1⟩, kept.2⟩
  · rintro (last | ⟨⟨before, call, since, rfl, kept⟩, now⟩)
    · obtain ⟨call, answer⟩ := e
      cases last
      exact ⟨t, call, [], rfl, by simp [freed]⟩
    · refine ⟨before, call, since ++ [e], by simp, ?_⟩
      rw [freed, List.filterMap_append, List.mem_append, not_or]
      exact ⟨kept, now⟩

/-! ## Registries whose handles are numbered on -/

/-- What a registry looks like while its handles are numbered on. -/
structure Numbered (r : Registry) : Prop where
  next_eq : r.next = r.buffers.size + 1
  place_spec : ∀ handle place : Nat, r.place? handle = some place →
    handle = place + 1 ∧ place < r.buffers.size
  created_eq : r.created = r.buffers.size
  balance : r.released + r.handles.size = r.created

theorem numbered_empty : empty.Numbered := by
  refine ⟨rfl, fun handle place h => ?_, rfl, rfl⟩
  simp [place?, empty, Table.find?, Table.empty] at h

namespace Numbered

/-- No handle that is given out later is live. -/
theorem place?_eq_none (hr : r.Numbered) (h : r.buffers.size < handle) :
    r.place? handle = none := by
  cases found : r.place? handle with
  | none => rfl
  | some place =>
    have := hr.place_spec handle place found
    omega

/-- **Handles are given out in order.** -/
theorem nextHandle_eq (hr : r.Numbered) : r.nextHandle = r.buffers.size + 1 := by
  have free : r.handles.contains (r.buffers.size + 1) = false := by
    have := hr.place?_eq_none (Nat.lt_succ_self r.buffers.size)
    simp only [place?] at this
    simp [Table.contains, this]
  rw [nextHandle, firstFree, hr.next_eq, if_pos (by simp [free])]

theorem register (hr : r.Numbered) (room : r.buffers.size + 1 < maxWord) (buffer : Buffer) :
    (r.register buffer).Numbered := by
  have handle := hr.nextHandle_eq
  have fresh := hr.place?_eq_none (Nat.lt_succ_self r.buffers.size)
  simp only [place?] at fresh
  refine ⟨?_, fun other place h => ?_, ?_, ?_⟩
  · simp only [Registry.register, handle, following, if_pos room, Array.size_push]
  · simp only [Registry.register, place?, handle, Table.find?_insert, Array.size_push] at h ⊢
    split at h
    · obtain rfl := Option.some.inj h
      omega
    · have := hr.place_spec other place h
      omega
  · simp only [Registry.register, hr.created_eq, Array.size_push]
  · have := hr.balance
    simp only [Registry.register, handle, Table.size_insert fresh]
    omega

theorem put (hr : r.Numbered) (place : Place) (buffer : Buffer) :
    (r.put place buffer).Numbered := by
  have size : (r.put place buffer).buffers.size = r.buffers.size := Array.size_modify
  refine ⟨?_, fun handle other h => ?_, ?_, hr.balance⟩
  · rw [size]
    exact hr.next_eq
  · rw [size]
    exact hr.place_spec handle other h
  · rw [size]
    exact hr.created_eq

theorem useAt {α : Type} (hr : r.Numbered) (place : Place)
    (operation : Buffer → Except Error α × Buffer) : (r.useAt place operation).2.Numbered := by
  unfold Registry.useAt
  split
  · exact hr.put _ _
  · exact hr

theorem use {α : Type} (hr : r.Numbered) (handle : Nat)
    (operation : Buffer → Except Error α × Buffer) : (r.use handle operation).2.Numbered := by
  unfold Registry.use
  split
  · exact hr.useAt _ _
  · exact hr

theorem release (hr : r.Numbered) (handle : Nat) : (r.release handle).Numbered := by
  unfold Registry.release
  split
  · rename_i place found
    refine ⟨hr.next_eq, fun other place h => ?_, hr.created_eq, ?_⟩
    · simp only [place?, Table.find?_erase] at h
      split at h
      · cases h
      · exact hr.place_spec other place h
    · have erased := Table.size_erase found
      have := hr.balance
      dsimp only
      omega
  · exact hr

/-- **A call keeps handles numbered on** as long as there are words for them. -/
theorem run (hr : r.Numbered) (call : Operation)
    (room : call.registers = true → r.buffers.size + 1 < maxWord) :
    (call.run r).2.Numbered := by
  cases call with
  | create => exact hr.register (room rfl) _
  | register buffer => exact hr.register (room rfl) buffer
  | get handle => exact hr
  | use handle operation => exact hr.use handle operation
  | useAt place operation => exact hr.useAt place operation
  | release handle => exact hr.release handle

end Numbered

/-! ## What a call does to other handles -/

theorem place?_useAt {α : Type} (r : Registry) (place : Place)
    (operation : Buffer → Except Error α × Buffer) (handle : Nat) :
    (r.useAt place operation).2.place? handle = r.place? handle := by
  unfold useAt
  split <;> rfl

theorem place?_use {α : Type} (r : Registry) (given : Nat)
    (operation : Buffer → Except Error α × Buffer) (handle : Nat) :
    (r.use given operation).2.place? handle = r.place? handle := by
  unfold use
  split
  · exact place?_useAt _ _ _ _
  · rfl

theorem place?_register (r : Registry) (buffer : Buffer) (handle : Nat) :
    (r.register buffer).place? handle =
      if handle = r.nextHandle then some r.buffers.size else r.place? handle :=
  Table.find?_insert _ _ _ _

theorem place?_release (r : Registry) (given handle : Nat) :
    (r.release given).place? handle = if handle = given then none else r.place? handle := by
  unfold release
  split
  · exact Table.find?_erase _ _ _
  · rename_i missing
    split
    · rename_i same
      exact same ▸ missing
    · rfl

theorem isLive_register (buffer : Buffer) :
    (r.register buffer).isLive handle = true ↔
      r.nextHandle = handle ∨ r.isLive handle = true := by
  simp only [isLive, place?_register, @eq_comm _ r.nextHandle]
  split <;> simp [*]

theorem isLive_release (given : Nat) :
    (r.release given).isLive handle = true ↔ handle ≠ given ∧ r.isLive handle = true := by
  simp only [isLive, place?_release]
  split <;> simp [*]

@[simp] theorem freed_release (given : Nat) (wasLive : Bool) :
    freed [(.release given, .released wasLive)] = if wasLive then [given] else [] := by
  cases wasLive <;> rfl

/-- **A handle is live after a call** if the call returned it, or it was live and the call has not
released it. -/
theorem isLive_run :
    (call.run r).2.isLive handle = true ↔
      (call.run r).1 = .handle handle ∨
        r.isLive handle = true ∧ handle ∉ freed [(call, (call.run r).1)] := by
  cases call with
  | create => simp [Operation.run, isLive_register, freed]
  | register buffer => simp [Operation.run, isLive_register, freed]
  | get given => simp [Operation.run, freed]
  | use given operation => simp [Operation.run, isLive, place?_use, freed]
  | useAt place operation => simp [Operation.run, isLive, place?_useAt, freed]
  | release given =>
    simp only [Operation.run, isLive_release, freed_release, reduceCtorEq, false_or]
    by_cases h : handle = given
    · subst h
      cases r.isLive handle <;> simp
    · cases r.isLive given <;> simp [h]

/-- A call through another handle leaves a handle live or not. -/
theorem isLive_run_of_not_through (h : ¬ call.Through r handle) :
    (call.run r).2.isLive handle = r.isLive handle := by
  rw [Bool.eq_iff_iff, isLive_run]
  cases call with
  | create =>
    have h : handle ≠ r.nextHandle := h
    simp [Operation.run, freed, h.symm]
  | register buffer =>
    have h : handle ≠ r.nextHandle := h
    simp [Operation.run, freed, h.symm]
  | get given => simp [Operation.run, freed]
  | use given operation => simp [Operation.run, freed]
  | useAt place operation => simp [Operation.run, freed]
  | release given =>
    have h : handle ≠ given := h
    cases live : r.isLive given <;> simp [Operation.run, live, h]

theorem at?_put_of_ne {place other : Place} (h : other ≠ place) (buffer : Buffer) :
    (r.put place buffer).at? other = r.at? other := by
  simp [at?, put, change, Array.getElem?_modify, Ne.symm h]

theorem at?_useAt_of_ne {α : Type} {place other : Place} (h : other ≠ place)
    (operation : Buffer → Except Error α × Buffer) :
    (r.useAt place operation).2.at? other = r.at? other := by
  unfold useAt
  split
  · exact at?_put_of_ne h _
  · rfl

namespace Numbered

theorem find?_register (hr : r.Numbered) (buffer : Buffer) (h : handle ≠ r.nextHandle) :
    (r.register buffer).find? handle = r.find? handle := by
  simp only [find?, place?_register, if_neg h]
  cases found : r.place? handle with
  | none => rfl
  | some place =>
    have := (hr.place_spec handle place found).2
    simp only [Option.bind_some, at?, Registry.register, Array.getElem?_push]
    rw [if_neg (by omega)]

theorem find?_useAt {α : Type} {place : Place} (operation : Buffer → Except Error α × Buffer)
    (h : r.place? handle ≠ some place) :
    (r.useAt place operation).2.find? handle = r.find? handle := by
  simp only [find?, place?_useAt]
  cases found : r.place? handle with
  | none => rfl
  | some other =>
    rw [found] at h
    exact at?_useAt_of_ne (fun same => h (congrArg some same)) operation

/-- **A call through one handle leaves the buffers of all others alone**, since no two handles stand
for one place. -/
theorem find?_run (hr : r.Numbered) (h : ¬ call.Through r handle) :
    (call.run r).2.find? handle = r.find? handle := by
  cases call with
  | create => exact hr.find?_register _ h
  | register buffer => exact hr.find?_register buffer h
  | get given => rfl
  | useAt place operation => exact find?_useAt operation h
  | release given =>
    have h : handle ≠ given := h
    simp only [Operation.run, find?, place?_release, if_neg h]
    cases r.place? handle with
    | none => rfl
    | some place =>
      simp only [Option.bind_some, at?, Registry.release]
      split <;> rfl
  | use given operation =>
    have h : handle ≠ given := h
    simp only [Operation.run, Registry.use]
    split
    · rename_i place found
      refine find?_useAt operation fun same => h ?_
      have left := (hr.place_spec handle place same).1
      have right := (hr.place_spec given place found).1
      omega
    · rfl

end Numbered

/-! ## Histories -/

/-- The number of registrations of a history. -/
def registrations (calls : List Operation) : Nat := calls.countP Operation.registers

theorem registrations_snoc :
    registrations (calls ++ [call]) = registrations calls + if call.registers then 1 else 0 := by
  simp [registrations, List.countP_append, List.countP_singleton]

theorem size_buffers_run (call : Operation) (r : Registry) :
    (call.run r).2.buffers.size = r.buffers.size + if call.registers then 1 else 0 := by
  have useAt {α : Type} (place : Place) (operation : Buffer → Except Error α × Buffer) :
      (r.useAt place operation).2.buffers.size = r.buffers.size := by
    unfold Registry.useAt
    split
    · exact Array.size_modify
    · rfl
  cases call with
  | create => exact Array.size_push _
  | register buffer => exact Array.size_push _
  | get handle => rfl
  | useAt place operation => exact useAt place operation
  | use handle operation =>
    simp only [Operation.run, Registry.use]
    split
    · exact useAt _ _
    · rfl
  | release handle =>
    simp only [Operation.run, Registry.release]
    split <;> rfl

theorem released_run (call : Operation) (r : Registry) :
    (call.run r).2.released = r.released + (freed [(call, (call.run r).1)]).length := by
  have useAt {α : Type} (place : Place) (operation : Buffer → Except Error α × Buffer) :
      (r.useAt place operation).2.released = r.released := by
    unfold Registry.useAt
    split <;> rfl
  cases call with
  | create => rfl
  | register buffer => rfl
  | get handle => rfl
  | useAt place operation => exact useAt place operation
  | use handle operation =>
    simp only [Operation.run, Registry.use]
    split
    · exact useAt _ _
    · rfl
  | release handle =>
    simp only [Operation.run, Registry.release, isLive]
    cases r.place? handle <;> rfl

/-- **Handles are numbered on** in every history that does not run out of words. -/
theorem numbered_after (few : registrations calls < maxWord) :
    (after calls).Numbered ∧ (after calls).buffers.size = registrations calls := by
  induction calls using List.reverseRecOn with
  | nil => exact ⟨numbered_empty, rfl⟩
  | append_singleton calls call ih =>
    rw [registrations_snoc] at few
    obtain ⟨numbered, size⟩ := ih (by omega)
    rw [after_snoc, size_buffers_run, size, registrations_snoc]
    refine ⟨numbered.run call fun registers => ?_, rfl⟩
    rw [registers, if_pos rfl] at few
    omega

/-- **The handles returned are the numbers from one on**, in order. -/
theorem returned_transcript (few : registrations calls < maxWord) :
    returned (transcript .empty calls) = List.range' 1 (registrations calls) := by
  induction calls using List.reverseRecOn with
  | nil => rfl
  | append_singleton calls call ih =>
    have before : registrations calls < maxWord := by
      rw [registrations_snoc] at few
      omega
    obtain ⟨numbered, size⟩ := numbered_after before
    have next := numbered.nextHandle_eq
    rw [size] at next
    rw [transcript_snoc, returned, List.filterMap_append, ← returned, ih before, registrations_snoc]
    have one_more : List.range' 1 (registrations calls + 1) =
        List.range' 1 (registrations calls) ++ [registrations calls + 1] := by
      rw [List.range'_concat, Nat.one_mul, Nat.add_comm 1]
    cases call with
    | create => simp [Operation.run, Operation.registers, next, one_more]
    | register buffer => simp [Operation.run, Operation.registers, next, one_more]
    | _ => simp [Operation.run, Operation.registers]

theorem length_freed : (freed (transcript .empty calls)).length = (after calls).released := by
  induction calls using List.reverseRecOn with
  | nil => rfl
  | append_singleton calls call ih =>
    rw [after_snoc, released_run, transcript_snoc, ← ih, freed, List.filterMap_append,
      List.length_append]
    rfl

/-- **A handle is live exactly if it was returned and has not been released since.** -/
theorem isLive_iff_held :
    (after calls).isLive handle = true ↔ Held (transcript .empty calls) handle := by
  induction calls using List.reverseRecOn with
  | nil =>
    refine iff_of_false (by simp [isLive, place?, after, empty, Table.find?, Table.empty]) ?_
    rintro ⟨before, call, since, h, -⟩
    simp [transcript] at h
  | append_singleton calls call ih => rw [after_snoc, transcript_snoc, isLive_run, held_snoc, ih]

/-- **No handle is given out twice, and the counters add up.** In every history whose registrations
are fewer than the greatest word, whoever makes the calls: the handles returned are different words
and none of them is zero; a handle is live exactly if it was returned and has not been released
since; releasing it is answered by true exactly if it is live and changes nothing otherwise; a call
through one handle leaves all others live or not and their buffers as they were; and the counters
count the registrations, the releases answered by true, and the live handles. -/
theorem handles_never_reused (calls : List Operation) (few : registrations calls < maxWord) :
    let r := after calls
    let t := transcript .empty calls
    ((returned t).Nodup ∧ (returned t).length = registrations calls ∧
      ∀ handle ∈ returned t, 0 < handle ∧ handle ≤ maxWord) ∧
    (∀ handle, r.isLive handle = true ↔ Held t handle) ∧
    (∀ handle, (((Operation.release handle).run r).1 = .released true ↔ r.isLive handle = true) ∧
      (r.isLive handle = false → ((Operation.release handle).run r).2 = r)) ∧
    (∀ (call : Operation) (handle : Nat), ¬ call.Through r handle →
      (call.run r).2.isLive handle = r.isLive handle ∧
        (call.run r).2.find? handle = r.find? handle) ∧
    r.stats = ⟨registrations calls, (freed t).length, registrations calls - (freed t).length⟩ ∧
      r.liveCount = r.stats.live := by
  obtain ⟨numbered, size⟩ := numbered_after few
  refine ⟨?_, fun handle => isLive_iff_held, fun handle => ⟨?_, fun dead => ?_⟩,
    fun call handle through =>
      ⟨isLive_run_of_not_through through, numbered.find?_run through⟩, ?_, rfl⟩
  · rw [returned_transcript few]
    refine ⟨List.nodup_range', List.length_range', fun handle h => ?_⟩
    rw [List.mem_range'_1] at h
    omega
  · simp [Operation.run]
  · have missing : (after calls).place? handle = none := by simpa [isLive] using dead
    simp only [Operation.run, release, missing]
  · have balance := numbered.balance
    have created := numbered.created_eq
    rw [stats, length_freed, created, size]
    rw [created, size] at balance
    congr 1
    omega

/-- A history with a handle released twice, one released that was never given out, and a handle
returned afterwards. -/
def releasedTwice : List Operation :=
  [.create, .create, .release 1, .release 1, .release 7, .register (.memory (.ofContent [0x78]))]

/-- The first handle is not given out again, and only one of the releases counts. -/
theorem handles_never_reused_released_twice :
    registrations releasedTwice < maxWord ∧
      returned (transcript .empty releasedTwice) = [1, 2, 3] ∧
      (after releasedTwice).isLive 1 = false ∧ (after releasedTwice).stats = ⟨3, 1, 2⟩ := by
  have few : registrations releasedTwice < maxWord := by decide
  have counted := (handles_never_reused releasedTwice few).2.2.2.2.1
  exact ⟨few, by rfl, by rfl, counted⟩

end Registry

end Exchange

end GuestHost
