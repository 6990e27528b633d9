import GuestHost.Proofs.Exchange.Handles
import Mathlib.Data.List.Nodup
import Mathlib.Data.List.Perm.Subperm
/-!
# New handles are free

Handles are looked for among the words from the next candidate on, and no word is met twice before
all of them have been met. The next candidate is a word after every history of calls, `ready_after`,
so as long as there are fewer live handles than words, the handle of a new buffer is a word that no
live handle has: `Ready.nextHandle_free`. A buffer that is released again then leaves the live handles
just as they were: `handles_release_register`.
-/

namespace GuestHost

theorem Table.nodup_keys {κ ν : Type} [LT κ] [KeyOrder κ] (t : Table κ ν) : t.keys.Nodup := by
  refine List.Pairwise.map _ (fun {e e'} lt same => ?_) t.sorted
  rw [same] at lt
  exact KeyOrder.irrefl _ lt

/-- **Two tables that find the same are the same.** -/
theorem Table.ext_find? {κ ν : Type} [LT κ] [DecidableEq κ] [KeyOrder κ] {s t : Table κ ν}
    (h : ∀ key, s.find? key = t.find? key) : s = t := by
  have nodup (u : Table κ ν) : u.entries.Nodup := u.nodup_keys.of_map _
  have same : s.entries.Perm t.entries := by
    refine (List.perm_ext_iff_of_nodup (nodup s) (nodup t)).mpr fun e => ?_
    rw [← find?_eq_some_iff, ← find?_eq_some_iff, h]
  refine Table.ext (same.eq_of_pairwise (fun e e' _ _ lt gt => ?_) s.sorted t.sorted)
  exact absurd (KeyOrder.trans lt gt) (KeyOrder.irrefl _)

namespace Exchange

namespace Registry

variable {handles : Table Nat Place} {r : Registry} {candidate handle : Nat}

/-! ## Candidates -/

/-- A word that the handle of a new buffer may be. -/
def Free (handles : Table Nat Place) (candidate : Nat) : Prop :=
  candidate ≠ 0 ∧ handles.contains candidate = false

theorem following_pos (candidate : Nat) : 0 < following candidate := by
  unfold following
  split <;> omega

theorem following_le (candidate : Nat) : following candidate ≤ maxWord := by
  unfold following
  split
  · omega
  · decide

/-- Candidates go up to the greatest word and start again at one. -/
theorem iterate_following (most : candidate ≤ maxWord) {n : Nat} (few : n < maxWord) :
    following^[n] candidate =
      if candidate + n ≤ maxWord then candidate + n else candidate + n - maxWord := by
  induction n with
  | zero => rw [Function.iterate_zero_apply, Nat.add_zero, if_pos most]
  | succ n ih =>
    rw [Function.iterate_succ_apply', ih (by omega), following]
    split <;> split <;> split <;> omega

/-- The search ends at a free candidate if there is one among those that it looks at. -/
theorem firstFree_free {n : Nat} (h : ∃ k < n, Free handles (following^[k] candidate)) :
    Free handles (firstFree handles n candidate) := by
  induction n generalizing candidate with
  | zero =>
    obtain ⟨k, never, -⟩ := h
    exact absurd never (Nat.not_lt_zero k)
  | succ n ih =>
    unfold firstFree
    split
    · rename_i free
      exact ⟨free.1, by simpa using free.2⟩
    · rename_i taken
      -- the free one is among the candidates behind this one
      obtain ⟨k, hk, free⟩ := h
      cases k with
      | zero => exact absurd ⟨free.1, by simpa using free.2⟩ taken
      | succ k => exact ih ⟨k, by omega, free⟩

theorem firstFree_le (most : candidate ≤ maxWord)
    (n : Nat) : firstFree handles n candidate ≤ maxWord := by
  induction n generalizing candidate with
  | zero => exact most
  | succ n ih =>
    unfold firstFree
    split
    · exact most
    · exact ih (following_le candidate)

/-! ## Registries that are ready for new buffers -/

/-- The search for a new handle starts at a word. -/
structure Ready (r : Registry) : Prop where
  pos : 0 < r.next
  le : r.next ≤ maxWord

theorem ready_register (r : Registry) (buffer : Buffer) : (r.register buffer).Ready :=
  ⟨following_pos _, following_le _⟩

theorem Ready.release (ready : r.Ready) (handle : Nat) : (r.release handle).Ready := by
  unfold Registry.release
  split <;> exact ⟨ready.pos, ready.le⟩

theorem Ready.useAt {α : Type} (ready : r.Ready) (place : Place)
    (operation : Buffer → Except Error α × Buffer) : (r.useAt place operation).2.Ready := by
  unfold Registry.useAt
  split <;> exact ⟨ready.pos, ready.le⟩

theorem Ready.run (ready : r.Ready) (call : Operation) : (call.run r).2.Ready := by
  cases call with
  | create => exact ready_register r _
  | register buffer => exact ready_register r buffer
  | get handle => exact ready
  | use handle operation =>
    show (r.use handle operation).2.Ready
    unfold use
    split
    · exact ready.useAt _ operation
    · exact ready
  | useAt place operation => exact ready.useAt place operation
  | release handle => exact ready.release handle

/-- **A registry is ready after every history of calls.** -/
theorem ready_after (calls : List Operation) : (after calls).Ready := by
  induction calls using List.reverseRecOn with
  | nil => exact ⟨by decide, by decide⟩
  | append_singleton calls call ih =>
    rw [after_snoc]
    exact ih.run call

/-- The handle of a new buffer is a word. -/
theorem Ready.nextHandle_le (ready : r.Ready) : r.nextHandle ≤ maxWord :=
  firstFree_le ready.le _

/-- **The handle of a new buffer is free**, unless there are as many live handles as words. -/
theorem Ready.nextHandle_free (ready : r.Ready) (room : r.liveCount < maxWord) :
    Free r.handles r.nextHandle := by
  refine firstFree_free ?_
  by_contra! taken
  -- all the candidates are live then, and they are more than there are live handles
  have words : ∀ k < r.liveCount + 1, following^[k] r.next =
      if r.next + k ≤ maxWord then r.next + k else r.next + k - maxWord :=
    fun k hk => iterate_following ready.le (by omega)
  have live : (List.range (r.liveCount + 1)).map (following^[·] r.next) ⊆ r.handles.keys := by
    intro word hword
    obtain ⟨k, hk, rfl⟩ := List.mem_map.mp hword
    have found := taken k (List.mem_range.mp hk)
    rw [Table.mem_keys_iff]
    by_contra missing
    refine found ⟨?_, by simpa [Table.contains] using missing⟩
    have := ready.pos
    rw [words k (List.mem_range.mp hk)]
    split <;> omega
  -- none is met twice, since there are fewer of them than words
  have distinct : ((List.range (r.liveCount + 1)).map (following^[·] r.next)).Nodup := by
    refine List.Nodup.map_on (fun k hk l hl same => ?_) List.nodup_range
    rw [List.mem_range] at hk hl
    rw [words k hk, words l hl] at same
    split at same <;> split at same <;> omega
  have more := (distinct.subperm live).length_le
  rw [List.length_map, List.length_range, Table.keys, List.length_map] at more
  exact absurd more (Nat.not_succ_le_self _)

theorem Ready.isLive_nextHandle (ready : r.Ready) (room : r.liveCount < maxWord) :
    r.isLive r.nextHandle = false := (ready.nextHandle_free room).2

theorem liveCount_register (free : r.isLive r.nextHandle = false) (buffer : Buffer) :
    (r.register buffer).liveCount = r.liveCount + 1 :=
  Table.size_insert (by simpa [isLive, place?] using free) _

/-- Two new buffers get two handles that are not live, which differ. -/
theorem Ready.free_twice (ready : r.Ready) (room : r.liveCount + 2 ≤ maxWord) (buffer : Buffer) :
    r.isLive r.nextHandle = false ∧
      (r.register buffer).isLive (r.register buffer).nextHandle = false ∧
      (r.register buffer).nextHandle ≠ r.nextHandle := by
  have free := ready.isLive_nextHandle (by omega)
  have count := liveCount_register free buffer
  have free' := (ready_register r buffer).isLive_nextHandle (by omega)
  refine ⟨free, free', fun same => ?_⟩
  have live : (r.register buffer).isLive r.nextHandle = true :=
    (isLive_register buffer).mpr (.inl rfl)
  rw [same, live] at free'
  cases free'

/-- **Two buffers that are registered and released leave the live handles as they were**, whatever
has become of them in between, if no other handle has come or gone. -/
theorem handles_release_register {first second : Buffer} {ended : Registry}
    (free : r.isLive r.nextHandle = false)
    (free' : (r.register first).isLive (r.register first).nextHandle = false)
    (kept : ended.handles = ((r.register first).register second).handles) :
    ((ended.release r.nextHandle).release (r.register first).nextHandle).handles = r.handles := by
  have input : r.place? r.nextHandle = none := by simpa [isLive] using free
  have output : (r.register first).place? (r.register first).nextHandle = none := by
    simpa [isLive] using free'
  have ended_place? (handle : Nat) :
      ended.place? handle = ((r.register first).register second).place? handle :=
    congrArg (Table.find? · handle) kept
  -- the two handles are not live on either side, and all others stand for what they stood for
  refine Table.ext_find? fun handle => ?_
  show ((ended.release r.nextHandle).release (r.register first).nextHandle).place? handle =
    r.place? handle
  rw [place?_release, place?_release, ended_place?, place?_register, place?_register]
  split
  · rename_i same
    rw [← same, place?_register] at output
    split at output
    · cases output
    · exact output.symm
  · split
    · rename_i same
      rw [same, input]
    · rfl

end Registry

end Exchange

end GuestHost
