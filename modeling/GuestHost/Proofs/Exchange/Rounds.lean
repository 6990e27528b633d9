import GuestHost.Proofs.Exchange.Fresh
/-!
# Handles that come round

Behind the greatest word handles start again, and one that has been released is given out anew in
the end. But its turn comes only when the candidates have gone all the way round, and every new
handle takes a free candidate off the `Way`: `Awaits.register`. So a handle stands for the buffer
that it was given for or for none, whatever calls are made, as long as all that was live and all
that is registered are together no more than there are words, `place_eq_of_follows`. A registry
`Follows` another if calls lead from one to the other, whoever makes them. With one buffer more a
handle may stand for another buffer: `Churned.comes_round`.
-/

namespace GuestHost

namespace Exchange

namespace Registry

variable {own candidate : Nat} {words : List Nat} {r r' : Registry} {call : Operation}

/-! ## The way round -/

/-- The candidates from one on up to a word, without the word. -/
inductive Way (own : Nat) : Nat → List Nat → Prop where
  | done : Way own own []
  | on {candidate : Nat} {words : List Nat} : candidate ≠ own →
      Way own (following candidate) words → Way own candidate (candidate :: words)

namespace Way

/-- There is only one way. -/
theorem eq {words' : List Nat} (way : Way own candidate words) (way' : Way own candidate words') :
    words = words' := by
  induction way generalizing words' with
  | done =>
    cases way' with
    | done => rfl
    | on other => exact absurd rfl other
  | on other rest ih =>
    cases way' with
    | done => exact absurd rfl other
    | on _ rest' => rw [ih rest']

theorem own_not_mem (way : Way own candidate words) : own ∉ words := by
  induction way with
  | done => exact List.not_mem_nil
  | on other _ ih => exact List.not_mem_cons_of_ne_of_not_mem other.symm ih

theorem pos (way : Way own candidate words) (first : 0 < candidate) :
    ∀ word ∈ words, 0 < word := by
  induction way with
  | done => exact fun _ never => nomatch never
  | on _ _ ih => exact List.forall_mem_cons.mpr ⟨first, ih (following_pos _)⟩

/-- From a word on the way goes on to the end. -/
theorem from_mem {word : Nat} (way : Way own candidate words) (met : word ∈ words) :
    ∃ rest, Way own word rest ∧ rest.length ≤ words.length := by
  induction way with
  | done => cases met
  | @on candidate words other onward ih =>
    rcases List.mem_cons.mp met with rfl | later
    · exact ⟨_, .on other onward, Nat.le_refl _⟩
    · obtain ⟨rest, way, shorter⟩ := ih later
      exact ⟨rest, way, Nat.le_succ_of_le shorter⟩

/-- **No word is met twice on the way**: from there on it would go round for ever. -/
theorem nodup (way : Way own candidate words) : words.Nodup := by
  induction way with
  | done => exact List.nodup_nil
  | on other onward ih =>
    refine List.nodup_cons.mpr ⟨fun again => ?_, ih⟩
    obtain ⟨rest, way, shorter⟩ := onward.from_mem again
    rw [way.eq (.on other onward)] at shorter
    exact absurd shorter (Nat.not_succ_le_self _)

/-- The way up to a greater word. -/
theorem up (candidate n : Nat) (most : candidate + n ≤ maxWord) :
    Way (candidate + n) candidate (List.range' candidate n) := by
  induction n generalizing candidate with
  | zero => exact .done
  | succ n ih =>
    have next : following candidate = candidate + 1 := if_pos (by omega)
    have rest := ih (candidate + 1) (by omega)
    rw [Nat.add_right_comm, ← next] at rest
    rw [List.range'_succ, ← next]
    exact .on (by omega) rest

/-- The way over the greatest word to a smaller one. -/
theorem past_greatest (n : Nat) (least : 0 < own) (less : own < candidate)
    (most : candidate + n = maxWord) :
    Way own candidate (List.range' candidate (n + 1) ++ List.range' 1 (own - 1)) := by
  induction n generalizing candidate with
  | zero =>
    have next : following candidate = 1 := if_neg (by omega)
    have rest := up 1 (own - 1) (by omega)
    rw [Nat.add_sub_cancel' least, ← next] at rest
    exact .on (by omega) (next ▸ rest)
  | succ n ih =>
    have next : following candidate = candidate + 1 := if_pos (by omega)
    have rest := @ih (candidate + 1) (by omega) (by omega)
    rw [List.range'_succ, List.cons_append]
    exact .on (by omega) (next ▸ rest)

/-- **All the way round a word there are all the other words.** -/
theorem round (least : 0 < own) (most : own ≤ maxWord) :
    ∃ words, Way own (following own) words ∧ words.length + 1 = maxWord := by
  unfold following
  split
  · refine ⟨_, past_greatest (maxWord - (own + 1)) least (Nat.lt_succ_self own) (by omega), ?_⟩
    rw [List.length_append, List.length_range', List.length_range']
    omega
  · obtain rfl : own = maxWord := by omega
    have way := up 1 (maxWord - 1) (Nat.le_refl _)
    exact ⟨_, way, by rw [List.length_range']; rfl⟩

end Way

/-! ## How long a handle is away -/

/-- At least so many handles are given out before a word has its turn. -/
def Awaits (r : Registry) (own turns : Nat) : Prop :=
  ∃ words, Way own r.next words ∧ turns ≤ words.countP fun word => !r.isLive word

/-- A search on the way ends at its first free word, if one is among the candidates looked at. -/
theorem Way.firstFree {handles : Table Nat Place} (way : Way own candidate words)
    (first : 0 < candidate) (free : 0 < words.countP fun word => !handles.contains word) {n : Nat}
    (few : words.countP handles.contains < n) :
    ∃ rest, Way own (following (firstFree handles n candidate)) rest ∧
      firstFree handles n candidate ∉ rest ∧ firstFree handles n candidate ≠ own ∧
      words.countP (fun word => !handles.contains word) =
        rest.countP (fun word => !handles.contains word) + 1 := by
  induction way generalizing n with
  | done => cases free
  | @on candidate words other onward ih =>
    cases n with
    | zero => exact absurd few (Nat.not_lt_zero _)
    | succ n =>
      unfold Registry.firstFree
      cases taken : handles.contains candidate with
      | false =>
        rw [if_pos ⟨Nat.ne_of_gt first, by simp⟩]
        refine ⟨words, onward, (List.nodup_cons.mp (Way.on other onward).nodup).1, other, ?_⟩
        exact List.countP_cons_of_pos (by simp [taken])
      | true =>
        rw [if_neg (by simp)]
        rw [List.countP_cons_of_neg (by simp [taken])] at free ⊢
        rw [List.countP_cons_of_pos taken] at few
        exact ih (following_pos _) free (by omega)

namespace Awaits

variable {turns : Nat}

/-- **A new handle is another, and takes one turn.** -/
theorem register (awaits : r.Awaits own (turns + 1)) (ready : r.Ready) (buffer : Buffer) :
    r.nextHandle ≠ own ∧ (r.register buffer).Awaits own turns := by
  obtain ⟨words, way, free⟩ := awaits
  -- the candidates that are passed over are live, and none is met twice
  have few : words.countP r.handles.contains < r.handles.size + 1 := by
    refine Nat.lt_succ_of_le ?_
    have live : words.filter r.handles.contains ⊆ r.handles.keys := fun word met =>
      Table.mem_keys_iff.mpr (List.mem_filter.mp met).2
    have least := ((way.nodup.filter _).subperm live).length_le
    rwa [← List.countP_eq_length_filter, Table.keys, List.length_map] at least
  obtain ⟨rest, onward, fresh, other, count⟩ :=
    way.firstFree ready.pos (Nat.lt_of_lt_of_le (Nat.succ_pos turns) free) few
  refine ⟨other, rest, onward, ?_⟩
  have same : rest.countP (fun word => !(r.register buffer).isLive word) =
      rest.countP fun word => !r.isLive word := by
    refine List.countP_congr fun word met => ?_
    have differs : r.nextHandle ≠ word := by
      rintro rfl
      exact fresh met
    have live : (r.register buffer).isLive word = r.isLive word :=
      Bool.eq_iff_iff.mpr ((isLive_register buffer).trans (or_iff_right differs))
    rw [live]
  rw [same]
  exact Nat.le_of_succ_le_succ (Nat.le_trans free (Nat.le_of_eq count))

theorem release (awaits : r.Awaits own turns) (handle : Nat) :
    (r.release handle).Awaits own turns := by
  obtain ⟨words, way, free⟩ := awaits
  have next : (r.release handle).next = r.next := by
    unfold Registry.release
    split <;> rfl
  refine ⟨words, next ▸ way, Nat.le_trans free (List.countP_mono_left fun word _ dead => ?_)⟩
  rw [Bool.not_eq_true', Bool.eq_false_iff] at dead ⊢
  exact fun live => dead ((isLive_release handle).mp live).2

theorem useAt {α : Type} (awaits : r.Awaits own turns) (place : Place)
    (operation : Buffer → Except Error α × Buffer) :
    (r.useAt place operation).2.Awaits own turns := by
  unfold Registry.useAt
  split <;> exact awaits

theorem use {α : Type} (awaits : r.Awaits own turns) (handle : Nat)
    (operation : Buffer → Except Error α × Buffer) :
    (r.use handle operation).2.Awaits own turns := by
  unfold Registry.use
  split
  · exact awaits.useAt _ operation
  · exact awaits

/-- **A call takes a turn if it registers**, and does not make the word stand for anything. -/
theorem run (awaits : r.Awaits own (turns + if call.registers then 1 else 0)) (ready : r.Ready) :
    (call.run r).2.Awaits own turns ∧
      ∀ place, (call.run r).2.place? own = some place → r.place? own = some place := by
  have registered (awaits : r.Awaits own (turns + 1)) (buffer : Buffer) :
      (r.register buffer).Awaits own turns ∧
        ∀ place, (r.register buffer).place? own = some place → r.place? own = some place := by
    obtain ⟨other, awaits⟩ := awaits.register ready buffer
    refine ⟨awaits, fun place found => ?_⟩
    rwa [place?_register, if_neg other.symm] at found
  cases call with
  | create => exact registered awaits _
  | register buffer => exact registered awaits buffer
  | get handle => exact ⟨awaits, fun _ found => found⟩
  | use handle operation =>
    exact ⟨awaits.use handle operation, fun _ found => (place?_use _ _ _ _).symm.trans found⟩
  | useAt place operation =>
    exact ⟨awaits.useAt place operation, fun _ found => (place?_useAt _ _ _ _).symm.trans found⟩
  | release handle =>
    refine ⟨awaits.release handle, fun place found => ?_⟩
    have found : (r.release handle).place? own = some place := found
    rw [place?_release] at found
    split at found
    · cases found
    · exact found

/-- A new handle has its turn again when all words have had theirs that are not live. -/
theorem of_register (ready : r.Ready) (room : r.liveCount < maxWord) (buffer : Buffer) :
    (r.register buffer).Awaits r.nextHandle (maxWord - (r.liveCount + 1)) := by
  obtain ⟨least, -⟩ := ready.nextHandle_free room
  obtain ⟨words, way, all⟩ := Way.round (Nat.pos_of_ne_zero least) ready.nextHandle_le
  refine ⟨words, way, ?_⟩
  -- the live ones on the way were live before
  have live : words.filter (r.register buffer).isLive ⊆ r.handles.keys := by
    intro word met
    obtain ⟨met, live⟩ := List.mem_filter.mp met
    rcases (isLive_register buffer).mp live with rfl | before
    · exact absurd met way.own_not_mem
    · exact Table.mem_keys_iff.mpr before
  have least := ((way.nodup.filter _).subperm live).length_le
  rw [← List.countP_eq_length_filter, Table.keys, List.length_map] at least
  have split := List.length_eq_countP_add_countP (l := words) (r.register buffer).isLive
  have size : r.liveCount = r.handles.entries.length := rfl
  simp only [Bool.not_eq_true, Bool.decide_eq_false] at split
  omega

end Awaits

/-! ## What comes of a registry -/

/-- A registry comes of another by a history of calls. -/
def Follows (r' r : Registry) : Prop :=
  ∃ calls : List Operation, r' = calls.foldl (fun r call => (call.run r).2) r

namespace Follows

theorem refl (r : Registry) : r.Follows r := ⟨[], rfl⟩

theorem snoc (follows : r'.Follows r) (call : Operation) : (call.run r').2.Follows r := by
  obtain ⟨calls, rfl⟩ := follows
  exact ⟨calls ++ [call], by rw [List.foldl_append]; rfl⟩

theorem trans {r'' : Registry} (follows' : r''.Follows r') (follows : r'.Follows r) :
    r''.Follows r := by
  obtain ⟨calls, rfl⟩ := follows
  obtain ⟨calls', rfl⟩ := follows'
  exact ⟨calls ++ calls', by rw [List.foldl_append]⟩

end Follows

/-- What has been registered is counted. -/
theorem created_run (call : Operation) (r : Registry) :
    (call.run r).2.created = r.created + if call.registers then 1 else 0 := by
  cases call with
  | create => rfl
  | register buffer => rfl
  | get handle => rfl
  | use handle operation =>
    show (r.use handle operation).2.created = r.created
    unfold Registry.use Registry.useAt
    split
    · split <;> rfl
    · rfl
  | useAt place operation =>
    show (r.useAt place operation).2.created = r.created
    unfold Registry.useAt
    split <;> rfl
  | release handle =>
    show (r.release handle).created = r.created
    unfold Registry.release
    split <;> rfl

theorem created_foldl (calls : List Operation) (r : Registry) :
    (calls.foldl (fun r call => (call.run r).2) r).created = r.created + registrations calls := by
  induction calls generalizing r with
  | nil => rfl
  | cons call rest ih =>
    have count : registrations (call :: rest) =
        registrations rest + if call.registers then 1 else 0 := List.countP_cons
    rw [List.foldl_cons, ih, created_run, count, Nat.add_right_comm, Nat.add_assoc]

/-- Calls that register no more than there are turns do not make the word stand for anything. -/
theorem Awaits.run_all {calls : List Operation} (awaits : r.Awaits own (registrations calls))
    (ready : r.Ready) {place : Place}
    (found : (calls.foldl (fun r call => (call.run r).2) r).place? own = some place) :
    r.place? own = some place := by
  induction calls generalizing r with
  | nil => exact found
  | cons call rest ih =>
    have count : registrations (call :: rest) =
        registrations rest + if call.registers then 1 else 0 := List.countP_cons
    rw [count] at awaits
    obtain ⟨awaits, kept⟩ := awaits.run ready
    exact kept place (ih awaits (ready.run call) found)

/-- **A handle stands for the buffer that it was given for, or for none**, whatever comes of the
registry, as long as what was live and what has been registered since are no more than there are
words. -/
theorem place_eq_of_follows (ready : r.Ready) (buffer : Buffer)
    (follows : r'.Follows (r.register buffer))
    (few : r.liveCount + r'.created ≤ r.created + maxWord)
    {place : Place} (found : r'.place? r.nextHandle = some place) : place = r.buffers.size := by
  obtain ⟨calls, rfl⟩ := follows
  have created : (r.register buffer).created = r.created + 1 := rfl
  rw [created_foldl, created] at few
  obtain ⟨words, way, free⟩ := Awaits.of_register ready (by omega) buffer
  have awaits : (r.register buffer).Awaits r.nextHandle (registrations calls) :=
    ⟨words, way, Nat.le_trans (by omega) free⟩
  have stands := awaits.run_all (ready_register r buffer) found
  rw [place?_register, if_pos rfl] at stands
  exact (Option.some.inj stands).symm

/-! ## A handle that comes round -/

/-- The next candidate is the handle of the next buffer, if it is free. -/
theorem nextHandle_of_free (free : Free r.handles r.next) : r.nextHandle = r.next :=
  if_pos ⟨free.1, by rw [free.2]; rfl⟩

/-- A buffer that is made and released again leaves the live handles as they were. -/
theorem place?_release_create {handle : Nat} (free : r.isLive handle = false)
    (given : r.nextHandle = handle) (buffer : Buffer) (other : Nat) :
    ((r.register buffer).release handle).place? other = r.place? other := by
  rw [place?_release, place?_register, given]
  split
  · rename_i same
    rw [same]
    exact (Option.isNone_iff_eq_none.mp (by rwa [isLive, Option.isSome_eq_false_iff] at free)).symm
  · rfl

/-- What a registry is like after two buffers have been made, of which the first has been released,
and a number of others have been made and released one after the other. -/
structure Churned (r : Registry) (n : Nat) : Prop where
  next_eq : r.next = following (n + 2)
  place_eq : ∀ handle, r.place? handle = if handle = 2 then some 1 else none
  size_eq : r.buffers.size = n + 2

theorem churned_release (first second : Buffer) :
    (((empty.register first).register second).release 1).Churned 0 where
  next_eq := rfl
  place_eq handle := by
    rw [place?_release, place?_register, place?_register]
    show (if handle = 1 then none else if handle = 2 then some 1 else if handle = 1 then some 0
      else none) = _
    split
    · rw [if_neg (by omega)]
    · rfl
  size_eq := rfl

namespace Churned

variable {n : Nat}

/-- The next buffer gets the handle that is next, which is not the one of the second buffer. -/
theorem nextHandle_eq (h : r.Churned n) : r.nextHandle = following (n + 2) := by
  refine (nextHandle_of_free ?_).trans h.next_eq
  rw [h.next_eq]
  have other : following (n + 2) ≠ 2 := by
    unfold following
    split <;> omega
  exact ⟨Nat.ne_of_gt (following_pos _),
    congrArg Option.isSome ((h.place_eq _).trans (if_neg other))⟩

/-- **One more buffer is made and released.** -/
theorem turn (h : r.Churned n) (few : n + 2 < maxWord) (buffer : Buffer) :
    ((r.register buffer).release r.nextHandle).Churned (n + 1) := by
  have given : r.nextHandle = n + 3 := h.nextHandle_eq.trans (if_pos few)
  have dead : r.isLive r.nextHandle = false := by
    rw [given]
    exact congrArg Option.isSome ((h.place_eq _).trans (if_neg (by omega)))
  have found : (r.register buffer).place? r.nextHandle = some r.buffers.size := by
    rw [place?_register, if_pos rfl]
  refine ⟨?_, fun handle => ?_, ?_⟩
  · rw [Registry.release, found]
    show following r.nextHandle = _
    rw [given]
  · exact (place?_release_create dead rfl buffer handle).trans (h.place_eq handle)
  · rw [Registry.release, found]
    show (r.buffers.push buffer).size = _
    rw [Array.size_push, h.size_eq]

/-- **A handle comes round** when all other words have been given out: that of the first buffer is
given again, and stands for the last of very many. -/
theorem comes_round (h : r.Churned (maxWord - 2)) (buffer : Buffer) :
    r.nextHandle = 1 ∧ (r.register buffer).place? 1 = some maxWord := by
  have given : r.nextHandle = 1 := h.nextHandle_eq
  refine ⟨given, ?_⟩
  rw [place?_register, if_pos given.symm, h.size_eq]
  rfl

end Churned

end Registry

end Exchange

end GuestHost
