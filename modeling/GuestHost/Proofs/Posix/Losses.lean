import GuestHost.Proofs.Posix.Scattering
/-!
# What failed readings and writings lose

Vectors are read and written one by one, and what those in front have moved stays moved when a later
one turns out to be out of reach, or the number of bytes to have no room. `Syscall.Course` tells
what a reading can come to: all is counted, or nothing has been read, or it has come to a vector out
of reach. So `VectorRead.loses_iff` tells which failed readings have moved the position of their
file, and `VectorRead.gapless_iff` when a guest that goes on after such a failure misses bytes;
`Syscall.write_loses_iff` tells which failed writings have appended to a buffer.
`failed_transfers_iff` puts them together.
-/

namespace GuestHost

open Stateful Exchange

namespace Posix

/-! ## Files that are read on in -/

namespace File

/-- How much of a file has been read. -/
def position : File → Nat
  | .input _ _ position => position
  | .remote _ _ position => position
  | _ => 0

/-- The content of a file, once it has been taken from its source. -/
def content? : File → Option Bytes
  | .input _ content _ => content
  | .remote _ content _ => content
  | _ => none

/-- A file has been read on in: its position does not go back, and its content, without which the
position does not go on, stays what it is. -/
structure Advances (file file' : File) : Prop where
  position_le : file.position ≤ file'.position
  content?_eq : ∀ content, file.content? = some content → file'.content? = some content
  taken : file.position < file'.position → ∃ content, file'.content? = some content

variable {file file' file'' : File}

theorem Advances.refl (file : File) : file.Advances file :=
  ⟨Nat.le_refl _, fun _ => id, fun lt => absurd lt (Nat.lt_irrefl _)⟩

theorem Advances.trans (h : file.Advances file') (h' : file'.Advances file'') :
    file.Advances file'' where
  position_le := Nat.le_trans h.position_le h'.position_le
  content?_eq content held := h'.content?_eq content (h.content?_eq content held)
  taken on := by
    rcases Nat.lt_or_ge file.position file'.position with first | still
    · obtain ⟨content, held⟩ := h.taken first
      exact ⟨content, h'.content?_eq content held⟩
    · exact h'.taken (Nat.lt_of_le_of_lt still on)

/-- What a reading does to a file, told by the number of bytes that it gives. -/
inductive ReadBy (file : File) : Except FileError Nat → File → Prop where
  | given {n : Nat} {file' : File} : file.Advances file' → file'.position = file.position + n →
      file'.content? ≠ none → ReadBy file (.ok n) file'
  | refused (e : FileError) : file.content? = none → ReadBy file (.error e) file

/-- **A reading goes on by the bytes that it gives.** One that fails leaves the file as it is, and
once the content has been taken none fails. -/
theorem readBy_read (file : File) (length : Nat) (w : World) :
    file.ReadBy ((file.read length w).1.map List.length) (file.read length w).2.1 := by
  have source (s : Source) (taken : Option Bytes) (content : Bytes) (position n : Nat)
      (same : ∀ c, taken = some c → content = c) :
      (s.file taken position).ReadBy (.ok n) (s.file (some content) (position + n)) := by
    cases s with
    | _ =>
      exact .given ⟨Nat.le_add_right _ _, fun c held => congrArg some (same c held),
        fun _ => ⟨content, rfl⟩⟩ rfl (Option.some_ne_none content)
  have untaken (content : Bytes) : ∀ c, none = some c → content = c :=
    fun c held => absurd held.symm (Option.some_ne_none c)
  cases file with
  | input place taken position =>
    cases taken with
    | some content =>
      exact source (.buffer place) (some content) content position _ fun c => Option.some.inj
    | none =>
      rw [read]
      rcases w.useAt place Buffer.read with ⟨e | content, after⟩
      · exact .refused _ rfl
      · exact source (.buffer place) none content position _ (untaken content)
  | remote url taken position =>
    cases taken with
    | some content =>
      exact source (.page url) (some content) content position _ fun c => Option.some.inj
    | none =>
      rw [read]
      rcases w.fetch url with ⟨_ | content, after⟩
      · exact .refused _ rfl
      · exact source (.page url) none content position _ (untaken content)
  | output place => exact .refused _ rfl
  | standardError => exact .refused _ rfl

end File

/-- Filling a range is reading so many bytes. -/
theorem Reading.readBy_perform (r : Reading) (file : File) :
    file.ReadBy (r.perform file).1.outcome (r.perform file).2 := by
  have readBy := file.readBy_read r.length r.world
  unfold perform
  revert readBy
  rcases file.read r.length r.world with ⟨e | bytes, file', w⟩
  · exact id
  · exact id

/-- No more bytes are put to a range than fit in. -/
theorem Reading.le_perform (r : Reading) (file : File) :
    ∀ n, (r.perform file).1.outcome = .ok n → n ≤ r.length := by
  have le := file.length_read_le r.length r.world
  unfold perform
  revert le
  rcases file.read r.length r.world with ⟨e | bytes, file', w⟩
  · exact fun _ n given => nomatch given
  · exact fun le n given => Except.ok.inj given ▸ le bytes rfl

namespace Syscall

variable {site : Site} {d table index left done : Nat} {file : File}

/-! ## The course of a reading -/

/-- A vector that cannot be filled: its entry is not in memory, or it is not empty and not in
memory. -/
def OutOfReach (m : Memory) (table index : Nat) : Prop :=
  ¬ m.Holds (table + 8 * index) 8 ∨
    (vectorAt m table index).2 ≠ 0 ∧
      ¬ m.Holds (vectorAt m table index).1 (vectorAt m table index).2

/-- A reading ends at a vector that is out of reach. -/
theorem run_readVectors_outside (most : site.memory.size ≤ maxWord + 1)
    (opened : site.process.file? d = some file) (outside : OutOfReach site.memory table index) :
    ∃ e, (readVectors d table (left + 1) index done).run site =
      (.error (.outOfBounds e), site) := by
  by_cases entry : site.memory.Holds (table + 8 * index) 8
  · obtain ⟨wanted, outside⟩ := outside.resolve_left (not_not_intro entry)
    have process : Call.process.run site = (.ok site.process, site) := rfl
    refine ⟨⟨(vectorAt site.memory table index).1, (vectorAt site.memory table index).2⟩, ?_⟩
    rw [readVectors, run_bind, run_vector most entry]
    dsimp only
    rw [if_neg wanted, run_bind, process]
    dsimp only
    rw [opened]
    dsimp only
    rw [run_bind, Call.run_range, if_neg outside]
  · obtain ⟨e, missed⟩ := run_vector_outside most entry
    refine ⟨e, ?_⟩
    rw [readVectors, run_bind, missed]

/-- What reading into one vector comes to that is within reach: the vector is full, and the others
follow; or it is the last, since the file has no more to give; or the reading is refused. -/
inductive Filling (d table index : Nat) (site : Site) (file : File) (mid : Site) (file' : File) :
    Prop where
  | full (n : Nat) : Fills d table index site mid → file'.position = file.position + n →
      file' = file ∨ file'.content? ≠ none →
      (∀ left done, (readVectors d table (left + 1) index done).run site =
        (readVectors d table left (index + 1) (done + n)).run mid) →
      Filling d table index site file mid file'
  | last (n : Nat) : file'.position = file.position + n →
      (∀ left done, (readVectors d table (left + 1) index done).run site =
        (.ok (.ok (done + n)), mid)) →
      Filling d table index site file mid file'
  | refused (e : FileError) : file' = file → file.content? = none →
      (∀ left done, (readVectors d table (left + 1) index done).run site =
        (.ok (.error e.errno), mid)) →
      Filling d table index site file mid file'

/-- **A vector within reach is read into.** -/
theorem filling_of_reach (most : site.memory.size ≤ maxWord + 1)
    (opened : site.process.file? d = some file) (within : ¬ OutOfReach site.memory table index) :
    ∃ mid file', mid.memory.size = site.memory.size ∧ mid.process.file? d = some file' ∧
      file.Advances file' ∧ Filling d table index site file mid file' := by
  obtain ⟨entry, inside⟩ : site.memory.Holds (table + 8 * index) 8 ∧
      ((vectorAt site.memory table index).2 ≠ 0 →
        site.memory.Holds (vectorAt site.memory table index).1
          (vectorAt site.memory table index).2) := by
    simpa only [OutOfReach, not_or, not_not, not_and] using within
  have looked := run_vector most entry
  revert looked inside
  obtain ⟨address, length⟩ := vectorAt site.memory table index
  intro inside looked
  by_cases empty : length = 0
  · subst empty
    have fills : Fills d table index site site :=
      ⟨address, 0, looked, run_readVectors_empty looked⟩
    exact ⟨site, file, rfl, opened, .refl file,
      .full 0 fills rfl (.inl rfl) fun left done => run_readVectors_empty looked⟩
  · have inside := inside empty
    have run (left done : Nat) :=
      @run_readVectors d table left index done address length file site looked empty opened inside
    have readBy := Reading.readBy_perform ⟨site.world, site.memory, address, length, inside⟩ file
    have size := Reading.size_perform ⟨site.world, site.memory, address, length, inside⟩ file
    have le := Reading.le_perform ⟨site.world, site.memory, address, length, inside⟩ file
    revert run readBy size le
    obtain ⟨⟨outcome, memory, world⟩, file'⟩ :=
      Reading.perform ⟨site.world, site.memory, address, length, inside⟩ file
    intro run readBy size le
    dsimp only at run readBy size le
    let mid : Site := { site with
      memory := memory
      process := site.process.withFile d file'
      world := world }
    have opened' : mid.process.file? d = some file' := by
      rw [Process.file?_withFile, if_pos rfl]
    cases readBy with
    | refused e none => exact ⟨mid, file, size, opened', .refl _, .refused e rfl none run⟩
    | @given n _ advances moved held =>
      refine ⟨mid, file', size, opened', advances, ?_⟩
      by_cases short : n < length
      · exact .last n moved fun left done => (run left done).trans (if_pos short)
      · have whole : n = length := Nat.le_antisymm (le n rfl) (Nat.le_of_not_lt short)
        have rest (left done : Nat) := (run left done).trans (if_neg short)
        refine .full n ⟨address, length, looked, ?_⟩ moved (.inr held) rest
        rw [rest 0 0, whole, Nat.zero_add]
        rfl

/-- What a reading into vectors from an index on comes to. It goes on in the file by the bytes that
it counts; or it is refused before it has gone on; or it ends at a vector that is out of reach. -/
inductive Course (d table left index done : Nat) (site : Site) (file : File) :
    Except CallError (Except Errno Nat) → Site → File → Prop where
  | counted (n : Nat) {after : Site} {file' : File} : file'.position = file.position + n →
      Course d table left index done site file (.ok (.ok (done + n))) after file'
  | refused (e : FileError) {after : Site} : file.content? = none →
      Course d table left index done site file (.ok (.error e.errno)) after file
  | outside {i : Nat} {e : Memory.OutOfBounds} {after : Site} {file' : File} :
      Reaches d table index site i after → i < index + left → OutOfReach after.memory table i →
      Course d table left index done site file (.error (.outOfBounds e)) after file'

/-- The course of the vectors behind one that is full is that of all of them. -/
theorem Course.step {outcome : Except CallError (Except Errno Nat)} {mid after : Site}
    {file' file'' : File} {n : Nat} (fills : Fills d table index site mid)
    (moved : file'.position = file.position + n) (held : file' = file ∨ file'.content? ≠ none)
    (course : Course d table left (index + 1) (done + n) mid file' outcome after file'') :
    Course d table (left + 1) index done site file outcome after file'' := by
  cases course with
  | counted more moved' =>
    rw [Nat.add_assoc]
    exact .counted (n + more) (by rw [moved', moved, Nat.add_assoc])
  | refused e none =>
    rcases held with rfl | held
    · exact .refused e none
    · exact absurd none held
  | outside reached lt outside => exact .outside (.next fills reached) (by omega) outside

/-- **Reading into vectors takes its course.** -/
theorem run_readVectors_course (most : site.memory.size ≤ maxWord + 1)
    (opened : site.process.file? d = some file) :
    ∃ outcome after file', (readVectors d table left index done).run site = (outcome, after) ∧
      after.memory.size = site.memory.size ∧ after.process.file? d = some file' ∧
      file.Advances file' ∧ Course d table left index done site file outcome after file' := by
  induction left generalizing site index done file with
  | zero => exact ⟨_, _, file, rfl, rfl, opened, .refl file, .counted 0 rfl⟩
  | succ left ih =>
    by_cases outside : OutOfReach site.memory table index
    · obtain ⟨e, run⟩ :=
        @run_readVectors_outside site d table index left done file most opened outside
      exact ⟨_, _, file, run, rfl, opened, .refl file,
        .outside (.here index site) (by omega) outside⟩
    · obtain ⟨mid, file', size, opened', advances, filling⟩ := filling_of_reach most opened outside
      cases filling with
      | full n fills moved held run =>
        obtain ⟨outcome, after, file'', rest, size', opened'', advances', course⟩ :=
          @ih mid (index + 1) (done + n) file' (by rwa [size]) opened'
        exact ⟨outcome, after, file'', (run left done).trans rest, size'.trans size, opened'',
          advances.trans advances', course.step fills moved held⟩
      | last n moved run =>
        exact ⟨_, mid, file', run left done, size, opened', advances, .counted n moved⟩
      | refused e same none run =>
        subst same
        exact ⟨_, mid, file', run left done, size, opened', .refl _, .refused e none⟩

/-- **A reading that comes to a vector goes on there**, in memory of the same size. -/
theorem Reaches.run {i : Nat} {mid : Site} (reached : Reaches d table index site i mid)
    (le : i ≤ index + left) (done : Nat) : mid.memory.size = site.memory.size ∧ ∃ done',
      (readVectors d table left index done).run site =
        (readVectors d table (index + left - i) i done').run mid := by
  induction reached generalizing left done with
  | here index site =>
    rw [Nat.add_sub_cancel_left]
    exact ⟨rfl, done, rfl⟩
  | @next index i site mid after fills reached ih =>
    have later := reached.le
    obtain ⟨left, rfl⟩ : ∃ more, left = more + 1 := ⟨left - 1, by omega⟩
    obtain ⟨size, done', rest⟩ := fills.rest left done
    obtain ⟨size', done'', run⟩ := @ih left (by omega) done'
    refine ⟨size'.trans size, done'', ?_⟩
    rw [rest, run, Nat.add_right_comm index 1 left, Nat.add_assoc]

end Syscall

/-! ## Failed readings -/

/-- A system call that reads vectors from a descriptor: the site it is made at, the address of the
table, the number of vectors, and the address for the number of bytes read. -/
structure VectorRead where
  site : Site
  table : UInt32
  count : UInt32
  result : UInt32

namespace VectorRead

variable {c : VectorRead} {d : UInt32} {file : File}

/-- The call on a descriptor that stands for a file. -/
def on (c : VectorRead) (d : UInt32) (file : File) : Site :=
  ({ c.site with process := c.site.process.withFile d.toNat file } : Site).passing
    [.i32 d, .i32 c.table, .i32 c.count, .i32 c.result]

/-- What a guest is answered, and what it finds then. -/
def perform (c : VectorRead) (d : UInt32) (file : File) : Except CallError UInt32 × Site :=
  (Syscall.answered Syscall.read).run (c.on d file)

/-- The file of the descriptor afterwards. -/
def after (c : VectorRead) (d : UInt32) (file : File) : File :=
  ((c.perform d file).2.process.file? d.toNat).getD file

/-- The guest is told that the call succeeded. -/
def Succeeds (c : VectorRead) (d : UInt32) (file : File) : Prop :=
  (c.perform d file).1 = .ok Errno.success.code

instance : Decidable (c.Succeeds d file) :=
  decidable_of_iff ((c.perform d file).1.toOption = some Errno.success.code) <| by
    unfold Succeeds
    exact toOption_eq_some_iff

/-- The guest is told that the call failed, and yet the position has gone on. -/
def Loses (c : VectorRead) (d : UInt32) (file : File) : Prop :=
  ¬ c.Succeeds d file ∧ (c.after d file).position ≠ file.position

/-- The vectors have got bytes when one of them turns out to be out of reach, or the number of bytes
turns out to have no room. -/
inductive Breaks (c : VectorRead) (d : UInt32) (file : File) : Prop where
  | outside {i : Nat} {mid : Site} {file' : File} : i < c.count.toNat →
      Syscall.Reaches d.toNat c.table.toNat 0 (c.on d file) i mid →
      mid.process.file? d.toNat = some file' → file'.position ≠ file.position →
      Syscall.OutOfReach mid.memory c.table.toNat i → Breaks c d file
  | untold {n : Nat} {after : Site} :
      (Syscall.readVectors d.toNat c.table.toNat c.count.toNat 0 0).run (c.on d file) =
        (.ok (.ok n), after) →
      0 < n → ¬ c.site.memory.Holds c.result.toNat 4 → Breaks c d file

theorem file?_on (c : VectorRead) (d : UInt32) (file : File) :
    (c.on d file).process.file? d.toNat = some file :=
  (Process.file?_withFile _ _ _ _).trans (if_pos rfl)

/-- What a call comes to is told by what its vectors come to. -/
theorem perform_of_run {outcome : Except CallError (Except Errno Nat)} {mid : Site}
    (run : (Syscall.readVectors d.toNat c.table.toNat c.count.toNat 0 0).run (c.on d file) =
      (outcome, mid)) (size : mid.memory.size = c.site.memory.size) :
    (c.perform d file).2.process = mid.process ∧
      (c.Succeeds d file ↔
        (∃ n, outcome = .ok (.ok n)) ∧ c.site.memory.Holds c.result.toNat 4) ∧
      ∀ n, outcome = .ok (.ok n) → c.site.memory.Holds c.result.toNat 4 → n ≤ maxWord →
        (c.perform d file).2.memory.readWord 4 c.result.toNat = .ok n := by
  have answer : c.Succeeds d file ↔ (Syscall.read.run (c.on d file)).1 = .ok .success :=
    Syscall.answered_success_iff
  have rest : (c.perform d file).2 = (Syscall.read.run (c.on d file)).2 :=
    Syscall.site_answered Syscall.read (c.on d file)
  have same : mid.memory.Holds c.result.toNat 4 ↔ c.site.memory.Holds c.result.toNat 4 := by
    rw [Memory.Holds, size, Memory.Holds]
  obtain ⟨success, memory, left⟩ := Syscall.success_read_iff rfl run
  refine ⟨by rw [rest, left], by rw [answer, success, same], fun n counted room le => ?_⟩
  have room' : mid.memory.Holds c.result.toNat 4 := same.mpr room
  rw [rest, Syscall.run_read rfl, run, counted]
  dsimp only
  rw [Syscall.run_store_return, if_pos room']
  exact Memory.readWord_overwrite room' le

/-- **A call reads on in its file**, in the course of its vectors. It succeeds if they are all read
and there is room for their number. -/
theorem perform_course (most : c.site.memory.size ≤ maxWord + 1) :
    ∃ outcome mid, (Syscall.readVectors d.toNat c.table.toNat c.count.toNat 0 0).run (c.on d file) =
        (outcome, mid) ∧
      mid.process.file? d.toNat = some (c.after d file) ∧ file.Advances (c.after d file) ∧
      Syscall.Course d.toNat c.table.toNat c.count.toNat 0 0 (c.on d file) file outcome mid
        (c.after d file) ∧
      (c.Succeeds d file ↔
        (∃ n, outcome = .ok (.ok n)) ∧ c.site.memory.Holds c.result.toNat 4) ∧
      ∀ n, outcome = .ok (.ok n) → c.site.memory.Holds c.result.toNat 4 → n ≤ maxWord →
        (c.perform d file).2.memory.readWord 4 c.result.toNat = .ok n := by
  obtain ⟨outcome, mid, file', run, size, opened, advances, course⟩ :=
    @Syscall.run_readVectors_course (c.on d file) d.toNat c.table.toNat 0 c.count.toNat 0 file most
      (c.file?_on d file)
  obtain ⟨process, success, told⟩ := perform_of_run run size
  obtain rfl : c.after d file = file' := by
    rw [VectorRead.after, process, opened, Option.getD_some]
  exact ⟨outcome, mid, run, opened, advances, course, success, told⟩

theorem advances_after (most : c.site.memory.size ≤ maxWord + 1) :
    file.Advances (c.after d file) := by
  obtain ⟨-, -, -, -, advances, -⟩ := @perform_course c d file most
  exact advances

/-- **A success tells how far the position has gone on.** -/
theorem Succeeds.told (succeeds : c.Succeeds d file) (most : c.site.memory.size ≤ maxWord + 1)
    (word : (c.after d file).position - file.position ≤ maxWord) :
    (c.perform d file).2.memory.readWord 4 c.result.toNat =
      .ok ((c.after d file).position - file.position) := by
  obtain ⟨outcome, mid, -, -, -, course, success, told⟩ := @perform_course c d file most
  obtain ⟨⟨n, rfl⟩, room⟩ := success.mp succeeds
  generalize c.after d file = file' at course word ⊢
  cases course with
  | counted n moved =>
    rw [moved, Nat.add_sub_cancel_left] at word ⊢
    exact told n (by rw [Nat.zero_add]) room word

/-- **When a failed reading has read bytes.** -/
theorem loses_iff (most : c.site.memory.size ≤ maxWord + 1) :
    c.Loses d file ↔ c.Breaks d file := by
  obtain ⟨outcome, mid, run, opened, -, course, success, -⟩ := @perform_course c d file most
  rw [Loses, success]
  constructor
  · rintro ⟨fails, moved⟩
    generalize c.after d file = file' at opened course moved
    cases course with
    | counted n on =>
      exact .untold run (by omega) fun room => fails ⟨⟨_, rfl⟩, room⟩
    | refused e none => exact absurd rfl moved
    | outside reached lt outside => exact .outside (by omega) reached opened moved outside
  · intro breaks
    cases breaks with
    | @outside i mid' file'' lt reached opened' moved outside =>
      have within : i ≤ 0 + c.count.toNat := by omega
      obtain ⟨size, done', rest⟩ := reached.run within 0
      obtain ⟨left, more⟩ : ∃ left, 0 + c.count.toNat - i = left + 1 :=
        ⟨0 + c.count.toNat - i - 1, by omega⟩
      have most' : mid'.memory.size ≤ maxWord + 1 := by rwa [size]
      obtain ⟨e, stopped⟩ :=
        @Syscall.run_readVectors_outside mid' d.toNat c.table.toNat i left done' file'' most' opened'
          outside
      rw [rest, more, stopped] at run
      obtain ⟨rfl, rfl⟩ := Prod.mk.inj run
      obtain same : file'' = c.after d file := Option.some.inj (opened'.symm.trans opened)
      refine ⟨fun both => ?_, same ▸ moved⟩
      obtain ⟨⟨n, counted⟩, -⟩ := both
      cases counted
    | @untold n after' run' pos full =>
      obtain ⟨rfl, rfl⟩ := Prod.mk.inj (run.symm.trans run')
      refine ⟨fun both => full both.2, ?_⟩
      generalize c.after d file = file' at course
      cases course with
      | counted n on => omega

/-! ### One after the other -/

/-- What holds at each point of a row holds at its head and at each point behind it. -/
theorem forall_split_cons {α : Type} {a : α} {l : List α} {P : List α → α → List α → Prop} :
    (∀ before b rest, a :: l = before ++ b :: rest → P before b rest) ↔
      P [] a l ∧ ∀ before b rest, l = before ++ b :: rest → P (a :: before) b rest := by
  constructor
  · exact fun all => ⟨all [] a l rfl,
      fun before b rest split => all (a :: before) b rest (by rw [split]; rfl)⟩
  · rintro ⟨first, others⟩ before b rest split
    cases before with
    | nil =>
      obtain ⟨rfl, rfl⟩ := List.cons.inj split
      exact first
    | cons a' before =>
      obtain ⟨rfl, rfl⟩ := List.cons.inj split
      exact others before b rest rfl

theorem range'_append_iff {p k : Nat} {more : List Nat} :
    (∃ n, List.range' p k ++ more = List.range' p n) ↔ ∃ n, more = List.range' (p + k) n := by
  constructor
  · rintro ⟨n, all⟩
    have length := congrArg List.length all
    rw [List.length_append, List.length_range', List.length_range'] at length
    have pieces : List.range' p n = List.range' p k ++ List.range' (p + k) (n - k) := by
      rw [List.range'_append_1, Nat.add_sub_cancel' (by omega)]
    exact ⟨n - k, List.append_cancel_left (all.trans pieces)⟩
  · rintro ⟨n, rfl⟩
    exact ⟨k + n, List.range'_append_1⟩

/-- Numbers that are all behind a first one do not begin with it. -/
theorem eq_range'_iff_of_lt {p : Nat} {more : List Nat} (behind : ∀ j ∈ more, p < j) :
    (∃ n, more = List.range' p n) ↔ more = [] := by
  constructor
  · rintro ⟨n, rfl⟩
    cases n with
    | zero => rfl
    | succ n =>
      have first := behind p (List.mem_range'_1.mpr (by omega))
      omega
  · rintro rfl
    exact ⟨0, rfl⟩

/-- The positions of the bytes that a call gives its guest: none if the guest is told that it
failed. -/
def stretch (c : VectorRead) (d : UInt32) (file : File) : List Nat :=
  if c.Succeeds d file then
    List.range' file.position ((c.after d file).position - file.position)
  else []

/-- The file of the descriptor after some calls. -/
def fileAfter (d : UInt32) (file : File) (row : List VectorRead) : File :=
  row.foldl (fun file c => c.after d file) file

/-- The positions of all bytes that calls give their guest one after the other. Between them the
guest does what it likes but to the descriptor. -/
def given (d : UInt32) : File → List VectorRead → List Nat
  | _, [] => []
  | file, c :: rest => c.stretch d file ++ given d (c.after d file) rest

variable {row : List VectorRead} {content : Bytes}

theorem advances_fileAfter (most : ∀ c ∈ row, c.site.memory.size ≤ maxWord + 1) :
    file.Advances (fileAfter d file row) := by
  induction row generalizing file with
  | nil => exact .refl file
  | cons c rest ih =>
    obtain ⟨here, later⟩ := List.forall_mem_cons.mp most
    exact (advances_after here).trans (ih later)

/-- No call goes back. -/
theorem le_of_mem_given (most : ∀ c ∈ row, c.site.memory.size ≤ maxWord + 1) :
    ∀ j ∈ given d file row, file.position ≤ j := by
  induction row generalizing file with
  | nil => exact nofun
  | cons c rest ih =>
    obtain ⟨here, later⟩ := List.forall_mem_cons.mp most
    intro j mem
    rcases List.mem_append.mp mem with mem | mem
    · unfold stretch at mem
      split at mem
      · exact (List.mem_range'_1.mp mem).1
      · cases mem
    · exact Nat.le_trans (advances_after here).position_le (ih later j mem)

/-- What a call gives and what is given behind it have no gap if what is given behind it has none
and, should the call have lost bytes, is nothing. -/
theorem stretch_append_iff (most : c.site.memory.size ≤ maxWord + 1) {more : List Nat}
    (beyond : ∀ j ∈ more, (c.after d file).position ≤ j) :
    (∃ n, c.stretch d file ++ more = List.range' file.position n) ↔
      (c.Loses d file → more = []) ∧
        ∃ n, more = List.range' (c.after d file).position n := by
  have le := (@advances_after c d file most).position_le
  unfold stretch
  by_cases succeeds : c.Succeeds d file
  · obtain ⟨k, on⟩ : ∃ k, (c.after d file).position = file.position + k :=
      ⟨_, (Nat.add_sub_cancel' le).symm⟩
    rw [if_pos succeeds, on, Nat.add_sub_cancel_left, range'_append_iff]
    exact (and_iff_right fun loses => absurd succeeds loses.1).symm
  · rw [if_neg succeeds, List.nil_append]
    by_cases still : (c.after d file).position = file.position
    · rw [still]
      exact (and_iff_right fun loses => absurd still loses.2).symm
    · rw [eq_range'_iff_of_lt fun j mem => Nat.lt_of_lt_of_le (by omega) (beyond j mem)]
      exact ⟨fun none => ⟨fun _ => none, 0, none⟩, fun both => both.1 ⟨succeeds, still⟩⟩

/-- **What successful calls give has no gap** exactly if they give nothing behind a failed one that
has read bytes. -/
theorem gapless_iff (most : ∀ c ∈ row, c.site.memory.size ≤ maxWord + 1) :
    (∃ n, given d file row = List.range' file.position n) ↔
      ∀ before c rest, row = before ++ c :: rest → c.Loses d (fileAfter d file before) →
        given d (c.after d (fileAfter d file before)) rest = [] := by
  induction row generalizing file with
  | nil => exact iff_of_true ⟨0, rfl⟩ fun before c rest split => by simp at split
  | cons c rest ih =>
    obtain ⟨here, later⟩ := List.forall_mem_cons.mp most
    rw [forall_split_cons, given, stretch_append_iff here (le_of_mem_given later), ih later]
    rfl

/-- The bytes that a call gives its guest. -/
def bytes (c : VectorRead) (d : UInt32) (file : File) : Bytes :=
  if c.Succeeds d file then
    File.next ((c.after d file).content?.getD []) file.position
      ((c.after d file).position - file.position)
  else []

/-- All bytes that calls give their guest one after the other. -/
def delivered (d : UInt32) : File → List VectorRead → Bytes
  | _, [] => []
  | file, c :: rest => c.bytes d file ++ delivered d (c.after d file) rest

/-- The bytes behind a position are those at the positions from there on. -/
theorem next_eq_filterMap (content : Bytes) (position length : Nat) :
    File.next content position length =
      (List.range' position length).filterMap fun i => content[i]? := by
  induction length generalizing position with
  | zero => rfl
  | succ length ih =>
    rw [List.range'_succ, List.filterMap_cons, ← ih, File.next, File.next]
    rcases Nat.lt_or_ge position content.length with lt | ge
    · rw [List.drop_eq_getElem_cons lt, List.take_succ_cons, List.getElem?_eq_getElem lt]
    · rw [List.getElem?_eq_none ge, List.drop_eq_nil_of_le ge,
        List.drop_eq_nil_of_le (Nat.le_succ_of_le ge), List.take_nil, List.take_nil]

/-- All bytes are of the same content. -/
theorem delivered_eq (most : ∀ c ∈ row, c.site.memory.size ≤ maxWord + 1)
    (held : (fileAfter d file row).content? = some content) :
    delivered d file row = (given d file row).filterMap fun i => content[i]? := by
  induction row generalizing file with
  | nil => rfl
  | cons c rest ih =>
    obtain ⟨here, later⟩ := List.forall_mem_cons.mp most
    have advances := @advances_after c d file here
    have onward : (c.after d file).Advances (fileAfter d (c.after d file) rest) :=
      advances_fileAfter later
    have held' : (fileAfter d (c.after d file) rest).content? = some content := held
    have first : c.bytes d file = (c.stretch d file).filterMap fun i => content[i]? := by
      unfold bytes stretch
      split
      · rw [← next_eq_filterMap]
        rcases Nat.eq_or_lt_of_le advances.position_le with still | on
        · rw [still, Nat.sub_self]
          rfl
        · obtain ⟨content', taken⟩ := advances.taken on
          obtain rfl := Option.some.inj ((onward.content?_eq content' taken).symm.trans held')
          rw [taken, Option.getD_some]
      · rfl
    rw [delivered, first, ih later held', given, List.filterMap_append]

end VectorRead

/-! ## Failed writings -/

end Posix

namespace Exchange

/-- The bytes of a message. -/
def Message.bytes : Message → Bytes
  | data _ content => content
  | close => []

namespace Buffer

variable {b : Buffer}

/-- All that has been written to a buffer. -/
def written : Buffer → Bytes
  | memory b => b.content
  | request _ => []
  | response b => b.content
  | socket b => b.outbound.flatMap Message.bytes

/-- Whether a buffer takes what is written to it. -/
def takes : Buffer → Bool
  | memory _ => true
  | request _ => false
  | response _ => true
  | socket b => b.peer

theorem write_of_takes (takes : b.takes = true) (bytes : Bytes) :
    (b.write bytes).1 = .ok bytes.length ∧ (b.write bytes).2.takes = true ∧
      (b.write bytes).2.written = b.written ++ bytes := by
  cases b with
  | memory b => exact ⟨rfl, rfl, rfl⟩
  | response b => exact ⟨rfl, rfl, rfl⟩
  | request b => cases takes
  | socket b =>
    have peer : b.peer = true := takes
    simp [write, Buffer.takes, written, Message.bytes, peer]

theorem write_of_refuses (refuses : b.takes = false) (bytes : Bytes) :
    ∃ e, b.write bytes = (.error e, b) := by
  cases b with
  | memory b => cases refuses
  | response b => cases refuses
  | request b => exact ⟨_, rfl⟩
  | socket b =>
    have peer : b.peer = false := refuses
    exact ⟨.closed, by simp [write, peer]⟩

end Buffer

end Exchange

namespace Posix

/-- Writing to an output is writing to its buffer. -/
theorem File.write_output_at {w : World} {place : Place} {b : Buffer}
    (held : w.registry.at? place = some b) (bytes : Bytes) :
    (File.write bytes w (.output place)).1 = (b.write bytes).1.mapError .exchange ∧
      (File.write bytes w (.output place)).2.registry =
        w.registry.put place (b.write bytes).2 := by
  rw [File.write_output, World.registry_useAt, Registry.useAt_of_at? held]
  refine ⟨?_, rfl⟩
  rw [World.useAt, Registry.useAt_of_at? held]

namespace File

variable {w : World} {file : File}

/-- Whether a file takes what is written to it: standard error does, and an output whose buffer
does. -/
def takes (registry : Registry) : File → Bool
  | .standardError => true
  | .output place => (registry.at? place).any Buffer.takes
  | _ => false

/-- **A file that takes bytes counts them all**, and takes the next. -/
theorem write_of_takes (takes : file.takes w.registry = true) (bytes : Bytes) :
    (file.write bytes w).1 = .ok bytes.length ∧
      file.takes (file.write bytes w).2.registry = true := by
  cases file with
  | standardError => exact ⟨rfl, rfl⟩
  | output place =>
    obtain ⟨b, held, takes⟩ := (Option.any_eq_true _ _).mp takes
    obtain ⟨outcome, registry⟩ := write_output_at held bytes
    obtain ⟨counted, onward, -⟩ := Buffer.write_of_takes takes bytes
    rw [outcome, counted, registry, File.takes, Registry.at?_put_self held]
    exact ⟨rfl, onward⟩
  | _ => cases takes

/-- A file that takes no bytes says so. -/
theorem write_of_refuses (refuses : ¬ file.takes w.registry = true) (bytes : Bytes) :
    ∃ e, (file.write bytes w).1 = .error e := by
  cases file with
  | standardError => exact absurd rfl refuses
  | output place =>
    cases held : w.registry.at? place with
    | none =>
      refine ⟨.exchange .closed, ?_⟩
      rw [write_output, World.useAt, Registry.useAt, held]
      rfl
    | some b =>
      rw [takes, held] at refuses
      obtain ⟨e, refused⟩ := Buffer.write_of_refuses (Bool.eq_false_iff.mpr refuses) bytes
      refine ⟨.exchange e, ?_⟩
      rw [(write_output_at held bytes).1, refused]
      rfl
  | _ => exact ⟨_, rfl⟩

end File

namespace Syscall

variable {site : Site} {d table index left written : Nat} {place : Place} {b : Buffer} {file : File}

theorem length_gathered_le (m : Memory) (table left index : Nat) :
    (gathered m table left index).length ≤ left := by
  induction left generalizing index with
  | zero => exact Nat.le_refl 0
  | succ left ih =>
    rw [gathered]
    cases vectorBytes m table index with
    | none => exact Nat.zero_le _
    | some bytes => exact Nat.succ_le_succ (ih (index + 1))

/-- A world in which bytes have been passed to the file of a descriptor, after a trace has told of
them if it does. -/
def handed (i : Invocation) (d : Nat) (file : File) (w : World) (bytes : Bytes) : World :=
  (file.write bytes (heard i d w bytes)).2

/-- **A file that takes what is written gets the vectors one by one**, up to the first that is not
in memory, and the count goes on by their bytes. -/
theorem run_writeVectors_handed (opened : site.process.file? d = some file)
    (takes : file.takes site.world.registry = true) (table left index written : Nat) :
    let vectors := gathered site.memory table left index
    ∃ outcome, (writeVectors d table left index written).run site = (outcome, { site with
        world := vectors.foldl (handed site.invocation d file) site.world }) ∧
      ∀ n, outcome = .ok (.ok n) ↔ vectors.length = left ∧ n = written + vectors.flatten.length := by
  induction left generalizing site index written with
  | zero =>
    refine ⟨.ok (.ok written), rfl, fun n => ⟨fun same => ?_, ?_⟩⟩
    · cases same
      exact ⟨rfl, rfl⟩
    · rintro ⟨-, rfl⟩
      rfl
  | succ left ih =>
    obtain ⟨e, run⟩ := run_writeVectors_cons d table index written site
    replace run := run left
    rw [gathered]
    cases fetched : vectorBytes site.memory table index with
    | none =>
      rw [fetched] at run
      refine ⟨_, run, fun n => iff_of_false ?_ fun both => Nat.zero_ne_add_one left both.1⟩
      intro same
      cases same
    | some bytes =>
      rw [fetched, opened] at run
      have takes' : file.takes (heard site.invocation d site.world bytes).registry = true := by
        rwa [registry_heard]
      obtain ⟨counted, onward⟩ := File.write_of_takes takes' bytes
      dsimp only at run
      rw [counted] at run
      let mid : Site := { site with world := handed site.invocation d file site.world bytes }
      obtain ⟨outcome, rest, counts⟩ :=
        @ih mid opened onward (index + 1) (written + bytes.length)
      refine ⟨outcome, run.trans rest, fun n => (counts n).trans ?_⟩
      rw [List.length_cons, Nat.succ_inj, List.flatten_cons, List.length_append, ← Nat.add_assoc]

/-- What is passed to an output is behind what its buffer has. -/
theorem at?_handed (i : Invocation) (d : Nat) {w : World} (held : w.registry.at? place = some b)
    (takes : b.takes = true) (vectors : List Bytes) :
    ∃ b', (vectors.foldl (handed i d (.output place)) w).registry.at? place = some b' ∧
      b'.written = b.written ++ vectors.flatten := by
  induction vectors generalizing w b with
  | nil => exact ⟨b, held, (List.append_nil _).symm⟩
  | cons bytes rest ih =>
    have held' : (heard i d w bytes).registry.at? place = some b := by rwa [registry_heard]
    obtain ⟨-, takes', behind⟩ := Buffer.write_of_takes takes bytes
    have there : (handed i d (.output place) w bytes).registry.at? place =
        some (b.write bytes).2 := by
      rw [handed, (File.write_output_at held' bytes).2]
      exact Registry.at?_put_self held' _
    obtain ⟨b', at_place, all⟩ := ih there takes'
    refine ⟨b', at_place, ?_⟩
    rw [all, behind, List.flatten_cons, List.append_assoc]

/-- **Writing vectors to a buffer that takes them** writes those in front of the first that is not
in memory. -/
theorem run_writeVectors_taken (opened : site.process.file? d = some (.output place))
    (held : site.world.registry.at? place = some b) (takes : b.takes = true) :
    ∃ outcome world b', (writeVectors d table left index written).run site =
        (outcome, { site with world := world }) ∧
      world.registry.at? place = some b' ∧
      b'.written = b.written ++ (gathered site.memory table left index).flatten ∧
      ((∃ n, outcome = .ok (.ok n)) ↔ (gathered site.memory table left index).length = left) := by
  have taking : (File.output place).takes site.world.registry = true := by
    rw [File.takes, held]
    exact takes
  obtain ⟨outcome, run, counts⟩ := run_writeVectors_handed opened taking table left index written
  obtain ⟨b', there, all⟩ := at?_handed site.invocation d held takes
    (gathered site.memory table left index)
  refine ⟨outcome, _, b', run, there, all, ?_⟩
  simp only [counts, exists_and_left, exists_eq, and_true]

/-- Nothing is written to a file that is no output, or whose buffer takes nothing. -/
theorem run_writeVectors_kept (opened : site.process.file? d = some file)
    (held : site.world.registry.at? place = some b) (behind : file.place? = some place)
    (refuses : ¬ (file = .output place ∧ b.takes = true)) :
    ∃ outcome world, (writeVectors d table left index written).run site =
        (outcome, { site with world := world }) ∧ world.registry.at? place = some b := by
  cases left with
  | zero => exact ⟨_, site.world, rfl, held⟩
  | succ left =>
    obtain ⟨e, heard, noted, run⟩ := run_writeVectors_succ d table left index written site
    have held' : heard.registry.at? place = some b := by rwa [registry_noted noted]
    rw [opened] at run
    cases fetched : vectorBytes site.memory table index with
    | none =>
      rw [fetched] at run
      exact ⟨_, site.world, run, held⟩
    | some bytes =>
      rw [fetched] at run
      dsimp only at run
      cases file with
      | output target =>
        obtain rfl : target = place := Option.some.inj behind
        obtain ⟨outcome, registry⟩ := File.write_output_at held' bytes
        obtain ⟨e, refused⟩ := Buffer.write_of_refuses
          (Bool.eq_false_iff.mpr fun takes => refuses ⟨rfl, takes⟩) bytes
        rw [refused] at outcome registry
        rw [outcome] at run
        refine ⟨_, _, run, ?_⟩
        rw [registry]
        exact Registry.at?_put_self held' _
      | input target taken position => exact ⟨_, heard, run, held'⟩
      | _ => cases behind

/-- **When a failed writing has written bytes.** -/
theorem write_loses_iff {d table count result : UInt32}
    (opened : site.process.file? d.toNat = some file) (behind : file.place? = some place)
    (held : site.world.registry.at? place = some b) :
    let done := (answered write).run (site.passing [.i32 d, .i32 table, .i32 count, .i32 result])
    let front := gathered site.memory table.toNat count.toNat 0
    ∃ b', done.2.world.registry.at? place = some b' ∧
      (file = .output place ∧ b.takes = true → b'.written = b.written ++ front.flatten) ∧
      (done.1 ≠ .ok Errno.success.code ∧ b'.written ≠ b.written ↔
        (file = .output place ∧ b.takes = true) ∧ front.flatten ≠ [] ∧
          (front.length < count.toNat ∨ ¬ site.memory.Holds result.toNat 4)) := by
  intro done front
  let passing := site.passing [.i32 d, .i32 table, .i32 count, .i32 result]
  have passed : passing.arguments = [.i32 d, .i32 table, .i32 count, .i32 result] := rfl
  have answer : done.1 = .ok Errno.success.code ↔ (write.run passing).1 = .ok .success :=
    answered_success_iff
  have rest : done.2 = (write.run passing).2 := site_answered write passing
  by_cases takes : file = .output place ∧ b.takes = true
  · obtain ⟨rfl, takes'⟩ := takes
    obtain ⟨outcome, world, b', run, there, all, counted⟩ :=
      @run_writeVectors_taken passing d.toNat table.toNat 0 count.toNat 0 place b opened held takes'
    obtain ⟨success, memory, left⟩ := success_write_iff passed run
    refine ⟨b', by rw [rest, left]; exact there, fun _ => all, ?_⟩
    have le : front.length ≤ count.toNat := length_gathered_le _ _ _ _
    have changed : b'.written ≠ b.written ↔ front.flatten ≠ [] := by
      rw [all]
      exact not_congr List.append_right_eq_self
    have fails : done.1 ≠ .ok Errno.success.code ↔
        front.length < count.toNat ∨ ¬ site.memory.Holds result.toNat 4 := by
      have whole : (∃ n, outcome = .ok (.ok n)) ↔ front.length = count.toNat := counted
      rw [Ne, answer, success, whole, not_and_or]
      exact or_congr_left (by omega)
    rw [fails, changed, and_iff_right (⟨rfl, takes'⟩ : _ ∧ _), and_comm]
  · obtain ⟨outcome, world, run, there⟩ :=
      @run_writeVectors_kept passing d.toNat table.toNat 0 count.toNat 0 place b file opened held
        behind takes
    obtain ⟨-, memory, left⟩ := success_write_iff passed run
    exact ⟨b, by rw [rest, left]; exact there, fun yes => absurd yes takes,
      iff_of_false (fun both => both.2 rfl) fun both => takes both.1⟩

end Syscall

/-! ## Readings and writings -/

/-- **What failed readings and writings lose.** Memory has no more than 2^32 bytes, and a descriptor
stands for a file.
- A reading fails although the position has gone on exactly if vectors have got bytes when another
  one turns out to be out of reach, or the number of bytes to have no room. A success tells by how
  much the position has gone on.
- Writing appends the vectors in front of the first that is not in memory to the buffer of an output
  that takes them. It fails although it has appended bytes exactly if there are bytes in these
  vectors, and they are not all of them, or the number of bytes has no room.
- Readings one after the other give their guest the content from the position on without a gap
  exactly if the successful ones give nothing behind a failed one that has moved the position. What
  they give is then the content up to some number of bytes. -/
theorem failed_transfers_iff {site : Site} {d table count result : UInt32} {file : File}
    (most : site.memory.size ≤ maxWord + 1) (opened : site.process.file? d.toNat = some file) :
    let passing := site.passing [.i32 d, .i32 table, .i32 count, .i32 result]
    let c : VectorRead := ⟨site, table, count, result⟩
    (c.perform d file = (Syscall.answered Syscall.read).run passing ∧
      (c.Loses d file ↔ c.Breaks d file) ∧
      (c.Succeeds d file → (c.after d file).position - file.position ≤ maxWord →
        (c.perform d file).2.memory.readWord 4 result.toNat =
          .ok ((c.after d file).position - file.position))) ∧
    (∀ place b, file.place? = some place → site.world.registry.at? place = some b →
      let done := (Syscall.answered Syscall.write).run passing
      let front := Syscall.gathered site.memory table.toNat count.toNat 0
      ∃ b', done.2.world.registry.at? place = some b' ∧
        (file = .output place ∧ b.takes = true → b'.written = b.written ++ front.flatten) ∧
        (done.1 ≠ .ok Errno.success.code ∧ b'.written ≠ b.written ↔
          (file = .output place ∧ b.takes = true) ∧ front.flatten ≠ [] ∧
            (front.length < count.toNat ∨ ¬ site.memory.Holds result.toNat 4))) ∧
    ∀ row : List VectorRead, (∀ c ∈ row, c.site.memory.size ≤ maxWord + 1) →
      ((∃ n, VectorRead.given d file row = List.range' file.position n) ↔
        ∀ before c rest, row = before ++ c :: rest →
          c.Loses d (VectorRead.fileAfter d file before) →
          VectorRead.given d (c.after d (VectorRead.fileAfter d file before)) rest = []) ∧
      ∀ n content, VectorRead.given d file row = List.range' file.position n →
        (VectorRead.fileAfter d file row).content? = some content →
          VectorRead.delivered d file row = (content.drop file.position).take n := by
  intro passing c
  refine ⟨⟨?_, VectorRead.loses_iff most, fun success => success.told most⟩,
    fun place b behind held => Syscall.write_loses_iff opened behind held,
    fun row most => ⟨VectorRead.gapless_iff most, fun n content gapless held => ?_⟩⟩
  · rw [VectorRead.perform, VectorRead.on, Process.withFile_self opened]
  · rw [VectorRead.delivered_eq most held, gapless, ← VectorRead.next_eq_filterMap, File.next]

/-- A process with a buffer of five bytes behind its standard input and its standard output, and a
table of two vectors, the second of which is behind the end of memory. -/
def cutting : Site :=
  { Syscall.dealing with
    memory := .ofBytes ([24, 0, 0, 0, 2, 0, 0, 0, 32, 0, 0, 0, 1, 0, 0, 0] ++
      [0, 0, 0, 0, 0, 0, 0, 0, 1, 2, 3, 4, 5, 6, 7, 8])
    process := (Process.unbound.withFile 0 (.inputOf 0)).withFile 1 (.output 0) }

/-- Reading both vectors fails and loses two bytes, and reading the first one then gives the next
two; writing both fails and has appended two bytes. -/
theorem failed_transfers_iff_cutting :
    let both : VectorRead := ⟨cutting, 0, 2, 16⟩
    let first : VectorRead := ⟨cutting, 0, 1, 16⟩
    both.Breaks 0 (.inputOf 0) ∧
      (¬ ∃ n, VectorRead.given 0 (.inputOf 0) [both, first] = List.range' 0 n) ∧
      ∃ b', ((Syscall.answered Syscall.write).run
          (cutting.passing [.i32 1, .i32 0, .i32 2, .i32 16])).2.world.registry.at? 0 = some b' ∧
        b'.written = [0x61, 0x62, 0x63, 0x64, 0x65, 1, 2] := by
  intro both first
  have most : cutting.memory.size ≤ maxWord + 1 := by decide
  obtain ⟨⟨-, loses_iff, -⟩, -, rows⟩ :=
    @failed_transfers_iff cutting 0 0 2 16 (.inputOf 0) most rfl
  obtain ⟨-, writes, -⟩ := @failed_transfers_iff cutting 1 0 2 16 (.output 0) most rfl
  have loses : both.Loses 0 (.inputOf 0) := ⟨by decide +kernel, by decide +kernel⟩
  obtain ⟨b', there, taken, -⟩ :=
    writes 0 (.memory (.ofContent [0x61, 0x62, 0x63, 0x64, 0x65])) rfl rfl
  refine ⟨loses_iff.mp loses, fun gapless => ?_, b', there, ?_⟩
  · have none := (rows [both, first] (by simp [both, first, most])).1.mp gapless [] both [first] rfl
      loses
    exact absurd none (by decide +kernel)
  · rw [taken ⟨rfl, rfl⟩]
    decide +kernel

end Posix

end GuestHost
