import GuestHost.Proofs.HostCalls.Appends
import GuestHost.Proofs.Posix.Streaming
/-!
# Addresses that stop

System calls compute addresses that stop at the greatest word. The largest memory has a byte there,
so an access to a stopped address can succeed where one to the exact address would pass the end. But
only a single byte fits in, `Memory.holds_stopped_iff`, and nearly all that system calls access at
computed addresses is wider or has been cleared in one piece before. So a success tells that the
ranges which a system call `Needs` are in memory, `Needs.holds`. The exceptions are the arguments:
the NUL behind one may be put on the last byte, and a table of more addresses than memory has room
for starts over at its front. `ok_storeArguments_iff` tells when the arguments are written, and
`fault_hidden_iff` when that hides that they do not fit.
-/

namespace GuestHost

open Stateful Exchange

/-! ## Stopped addresses -/

theorem satAdd_stopped (a b : Nat) : satAdd (min a maxWord) b = min (a + b) maxWord := by
  simp only [satAdd]
  omega

theorem satAdd_satMul (a b c : Nat) : satAdd a (satMul b c) = min (a + b * c) maxWord := by
  simp only [satAdd, satMul]
  omega

/-- **Two bytes at a stopped address are in memory only if the address did not have to stop.** -/
theorem Memory.holds_stopped_iff {m : Memory} {address length : Nat} (most : m.size ≤ maxWord + 1)
    (two : 2 ≤ length) : m.Holds (min address maxWord) length ↔ m.Holds address length := by
  simp only [Holds]
  omega

namespace Posix

namespace Syscall

variable {site : Site} {argv : List String} {slots index buffer : Nat}

/-- A word that is stored in the end decides what a call comes to. -/
theorem run_store_return (width offset value : Nat) (errno : Errno) (site : Site) :
    (do Call.store width offset value; return errno : Call Errno).run site =
      if site.memory.Holds offset width then
        (.ok errno, { site with
          memory := site.memory.overwrite offset (Bytes.ofWord width value) })
      else (.error (.outOfBounds ⟨offset, width⟩), site) := by
  rw [run_bind, Call.run_store]
  by_cases room : site.memory.Holds offset width
  · rw [if_pos room, if_pos room]
    rfl
  · rw [if_neg room, if_neg room]

theorem ok_store_return_iff {width offset value : Nat} {errno : Errno} {site : Site} :
    ((do Call.store width offset value; return errno : Call Errno).run site).1 = .ok .success ↔
      site.memory.Holds offset width ∧ errno = .success := by
  rw [run_store_return]
  by_cases room : site.memory.Holds offset width
  · rw [if_pos room, and_iff_right room]
    exact ⟨Except.ok.inj, congrArg Except.ok⟩
  · rw [if_neg room]
    exact iff_of_false nofun fun both => room both.1

theorem site_store_return (width offset value : Nat) (errno : Errno) (site : Site) :
    ∃ memory, ((do Call.store width offset value; return errno : Call Errno).run site).2 =
      { site with memory := memory } := by
  rw [run_store_return]
  split
  · exact ⟨_, rfl⟩
  · exact ⟨site.memory, rfl⟩

theorem answered_success_iff {call : Call Errno} :
    ((answered call).run site).1 = .ok Errno.success.code ↔ (call.run site).1 = .ok .success := by
  refine ⟨run_of_answered, fun success => ?_⟩
  have run : call.run site = (.ok .success, (call.run site).2) := Prod.ext success rfl
  rw [run_answered_of_ok run]

/-- A system call that passes the end of memory answers that an address is bad. -/
theorem run_answered_of_outside {call : Call Errno} {access : Memory.OutOfBounds} {after : Site}
    (run : call.run site = (.error (.outOfBounds access), after)) :
    (answered call).run site = (.ok Errno.fault.code, after) := by
  simp only [answered, run_tryCatch, run_bind, run]
  rfl

/-- A system call that is refused answers that its descriptor is bad. -/
theorem run_answered_of_refused {call : Call Errno} {reason : Reason} {after : Site}
    (run : call.run site = (.error (.recoverable reason), after)) :
    (answered call).run site = (.ok Errno.badDescriptor.code, after) := by
  simp only [answered, run_tryCatch, run_bind, run]
  rfl

/-! ## The arguments -/

/-- In memory of some size there is room for the addresses of arguments in a table, from an index on
and where their distances wrap, and for the arguments, each with its NUL, where their addresses
stop. -/
structure Fit (size : Nat) (argv : List String) (slots index buffer : Nat) : Prop where
  slots : ∀ i < argv.length, slots + 4 * (index + i) % 2 ^ 32 + 4 ≤ size
  texts : ∀ before text after, argv = before ++ text :: after →
    min (buffer + argumentsSize before) maxWord + text.utf8ByteSize ≤ size ∧
      min (buffer + argumentsSize before + text.utf8ByteSize) maxWord < size

theorem fit_nil (size slots index buffer : Nat) : Fit size [] slots index buffer where
  slots i lt := absurd lt (Nat.not_lt_zero i)
  texts before text after split := by simp at split

theorem fit_cons {size : Nat} {text : String} {rest : List String} :
    Fit size (text :: rest) slots index buffer ↔
      slots + 4 * index % 2 ^ 32 + 4 ≤ size ∧ min buffer maxWord + text.utf8ByteSize ≤ size ∧
        min (buffer + text.utf8ByteSize) maxWord < size ∧
        Fit size rest slots (index + 1) (buffer + (text.utf8ByteSize + 1)) := by
  have next (i : Nat) : index + 1 + i = index + (i + 1) := by omega
  constructor
  · intro fit
    have first := fit.texts [] text rest rfl
    refine ⟨fit.slots 0 (Nat.succ_pos _), first.1, first.2, fun i lt => ?_,
      fun before text' after split => ?_⟩
    · rw [next]
      exact fit.slots (i + 1) (Nat.succ_lt_succ lt)
    · have later := fit.texts (text :: before) text' after (by rw [split]; rfl)
      rwa [argumentsSize, ← Nat.add_assoc] at later
  · rintro ⟨slot, room, nul, fit⟩
    refine ⟨fun i lt => ?_, fun before text' after split => ?_⟩
    · cases i with
      | zero => exact slot
      | succ i =>
        have later := fit.slots i (Nat.lt_of_succ_lt_succ lt)
        rwa [next] at later
    · cases before with
      | nil =>
        obtain ⟨rfl, rfl⟩ := List.cons.inj split
        exact ⟨room, nul⟩
      | cons text'' before =>
        obtain ⟨rfl, rfl⟩ := List.cons.inj split
        have later := fit.texts before text' after rfl
        rwa [Nat.add_assoc buffer, ← argumentsSize] at later

/-- **The arguments are written if there is room for them** where their addresses stop. -/
theorem ok_storeArguments_iff (most : site.memory.size ≤ maxWord + 1) :
    ((storeArguments slots argv index (min buffer maxWord)).run site).1 = .ok ⟨⟩ ↔
      Fit site.memory.size argv slots index buffer := by
  induction argv generalizing site index buffer with
  | nil => exact iff_of_true rfl (fit_nil _ _ _ _)
  | cons text rest ih =>
    rw [storeArguments, Call.ok_bind_iff (Call.run_store _ _ _ _), slot_wraps, satAdd,
      Memory.holds_stopped_iff most (by decide), Call.ok_bind_iff (Call.run_write _ _ _),
      Call.ok_bind_iff (Call.run_store _ _ _ _), Utf8.length_encode, satAdd_stopped,
      satAdd_stopped, Nat.add_assoc buffer,
      ih (by simpa only [Memory.size_overwrite] using most), fit_cons]
    simp only [Memory.Holds, Memory.size_overwrite, Nat.lt_iff_add_one_le]

/-- **When arguments are written that do not fit in.** -/
theorem fit_hidden_iff {size : Nat} (most : size ≤ maxWord + 1) (word : buffer ≤ maxWord) :
    (Fit size argv slots 0 buffer ∧
      ((∃ i < argv.length, size < slots + 4 * i + 4) ∨
        ∃ before text after, argv = before ++ text :: after ∧
          size < buffer + argumentsSize before + (text.utf8ByteSize + 1))) ↔
    size = maxWord + 1 ∧ slots + 4 * min argv.length (2 ^ 30) ≤ size ∧
      (∀ before text after, argv = before ++ text :: after →
        min (buffer + argumentsSize before) maxWord + text.utf8ByteSize ≤ size) ∧
      (2 ^ 30 < argv.length ∨ maxWord + 1 < buffer + argumentsSize argv) := by
  simp only [maxWord] at most word ⊢
  constructor
  · rintro ⟨fit, outside⟩
    have texts : ∀ before text after, argv = before ++ text :: after →
        min (buffer + argumentsSize before) maxWord + text.utf8ByteSize ≤ size :=
      fun before text after split => (fit.texts before text after split).1
    rcases outside with ⟨i, lt, outside⟩ | ⟨before, text, after, split, outside⟩
    · -- the distance of this address has wrapped, and the last that has not fills memory
      have wrapped := fit.slots i lt
      have last := fit.slots (2 ^ 30 - 1) (by omega)
      exact ⟨by omega, by omega, texts, by omega⟩
    · -- the NUL of this argument is inside where its address stops, which is the last byte
      have nul := (fit.texts before text after split).2
      have count : argv.length = before.length + (after.length + 1) := by
        rw [split, List.length_append, List.length_cons]
      have last := fit.slots (min argv.length (2 ^ 30) - 1) (by omega)
      have total : argumentsSize argv =
          argumentsSize before + (text.utf8ByteSize + 1 + argumentsSize after) := by
        rw [split, argumentsSize_append, argumentsSize]
      simp only [maxWord] at nul
      exact ⟨by omega, by omega, texts, by omega⟩
  · rintro ⟨full, room, texts, beyond⟩
    refine ⟨⟨fun i lt => by omega, fun before text after split => ?_⟩, ?_⟩
    · exact ⟨texts before text after split, by simp only [maxWord]; omega⟩
    · rcases beyond with many | beyond
      · exact .inl ⟨2 ^ 30, many, by omega⟩
      refine .inr ?_
      rcases List.eq_nil_or_concat' argv with rfl | ⟨before, text, rfl⟩
      · simp only [argumentsSize] at beyond
        omega
      · refine ⟨before, text, [], rfl, ?_⟩
        rw [argumentsSize_append, argumentsSize, argumentsSize] at beyond
        omega

/-! ## Tables of vectors -/

/-- The address and the length of the vector that a table has at an index. -/
def vectorAt (m : Memory) (table index : Nat) : Nat × Nat :=
  let entry := table + 8 * index
  (Bytes.toWord (m.bytesAt entry 4), Bytes.toWord (m.bytesAt (entry + 4) 4))

theorem vector_stopped (table index : Nat) : vector table index = do
    let address ← Call.load (min (table + 8 * index) maxWord)
    let length ← Call.load (min (table + 8 * index + 4) maxWord)
    return (address, length) := by
  rw [vector, satAdd_satMul, satAdd_stopped, Nat.mul_comm]

/-- **A vector whose entry is in memory is looked up where it stands.** -/
theorem run_vector {table index : Nat} (most : site.memory.size ≤ maxWord + 1)
    (held : site.memory.Holds (table + 8 * index) 8) :
    (vector table index).run site = (.ok (vectorAt site.memory table index), site) := by
  simp only [Memory.Holds] at held
  have address : site.memory.Holds (table + 8 * index) 4 := by
    simp only [Memory.Holds]
    omega
  have length : site.memory.Holds (table + 8 * index + 4) 4 := held
  rw [vector_stopped, Nat.min_eq_left (by omega), Nat.min_eq_left (by omega), run_bind,
    Call.run_load, if_pos address]
  dsimp only
  rw [run_bind, Call.run_load, if_pos length]
  rfl

/-- A vector whose entry is not in memory is not found. -/
theorem run_vector_outside {table index : Nat} (most : site.memory.size ≤ maxWord + 1)
    (outside : ¬ site.memory.Holds (table + 8 * index) 8) :
    ∃ e, (vector table index).run site = (.error (.outOfBounds e), site) := by
  have last : ¬ site.memory.Holds (min (table + 8 * index + 4) maxWord) 4 :=
    mt (Memory.holds_stopped_iff most (by decide)).mp outside
  rw [vector_stopped, run_bind, Call.run_load]
  by_cases first : site.memory.Holds (min (table + 8 * index) maxWord) 4
  · rw [if_pos first]
    dsimp only
    rw [run_bind, Call.run_load, if_neg last]
    exact ⟨_, rfl⟩
  · rw [if_neg first]
    exact ⟨_, rfl⟩

/-- **A vector that is looked up has its entry in memory.** -/
theorem ok_vector_iff {β : Type} {f : Nat × Nat → Call β} {b : β} {table index : Nat}
    (most : site.memory.size ≤ maxWord + 1) :
    ((vector table index >>= f).run site).1 = .ok b ↔ site.memory.Holds (table + 8 * index) 8 ∧
      ((f (vectorAt site.memory table index)).run site).1 = .ok b := by
  constructor
  · intro success
    have held := success
    rw [vector_stopped, bind_assoc, Call.ok_bind_iff (Call.run_load _ _), bind_assoc,
      Call.ok_bind_iff (Call.run_load _ _), Memory.holds_stopped_iff most (by decide),
      Memory.holds_stopped_iff most (by decide)] at held
    have whole : site.memory.Holds (table + 8 * index) 8 := held.2.1
    rw [run_bind, run_vector most whole] at success
    exact ⟨whole, success⟩
  · rintro ⟨whole, success⟩
    rw [run_bind, run_vector most whole]
    exact success

/-! ### Writing -/

/-- What the system call that writes comes to is told by what writing its vectors comes to. -/
theorem run_write {d table count result : UInt32}
    (passed : site.arguments = [.i32 d, .i32 table, .i32 count, .i32 result]) :
    write.run site =
      match (writeVectors d.toNat table.toNat count.toNat 0 0).run site with
      | (.ok (.ok n), after) =>
        (do Call.store 4 result.toNat n; return .success : Call Errno).run after
      | (.ok (.error errno), after) =>
        (do Call.store 4 result.toNat 0; return errno : Call Errno).run after
      | (.error e, after) => (.error e, after) := by
  rw [write_eq, Call.run_word_bind (by rw [passed]; rfl), Call.run_word_bind (by rw [passed]; rfl),
    Call.run_word_bind (by rw [passed]; rfl), Call.run_word_bind (by rw [passed]; rfl), run_bind]
  rcases (writeVectors d.toNat table.toNat count.toNat 0 0).run site with
    ⟨(e | errno | n), after⟩ <;> rfl

/-- Writing vectors stops at the first with the number of an error, or goes on behind it. -/
theorem stops_or_goes_on {d table left index written : Nat} {outcome : Except Errno Nat}
    (ran : ((writeVectors d table (left + 1) index written).run site).1 = .ok outcome) :
    (∃ errno, errno ≠ .success ∧ outcome = .error errno) ∨
      ∃ world written', ((writeVectors d table left (index + 1) written').run
        { site with world := world }).1 = .ok outcome := by
  obtain ⟨e, heard, -, run⟩ := run_writeVectors_succ d table left index written site
  rw [run] at ran
  cases fetched : vectorBytes site.memory table index with
  | none =>
    rw [fetched] at ran
    cases ran
  | some bytes =>
    rw [fetched] at ran
    cases opened : site.process.file? d with
    | none =>
      rw [opened] at ran
      exact .inl ⟨.badDescriptor, nofun, (Except.ok.inj ran).symm⟩
    | some file =>
      rw [opened] at ran
      dsimp only at ran
      cases wrote : (file.write bytes heard).1 with
      | error e =>
        rw [wrote] at ran
        exact .inl ⟨e.errno, e.errno_ne_success, (Except.ok.inj ran).symm⟩
      | ok n =>
        rw [wrote] at ran
        exact .inr ⟨_, _, ran⟩

/-- A writing that stops is no success. -/
theorem writeVectors_ne (d table left index written : Nat) (site : Site) :
    ((writeVectors d table left index written).run site).1 ≠ .ok (.error .success) := by
  induction left generalizing site index written with
  | zero => exact nofun
  | succ left ih =>
    intro ran
    rcases stops_or_goes_on ran with ⟨errno, failed, same⟩ | ⟨world, written', rest⟩
    · exact failed (Except.error.inj same).symm
    · exact ih _ _ _ rest

/-- **Writing succeeds if all vectors are written** and there is room for the number of bytes. It
leaves what its vectors leave, but for memory. -/
theorem success_write_iff {d table count result : UInt32} {after : Site}
    {outcome : Except CallError (Except Errno Nat)}
    (passed : site.arguments = [.i32 d, .i32 table, .i32 count, .i32 result])
    (ran : (writeVectors d.toNat table.toNat count.toNat 0 0).run site = (outcome, after)) :
    ((write.run site).1 = .ok .success ↔
      (∃ n, outcome = .ok (.ok n)) ∧ after.memory.Holds result.toNat 4) ∧
      ∃ memory, (write.run site).2 = { after with memory := memory } := by
  have ne := writeVectors_ne d.toNat table.toNat count.toNat 0 0 site
  rw [ran] at ne
  rw [run_write passed, ran]
  rcases outcome with e | errno | n
  · exact ⟨iff_of_false nofun fun ⟨⟨n, counted⟩, _⟩ => (by cases counted), _, rfl⟩
  · refine ⟨ok_store_return_iff.trans (iff_of_false ?_ ?_), site_store_return _ _ _ _ _⟩
    · exact fun both => ne (congrArg _ (congrArg _ both.2))
    · exact fun ⟨⟨n, counted⟩, _⟩ => (by cases counted)
  · refine ⟨ok_store_return_iff.trans ?_, site_store_return _ _ _ _ _⟩
    exact ⟨fun both => ⟨⟨n, rfl⟩, both.1⟩, fun both => ⟨both.2, rfl⟩⟩

/-- **Vectors that are all written have their entries in memory.** -/
theorem holds_of_writeVectors {d table left index written total : Nat}
    (most : site.memory.size ≤ maxWord + 1)
    (success : ((writeVectors d table left index written).run site).1 = .ok (.ok total))
    {i : Nat} (le : index ≤ i) (lt : i < index + left) :
    site.memory.Holds (table + 8 * i) 8 := by
  induction left generalizing site index written with
  | zero => omega
  | succ left ih =>
    rcases Nat.eq_or_lt_of_le le with rfl | later
    · exact ((ok_vector_iff most).mp success).1
    · rcases stops_or_goes_on success with ⟨errno, -, same⟩ | ⟨world, written', rest⟩
      · cases same
      · exact @ih { site with world := world } (index + 1) written' most rest later (by omega)

/-! ### Reading -/

/-- What the system call that reads comes to is told by what reading its vectors comes to. -/
theorem run_read {d table count result : UInt32}
    (passed : site.arguments = [.i32 d, .i32 table, .i32 count, .i32 result]) :
    read.run site =
      match (readVectors d.toNat table.toNat count.toNat 0 0).run site with
      | (.ok (.ok n), after) =>
        (do Call.store 4 result.toNat n; return .success : Call Errno).run after
      | (.ok (.error errno), after) => (.ok errno, after)
      | (.error e, after) => (.error e, after) := by
  rw [read, Call.run_word_bind (by rw [passed]; rfl), Call.run_word_bind (by rw [passed]; rfl),
    Call.run_word_bind (by rw [passed]; rfl), Call.run_word_bind (by rw [passed]; rfl), run_bind]
  rcases (readVectors d.toNat table.toNat count.toNat 0 0).run site with
    ⟨(e | errno | n), after⟩ <;> rfl

/-- An empty vector is passed over. -/
theorem run_readVectors_empty {d table index left done address : Nat}
    (looked : (vector table index).run site = (.ok (address, 0), site)) :
    (readVectors d table (left + 1) index done).run site =
      (readVectors d table left (index + 1) done).run site := by
  rw [readVectors, run_bind, looked]
  rfl

/-- A reading that stops is no success. -/
theorem readVectors_ne (d table left index done : Nat) :
    Obeys (fun _ : Site => True) (readVectors d table left index done) (· ≠ .error .success) := by
  have any {α : Type} (x : Call α) : Obeys (fun _ : Site => True) x fun _ => True :=
    fun _ _ => ⟨trivial, fun _ _ => trivial⟩
  induction left generalizing index done with
  | zero => exact Obeys.pure nofun
  | succ left ih =>
    refine (any _).bind fun range _ => Obeys.ite (fun _ => ih _ _) fun _ => ?_
    refine (any _).bind fun process _ => ?_
    cases process.file? d with
    | none => exact Obeys.pure nofun
    | some file =>
      refine (any _).bind fun _ _ => (any _).bind fun outcome _ => ?_
      cases outcome with
      | error e => exact Obeys.pure fun same => e.errno_ne_success (by simpa using same)
      | ok bytes =>
        exact (any _).bind fun _ _ => Obeys.ite (fun _ => Obeys.pure nofun) fun _ => ih _ _

/-- **Reading succeeds if all vectors are read** and there is room for the number of bytes. It
leaves what its vectors leave, but for memory. -/
theorem success_read_iff {d table count result : UInt32} {after : Site}
    {outcome : Except CallError (Except Errno Nat)}
    (passed : site.arguments = [.i32 d, .i32 table, .i32 count, .i32 result])
    (ran : (readVectors d.toNat table.toNat count.toNat 0 0).run site = (outcome, after)) :
    ((read.run site).1 = .ok .success ↔
      (∃ n, outcome = .ok (.ok n)) ∧ after.memory.Holds result.toNat 4) ∧
      ∃ memory, (read.run site).2 = { after with memory := memory } := by
  have ne := (readVectors_ne d.toNat table.toNat count.toNat 0 0 site trivial).2
  rw [ran] at ne
  rw [run_read passed, ran]
  rcases outcome with e | errno | n
  · exact ⟨iff_of_false nofun fun ⟨⟨n, counted⟩, _⟩ => (by cases counted), _, rfl⟩
  · refine ⟨iff_of_false (fun success => ?_) ?_, _, rfl⟩
    · exact ne _ rfl (congrArg _ (Except.ok.inj success))
    · exact fun ⟨⟨n, counted⟩, _⟩ => (by cases counted)
  · refine ⟨ok_store_return_iff.trans ?_, site_store_return _ _ _ _ _⟩
    exact ⟨fun both => ⟨⟨n, rfl⟩, both.1⟩, fun both => ⟨both.2, rfl⟩⟩

/-- Reading fills the vector of an index and goes on behind it. -/
def Fills (d table index : Nat) (site after : Site) : Prop :=
  ∃ address length, (vector table index).run site = (.ok (address, length), site) ∧
    (readVectors d table 1 index 0).run site = (.ok (.ok length), after)

/-- Reading vectors from one index on comes to another: all vectors before it are filled. -/
inductive Reaches (d table : Nat) : Nat → Site → Nat → Site → Prop where
  | here (index : Nat) (site : Site) : Reaches d table index site index site
  | next {index i : Nat} {site mid after : Site} : Fills d table index site mid →
      Reaches d table (index + 1) mid i after → Reaches d table index site i after

theorem Reaches.le {d table index i : Nat} {after : Site} (h : Reaches d table index site i after) :
    index ≤ i := by
  induction h with
  | here index site => exact Nat.le_refl index
  | next fills later ih => exact Nat.le_of_succ_le ih

/-- Reading into a vector that is not empty succeeds only if its descriptor is open and the vector
is in memory. -/
theorem readable_of_readVectors {d table left index done n address length : Nat}
    (looked : (vector table index).run site = (.ok (address, length), site)) (wanted : length ≠ 0)
    (success : ((readVectors d table (left + 1) index done).run site).1 = .ok (.ok n)) :
    ∃ file, site.process.file? d = some file ∧ site.memory.Holds address length := by
  have process : Call.process.run site = (.ok site.process, site) := rfl
  rw [readVectors, run_bind, looked] at success
  dsimp only at success
  rw [if_neg wanted, run_bind, process] at success
  dsimp only at success
  cases opened : site.process.file? d with
  | none =>
    rw [opened] at success
    cases success
  | some file =>
    rw [opened] at success
    exact ⟨file, rfl, ((Call.ok_bind_iff (Call.run_range _ _ _)).mp success).1⟩

/-- **A vector that is filled leaves those behind it to be read**, in memory of the same size. -/
theorem Fills.rest {d table index : Nat} {after : Site} (fills : Fills d table index site after)
    (left done : Nat) : after.memory.size = site.memory.size ∧ ∃ done',
      (readVectors d table (left + 1) index done).run site =
        (readVectors d table left (index + 1) done').run after := by
  obtain ⟨address, length, looked, filled⟩ := fills
  by_cases empty : length = 0
  · subst empty
    rw [run_readVectors_empty looked] at filled
    obtain ⟨-, rfl⟩ := Prod.mk.inj filled
    exact ⟨rfl, done, run_readVectors_empty looked⟩
  · obtain ⟨file, opened, inside⟩ :=
      readable_of_readVectors looked empty (congrArg Prod.fst filled)
    rw [run_readVectors looked empty opened inside]
    rw [run_readVectors looked empty opened inside] at filled
    have size := Reading.size_perform ⟨site.world, site.memory, address, length, inside⟩ file
    revert filled size
    obtain ⟨⟨outcome, memory, world⟩, file'⟩ :=
      Reading.perform ⟨site.world, site.memory, address, length, inside⟩ file
    intro filled size
    dsimp only at filled size ⊢
    cases outcome with
    | error e => cases filled
    | ok n =>
      dsimp only at filled ⊢
      by_cases short : n < length
      · rw [if_pos short] at filled
        have full : 0 + n = length := by simpa using congrArg Prod.fst filled
        omega
      · rw [if_neg short] at filled ⊢
        obtain ⟨-, rfl⟩ := Prod.mk.inj filled
        exact ⟨size, _, rfl⟩

/-- **Vectors that reading comes to have their entries in memory**, unless the reading fails. -/
theorem holds_of_readVectors {d table index i left done total : Nat} {mid : Site}
    (reached : Reaches d table index site i mid) (most : site.memory.size ≤ maxWord + 1)
    (lt : i < index + left)
    (success : ((readVectors d table left index done).run site).1 = .ok (.ok total)) :
    site.memory.Holds (table + 8 * i) 8 := by
  induction reached generalizing left done with
  | here index site =>
    obtain ⟨left, rfl⟩ : ∃ more, left = more + 1 := ⟨left - 1, by omega⟩
    exact ((ok_vector_iff most).mp success).1
  | @next index i site mid after fills reached ih =>
    cases left with
    | zero => exact absurd reached.le (by omega)
    | succ left =>
      obtain ⟨size, done', run⟩ := fills.rest left done
      rw [run] at success
      have held := ih (by rwa [size]) (by omega) success
      rwa [Memory.Holds, size] at held

/-! ## What a success tells -/

section Success

variable {d table count result : UInt32} (most : site.memory.size ≤ maxWord + 1)
include most

theorem holds_of_directoryGet (passed : site.arguments = [.i32 d, .i32 result])
    (success : (directoryGet.run site).1 = .ok .success) : site.memory.Holds result.toNat 8 := by
  rw [directoryGet, Call.run_word_bind (by rw [passed]; rfl),
    Call.run_word_bind (by rw [passed]; rfl)] at success
  cases listed : directories.lookup d.toNat with
  | none =>
    rw [listed] at success
    cases success
  | some name =>
    rw [listed, Call.ok_bind_iff (Call.run_store _ _ _ _),
      Call.ok_bind_iff (Call.run_store _ _ _ _)] at success
    have stopped : site.memory.Holds (min (result.toNat + 4) maxWord) 4 := by
      simpa only [Memory.Holds, Memory.size_overwrite, satAdd] using success.2.1
    have whole : site.memory.Holds (result.toNat + 4) 4 :=
      (Memory.holds_stopped_iff most (by decide)).mp stopped
    exact whole

theorem holds_of_read (passed : site.arguments = [.i32 d, .i32 table, .i32 count, .i32 result])
    (success : (read.run site).1 = .ok .success) {i : Nat} {mid : Site} (lt : i < count.toNat)
    (reached : Reaches d.toNat table.toNat 0 site i mid) :
    site.memory.Holds (table.toNat + 8 * i) 8 := by
  obtain ⟨⟨n, done⟩, -⟩ := (success_read_iff passed rfl).1.mp success
  exact holds_of_readVectors reached most (by omega) done

theorem holds_of_write (passed : site.arguments = [.i32 d, .i32 table, .i32 count, .i32 result])
    (success : (write.run site).1 = .ok .success) {i : Nat} (lt : i < count.toNat) :
    site.memory.Holds (table.toNat + 8 * i) 8 := by
  obtain ⟨⟨n, done⟩, -⟩ := (success_write_iff passed rfl).1.mp success
  exact holds_of_writeVectors most done (Nat.zero_le i) (by omega)

end Success

/-! ## All system calls that compute addresses -/

/-- The system calls that compute addresses, with their arguments. -/
inductive Addressing where
  | arguments (slots buffer : UInt32)
  | directoryGet (descriptor result : UInt32)
  | descriptorStatus (descriptor result : UInt32)
  | pathStatus (directory flags path length result : UInt32)
  | read (descriptor table count result : UInt32)
  | write (descriptor table count result : UInt32)

namespace Addressing

/-- The system call. -/
def call : Addressing → Call Errno
  | arguments _ _ => Syscall.arguments
  | directoryGet _ _ => Syscall.directoryGet
  | descriptorStatus _ _ => Syscall.descriptorStatus
  | pathStatus _ _ _ _ _ => Syscall.pathStatus
  | read _ _ _ _ => Syscall.read
  | write _ _ _ _ => Syscall.write

/-- The arguments that it is passed. -/
def passed : Addressing → List Wasm.Value
  | arguments slots buffer => [.i32 slots, .i32 buffer]
  | directoryGet descriptor result => [.i32 descriptor, .i32 result]
  | descriptorStatus descriptor result => [.i32 descriptor, .i32 result]
  | pathStatus directory flags path length result =>
    [.i32 directory, .i32 flags, .i32 path, .i32 length, .i32 result]
  | read descriptor table count result => [.i32 descriptor, .i32 table, .i32 count, .i32 result]
  | write descriptor table count result => [.i32 descriptor, .i32 table, .i32 count, .i32 result]

/-- What a system call answers its guest. -/
def answer (c : Addressing) (site : Site) : Except CallError UInt32 :=
  ((answered c.call).run (site.passing c.passed)).1

/-- A range that a system call has to write or read, at its exact address. -/
inductive Needs (site : Site) : Addressing → Nat → Nat → Prop where
  /-- The address of an argument. -/
  | slot {slots buffer : UInt32} {i : Nat} : i < site.process.arguments.length →
      Needs site (arguments slots buffer) (slots.toNat + 4 * i) 4
  /-- An argument with its NUL, behind the arguments before it. -/
  | text {slots buffer : UInt32} {before : List String} {text : String} {after : List String} :
      site.process.arguments = before ++ text :: after →
      Needs site (arguments slots buffer) (buffer.toNat + argumentsSize before)
        (text.utf8ByteSize + 1)
  /-- The kind of a directory and the length of its name. -/
  | directory {descriptor result : UInt32} :
      Needs site (directoryGet descriptor result) result.toNat 8
  | descriptor {descriptor result : UInt32} :
      Needs site (descriptorStatus descriptor result) result.toNat 24
  | path {directory flags path length result : UInt32} :
      Needs site (pathStatus directory flags path length result) result.toNat 64
  /-- The entry of a vector that reading comes to. -/
  | readEntry {descriptor table count result : UInt32} {i : Nat} {mid : Site} : i < count.toNat →
      Reaches descriptor.toNat table.toNat 0
        (site.passing (read descriptor table count result).passed) i mid →
      Needs site (read descriptor table count result) (table.toNat + 8 * i) 8
  /-- The entry of a vector, all of which are written. -/
  | writeEntry {descriptor table count result : UInt32} {i : Nat} : i < count.toNat →
      Needs site (write descriptor table count result) (table.toNat + 8 * i) 8

/-- **A success tells that all that was needed is in memory**, of all but the arguments. -/
theorem Needs.holds {c : Addressing} {offset length : Nat} (needs : Needs site c offset length)
    (most : site.memory.size ≤ maxWord + 1)
    (success : (c.call.run (site.passing c.passed)).1 = .ok .success)
    (other : ∀ slots buffer, c ≠ arguments slots buffer) : site.memory.Holds offset length := by
  -- arguments are passed beside memory
  have most : (site.passing c.passed).memory.size ≤ maxWord + 1 := most
  change (site.passing c.passed).memory.Holds offset length
  cases needs with
  | slot _ => exact absurd rfl (other _ _)
  | text _ => exact absurd rfl (other _ _)
  | directory => exact holds_of_directoryGet most rfl success
  | descriptor =>
    rw [call, Syscall.descriptorStatus, Call.run_word_bind rfl, Call.run_word_bind rfl] at success
    exact ((Call.ok_bind_iff (Call.run_fill _ _ _ _)).mp success).1
  | path =>
    rw [call, Syscall.pathStatus, Call.bytes, bind_assoc, Call.run_word_bind rfl, bind_assoc,
      Call.run_word_bind rfl, Call.ok_bind_iff (Call.run_slice _ _ _),
      Call.run_word_bind rfl] at success
    exact ((Call.ok_bind_iff (Call.run_fill _ _ _ _)).mp success.2).1
  | readEntry lt reached => exact holds_of_read most rfl success lt reached
  | writeEntry lt => exact holds_of_write most rfl success lt

/-- The arguments are handed over if there is room for them where their addresses stop. -/
theorem answer_arguments_iff (most : site.memory.size ≤ maxWord + 1) (slots buffer : UInt32) :
    (arguments slots buffer).answer site = .ok Errno.success.code ↔
      Fit site.memory.size site.process.arguments slots.toNat 0 buffer.toNat := by
  have word : min buffer.toNat maxWord = buffer.toNat :=
    Nat.min_eq_left (Nat.le_of_lt_succ buffer.toNat_lt)
  have stored := @ok_storeArguments_iff (site.passing (arguments slots buffer).passed)
    site.process.arguments slots.toNat 0 buffer.toNat most
  rw [word] at stored
  refine Iff.trans ?_ stored
  rw [answer, answered_success_iff, call, passed, run_arguments]
  -- the call answers what the writing comes to
  obtain ⟨outcome, after⟩ := (storeArguments slots.toNat site.process.arguments 0 buffer.toNat).run
    (site.passing [.i32 slots, .i32 buffer])
  cases outcome with
  | ok => exact iff_of_true rfl rfl
  | error e => exact iff_of_false nofun nofun

/-- **When a system call hides a fault.** Memory has no more than 2^32 bytes, and a system call
succeeds although something that it has to write or read is not in memory. Then it is the one for
the arguments, and this is when it happens: memory has all of the 2^32 bytes, the first 2^30
addresses of the table fit in, each argument fits in behind its address, which is its place or the
last byte of memory, but there are more addresses than those or the arguments with their NULs pass
the end. An address that belongs behind the end is written over one at the front of the table then,
and a NUL that belongs there to the last byte, over what stands there. -/
theorem fault_hidden_iff (site : Site) (c : Addressing) (most : site.memory.size ≤ maxWord + 1) :
    (c.answer site = .ok Errno.success.code ∧
      ∃ offset length, Needs site c offset length ∧ ¬ site.memory.Holds offset length) ↔
    ∃ slots buffer, c = arguments slots buffer ∧ site.memory.size = maxWord + 1 ∧
      site.memory.Holds slots.toNat (4 * min site.process.arguments.length (2 ^ 30)) ∧
      (∀ before text after, site.process.arguments = before ++ text :: after →
        site.memory.Holds (min (buffer.toNat + argumentsSize before) maxWord) text.utf8ByteSize) ∧
      (2 ^ 30 < site.process.arguments.length ∨
        maxWord + 1 < buffer.toNat + argumentsSize site.process.arguments) := by
  have word (n : UInt32) : n.toNat ≤ maxWord := Nat.le_of_lt_succ n.toNat_lt
  constructor
  · rintro ⟨success, offset, length, needs, outside⟩
    by_cases other : ∀ slots buffer, c ≠ arguments slots buffer
    · exact absurd (needs.holds most (answered_success_iff.mp success) other) outside
    · push Not at other
      obtain ⟨slots, buffer, rfl⟩ := other
      have fit := (answer_arguments_iff most slots buffer).mp success
      refine ⟨slots, buffer, rfl, (fit_hidden_iff most (word buffer)).mp ⟨fit, ?_⟩⟩
      cases needs with
      | slot lt => exact .inl ⟨_, lt, Nat.lt_of_not_le outside⟩
      | @text _ _ before text after split =>
        exact .inr ⟨before, text, after, split, Nat.lt_of_not_le outside⟩
  · rintro ⟨slots, buffer, rfl, hidden⟩
    obtain ⟨fit, ⟨i, lt, outside⟩ | ⟨before, text, after, split, outside⟩⟩ :=
      (fit_hidden_iff most (word buffer)).mpr hidden
    · exact ⟨(answer_arguments_iff most slots buffer).mpr fit, _, _, .slot lt,
        Nat.not_le_of_lt outside⟩
    · exact ⟨(answer_arguments_iff most slots buffer).mpr fit, _, _, .text split,
        Nat.not_le_of_lt outside⟩

/-- A process with one argument, and all the memory that words can address. -/
def full : Site :=
  { listed with
    memory := .zeros (maxWord + 1)
    process := { Process.unbound with arguments := ["ab"] } }

/-- The argument is put over the last two bytes, and its NUL over the last. -/
theorem fault_hidden_full : (arguments 0 0xfffffffe).answer full = .ok Errno.success.code ∧
    ∃ offset length, Needs full (arguments 0 0xfffffffe) offset length ∧
      ¬ full.memory.Holds offset length := by
  have size : full.memory.size = maxWord + 1 := rfl
  refine (fault_hidden_iff full _ (Nat.le_of_eq size)).mpr
    ⟨_, _, rfl, size, ?_, ?_, .inr (by decide)⟩
  · rw [Memory.Holds, size]
    decide
  · intro before text after split
    have single : ["ab"] = before ++ text :: after := split
    obtain ⟨rfl, same⟩ | ⟨-, never⟩ := List.singleton_eq_append_iff.mp single
    · obtain ⟨rfl, rfl⟩ := List.cons.inj same
      rw [Memory.Holds, size]
      decide
    · cases never

end Addressing

end Syscall

end Posix

end GuestHost
