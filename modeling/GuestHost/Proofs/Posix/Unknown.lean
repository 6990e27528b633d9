import GuestHost.Proofs.Posix.Addresses
/-!
# Descriptors that are not open

The system calls on a descriptor come to look it up at different points: the one that closes it at
once, the one that writes at each vector, the one that reads at each vector that is not empty, and
those that seek a position and list a directory not at all. A descriptor that is not open is
rejected where it is looked up; otherwise it goes unnoticed, and `unknown_accepted_iff` tells for
which arguments it does. Either way no descriptor and no buffer changes.
-/

namespace GuestHost

open Stateful

/-- The rest of a call behind a 64-bit argument. -/
theorem Call.run_wide_bind {β : Type} {f : Nat → Call β} {site : Site} {index : Nat} {word : UInt64}
    (passed : site.arguments[index]? = some (.i64 word)) :
    (Call.wide index >>= f).run site = (f word.toNat).run site := by
  simp only [Call.wide, Call.argument, run_bind, run_get, passed]
  rfl

namespace Posix

namespace Syscall

variable {site : Site} {d table : Nat}

/-! ## Vectors of a descriptor that is not open -/

/-- The vector that a table has at an index is in memory and empty. -/
def Idle (m : Memory) (table index : Nat) : Prop :=
  m.Holds (table + 8 * index) 8 ∧ (vectorAt m table index).2 = 0

/-- What the vectors of a descriptor that is not open come to: they pass, the descriptor is looked
up and not found, or one of them is not in memory. -/
inductive Ends (passes : Prop) : Except CallError (Except Errno Nat) → Prop where
  | passed (n : Nat) : passes → Ends passes (.ok (.ok n))
  | rejected : ¬ passes → Ends passes (.ok (.error .badDescriptor))
  | outside (e : Memory.OutOfBounds) : ¬ passes → Ends passes (.error (.outOfBounds e))

theorem Ends.congr {p q : Prop} {outcome : Except CallError (Except Errno Nat)}
    (ends : Ends p outcome) (same : p ↔ q) : Ends q outcome := by
  rwa [← propext same]

/-- **Reading from a descriptor that is not open** passes over vectors that are idle and ends at the
first that is not. -/
theorem run_readVectors_unknown {index left done : Nat} (most : site.memory.size ≤ maxWord + 1)
    (unknown : site.process.file? d = none) :
    ∃ outcome, (readVectors d table left index done).run site = (outcome, site) ∧
      Ends (∀ i, index ≤ i → i < index + left → Idle site.memory table i) outcome := by
  induction left generalizing index with
  | zero => exact ⟨_, rfl, .passed done fun i le lt => by omega⟩
  | succ left ih =>
    by_cases held : site.memory.Holds (table + 8 * index) 8
    · have looked := run_vector most held
      by_cases empty : (vectorAt site.memory table index).2 = 0
      · obtain ⟨outcome, run, ends⟩ := @ih (index + 1)
        have looked' : (vector table index).run site =
            (.ok ((vectorAt site.memory table index).1, 0), site) := by
          rw [looked, ← empty]
        refine ⟨outcome, (run_readVectors_empty looked').trans run, ends.congr ?_⟩
        refine ⟨fun later i le lt => ?_, fun all i le lt => all i (by omega) (by omega)⟩
        rcases Nat.eq_or_lt_of_le le with rfl | behind
        · exact ⟨held, empty⟩
        · exact later i behind (by omega)
      · -- this vector is to be filled, and the descriptor is looked up
        have process : Call.process.run site = (.ok site.process, site) := rfl
        refine ⟨_, ?_, .rejected fun all => empty (all index (Nat.le_refl _) (by omega)).2⟩
        rw [readVectors, run_bind, looked]
        dsimp only
        rw [if_neg empty, run_bind, process]
        dsimp only
        rw [unknown]
        rfl
    · obtain ⟨e, missed⟩ := run_vector_outside most held
      refine ⟨_, ?_, .outside e fun all => held (all index (Nat.le_refl _) (by omega)).1⟩
      rw [readVectors, run_bind, missed]

/-- Writing any vectors to a descriptor that is not open fails. -/
theorem run_writeVectors_unknown {left index written : Nat}
    (unknown : site.process.file? d = none) :
    ∃ outcome heard, heard.registry = site.world.registry ∧
      (writeVectors d table left index written).run site =
        (outcome, { site with world := heard }) ∧ Ends (left = 0) outcome := by
  cases left with
  | zero => exact ⟨_, _, rfl, rfl, .passed written rfl⟩
  | succ left =>
    obtain ⟨e, heard, noted, run⟩ := run_writeVectors_succ d table left index written site
    rw [unknown] at run
    cases fetched : vectorBytes site.memory table index with
    | none =>
      rw [fetched] at run
      exact ⟨_, _, rfl, run, .outside e nofun⟩
    | some bytes =>
      rw [fetched] at run
      exact ⟨_, heard, registry_noted noted, run, .rejected nofun⟩

/-! ## What the calls answer -/

section Answers

/-- Under a condition a call answers that it succeeded, otherwise that the descriptor is bad or that
an address is. The descriptors and the buffers stay as they are. -/
structure Answers (call : Call Errno) (site : Site) (condition : Prop) : Prop where
  accepts : condition → ((answered call).run site).1 = .ok Errno.success.code
  rejects : ¬ condition → ((answered call).run site).1 = .ok Errno.badDescriptor.code ∨
    ((answered call).run site).1 = .ok Errno.fault.code
  process_eq : ((answered call).run site).2.process = site.process
  registry_eq : ((answered call).run site).2.world.registry = site.world.registry

variable {call call' : Call Errno} {after : Site} {condition : Prop}

theorem Answers.congr {condition' : Prop} (answers : Answers call site condition)
    (same : condition ↔ condition') : Answers call site condition' := by
  rwa [← propext same]

/-- A call that has come to the rest of its work answers as the rest does. -/
theorem Answers.of_rest (answers : Answers call' after condition)
    (run : call.run site = call'.run after) (process : after.process = site.process)
    (registry : after.world.registry = site.world.registry) : Answers call site condition := by
  have same : (answered call).run site = (answered call').run after := by
    unfold answered
    rw [run_tryCatch, run_tryCatch, run_bind, run_bind, run]
  obtain ⟨accepts, rejects, process', registry'⟩ := answers
  refine ⟨?_, ?_, ?_, ?_⟩ <;> rw [same]
  · exact accepts
  · exact rejects
  · exact process'.trans process
  · exact registry'.trans registry

theorem answers_badDescriptor (no : ¬ condition) :
    Answers (pure .badDescriptor) site condition where
  accepts yes := absurd yes no
  rejects _ := .inl rfl
  process_eq := rfl
  registry_eq := rfl

theorem answers_outside (e : Memory.OutOfBounds) (no : ¬ condition) :
    Answers (Call.fail (.outOfBounds e)) site condition where
  accepts yes := absurd yes no
  rejects _ := .inr rfl
  process_eq := rfl
  registry_eq := rfl

/-- A word that is stored at the end has to be in memory. -/
theorem answers_store (width offset value : Nat) (site : Site) :
    Answers (do Call.store width offset value; return .success) site
      (site.memory.Holds offset width) := by
  have stored := run_store_return width offset value .success site
  by_cases room : site.memory.Holds offset width
  · rw [if_pos room] at stored
    have run := run_answered_of_ok stored
    refine ⟨fun _ => ?_, fun no => absurd room no, ?_, ?_⟩ <;> rw [run]
  · rw [if_neg room] at stored
    exact (answers_outside _ room).of_rest stored rfl rfl

theorem answers_read {d table count result : UInt32} (most : site.memory.size ≤ maxWord + 1)
    (passed : site.arguments = [.i32 d, .i32 table, .i32 count, .i32 result])
    (unknown : site.process.file? d.toNat = none) :
    Answers read site
      ((∀ i < count.toNat, Idle site.memory table.toNat i) ∧ site.memory.Holds result.toNat 4) := by
  obtain ⟨outcome, run, ends⟩ := @run_readVectors_unknown site d.toNat table.toNat 0 count.toNat 0
    most unknown
  have start := run_read passed
  rw [run] at start
  have all : (∀ i, 0 ≤ i → i < 0 + count.toNat → Idle site.memory table.toNat i) ↔
      ∀ i < count.toNat, Idle site.memory table.toNat i := by
    simp only [Nat.zero_le, true_implies, Nat.zero_add]
  cases ends.congr all with
  | passed n idle =>
    exact ((answers_store _ _ _ _).of_rest start rfl rfl).congr (and_iff_right idle).symm
  | rejected no => exact (answers_badDescriptor (no ·.1)).of_rest start rfl rfl
  | outside e no => exact (answers_outside e (no ·.1)).of_rest start rfl rfl

theorem answers_write {d table count result : UInt32}
    (passed : site.arguments = [.i32 d, .i32 table, .i32 count, .i32 result])
    (unknown : site.process.file? d.toNat = none) :
    Answers write site (count.toNat = 0 ∧ site.memory.Holds result.toNat 4) := by
  obtain ⟨outcome, heard, registry, run, ends⟩ :=
    @run_writeVectors_unknown site d.toNat table.toNat count.toNat 0 0 unknown
  have start := run_write passed
  rw [run] at start
  cases ends with
  | passed n none =>
    exact ((answers_store _ _ _ _).of_rest start rfl registry).congr (and_iff_right none).symm
  | rejected no =>
    -- no bytes are counted before the error is reported
    dsimp only at start
    rw [run_store_return] at start
    split at start
    · exact (answers_badDescriptor (no ·.1)).of_rest start rfl registry
    · exact (answers_outside _ (no ·.1)).of_rest start rfl registry
  | outside e no => exact (answers_outside e (no ·.1)).of_rest start rfl registry

theorem answers_seek {d whence result : UInt32} {offset : UInt64}
    (passed : site.arguments = [.i32 d, .i64 offset, .i32 whence, .i32 result]) :
    Answers seek site (site.memory.Holds result.toNat 8) := by
  refine (answers_store 8 result.toNat offset.toNat site).of_rest ?_ rfl rfl
  rw [seek, Call.run_wide_bind (by rw [passed]; rfl), Call.run_word_bind (by rw [passed]; rfl)]

theorem answers_readDirectory {d buffer length result : UInt32} {cookie : UInt64}
    (passed : site.arguments = [.i32 d, .i32 buffer, .i32 length, .i64 cookie, .i32 result]) :
    Answers readDirectory site (site.memory.Holds result.toNat 4) := by
  refine (answers_store 4 result.toNat 0 site).of_rest ?_ rfl rfl
  rw [readDirectory, Call.run_word_bind (by rw [passed]; rfl)]

theorem answers_close {d : UInt32} (passed : site.arguments = [.i32 d])
    (unknown : site.process.file? d.toNat = none) : Answers close site False := by
  have process : Call.process.run site = (.ok site.process, site) := rfl
  refine (answers_badDescriptor id).of_rest ?_ rfl rfl
  rw [close, Call.run_word_bind (by rw [passed]; rfl), run_bind, process]
  dsimp only
  rw [unknown]

end Answers

/-! ## All system calls on a descriptor -/

/-- The system calls on a descriptor, with their other arguments. -/
inductive Operation where
  | read (table count result : UInt32)
  | write (table count result : UInt32)
  | seek (offset : UInt64) (whence result : UInt32)
  | close
  | readDirectory (buffer length : UInt32) (cookie : UInt64) (result : UInt32)

namespace Operation

/-- The system call. -/
def call : Operation → Call Errno
  | read _ _ _ => Syscall.read
  | write _ _ _ => Syscall.write
  | seek _ _ _ => Syscall.seek
  | close => Syscall.close
  | readDirectory _ _ _ _ => Syscall.readDirectory

/-- The arguments that it is passed for a descriptor. -/
def passed (d : UInt32) : Operation → List Wasm.Value
  | read table count result => [.i32 d, .i32 table, .i32 count, .i32 result]
  | write table count result => [.i32 d, .i32 table, .i32 count, .i32 result]
  | seek offset whence result => [.i32 d, .i64 offset, .i32 whence, .i32 result]
  | close => [.i32 d]
  | readDirectory buffer length cookie result =>
    [.i32 d, .i32 buffer, .i32 length, .i64 cookie, .i32 result]

/-- What a guest is answered, and what it finds then. -/
def perform (o : Operation) (d : UInt32) (site : Site) : Except CallError UInt32 × Site :=
  (answered o.call).run (site.passing (o.passed d))

/-- The call succeeds without having looked up its descriptor: no vector is to be filled or written,
or the call has no use for the descriptor, and what it answers fits in. -/
def Overlooks (m : Memory) : Operation → Prop
  | read table count result => (∀ i < count.toNat, Idle m table.toNat i) ∧ m.Holds result.toNat 4
  | write _ count result => count.toNat = 0 ∧ m.Holds result.toNat 4
  | seek _ _ result => m.Holds result.toNat 8
  | close => False
  | readDirectory _ _ _ result => m.Holds result.toNat 4

theorem answers (o : Operation) {d : UInt32} (most : site.memory.size ≤ maxWord + 1)
    (unknown : site.process.file? d.toNat = none) :
    Answers o.call (site.passing (o.passed d)) (o.Overlooks site.memory) := by
  have most : (site.passing (o.passed d)).memory.size ≤ maxWord + 1 := most
  have unknown : (site.passing (o.passed d)).process.file? d.toNat = none := unknown
  cases o with
  | read table count result => exact answers_read most rfl unknown
  | write table count result => exact answers_write rfl unknown
  | seek offset whence result => exact answers_seek rfl
  | close => exact answers_close rfl unknown
  | readDirectory buffer length cookie result => exact answers_readDirectory rfl

/-- **When a descriptor that is not open is accepted.** A system call on it succeeds exactly when it
overlooks the descriptor: reading does if all vectors are empty, writing if there are no vectors,
seeking and listing always do, as far as memory has what they go through and room for what they
answer, and closing never does. Otherwise the descriptor or an address is reported to be bad. No
descriptor and no buffer changes either way. -/
theorem unknown_accepted_iff (o : Operation) (d : UInt32) (site : Site)
    (most : site.memory.size ≤ maxWord + 1) (unknown : site.process.isOpen d.toNat = false) :
    ((o.perform d site).1 = .ok Errno.success.code ↔ o.Overlooks site.memory) ∧
      ((o.perform d site).1 ≠ .ok Errno.success.code →
        (o.perform d site).1 = .ok Errno.badDescriptor.code ∨
          (o.perform d site).1 = .ok Errno.fault.code) ∧
      (o.perform d site).2.process = site.process ∧
      (o.perform d site).2.world.registry = site.world.registry := by
  have nowhere : site.process.file? d.toNat = none := by
    rw [Option.eq_none_iff_forall_ne_some]
    intro file opened
    exact absurd (Process.isOpen_iff.mpr ⟨file, opened⟩) (by rw [unknown]; decide)
  obtain ⟨accepts, rejects, process, registry⟩ := o.answers most nowhere
  refine ⟨⟨fun success => ?_, accepts⟩, fun failure => rejects (failure ∘ accepts), process,
    registry⟩
  by_contra no
  -- the codes of the two failures are not that of a success
  rcases rejects no with failure | failure
  · exact absurd (Except.ok.inj (success.symm.trans failure)) (by decide)
  · exact absurd (Except.ok.inj (success.symm.trans failure)) (by decide)

/-- A list of two empty vectors is read from a descriptor that nobody opened. -/
theorem unknown_accepted_empty : ((read 0 2 16).perform 99 listed).1 = .ok Errno.success.code := by
  refine (unknown_accepted_iff (read 0 2 16) 99 listed (by decide) rfl).1.mpr ⟨?_, by decide⟩
  intro i lt
  exact ⟨by decide +revert, by decide +revert⟩

end Operation

end Syscall

end Posix

end GuestHost
