import GuestHost.Proofs.Posix.Addresses
import GuestHost.Proofs.Sandbox.Processes
/-!
# Openings that fail

Opening a path decodes it, looks for the file that it stands for, opens the file and stores the
number of the new descriptor. Whatever fails before leaves the descriptors as they are; if there is
no room for the number, the file has been opened by then, under a number that nobody is told. That
is the only opening that fails and leaves a trace, `failed_opening_iff`. The number that is next in a
process that is `Reachable` tells how many descriptors have been opened, up to multiples of 2^32,
`Process.Reachable.next_eq`, and as long as no number has come again, it is not open.
-/

namespace GuestHost

open Stateful

/-! ## Processes that guests come to have -/

namespace Posix.Process

variable {p q : Process} {d : Nat}

theorem Numbered.withFile (h : p.Numbered) (standard : d ≤ 2) (file : File) :
    (p.withFile d file).Numbered where
  first_le := h.first_le
  range e opened := by
    rcases (isOpen_withFile p d e file).mp opened with rfl | before
    · exact .inl standard
    · exact h.range e before

theorem Numbered.bind (h : p.Numbered) (registry : Exchange.Registry) (invocation : Invocation)
    (arguments : List String) : (p.bind registry invocation arguments).Numbered :=
  keeps_bind ⟨h.first_le, h.range⟩ (fun _ _ h => h.withFile (by decide) _)
    (fun _ _ h => h.withFile (by decide) _) (fun _ h => h.withFile (by decide) _) registry invocation

theorem next_bind (p : Process) (registry : Exchange.Registry) (invocation : Invocation)
    (arguments : List String) : (p.bind registry invocation arguments).next = p.next :=
  keeps_bind (I := fun q => q.next = p.next) rfl (fun _ _ => id) (fun _ _ => id) (fun _ => id)
    registry invocation

theorem next_start (p : Process) : p.start.next = p.next := by
  unfold start
  split <;> rfl

/-- The processes that guests come to have, and how many descriptors have been opened by then: they
are bound for an invocation, started, and changed by system calls only. -/
inductive Reachable : Nat → Process → Prop where
  | unbound : Reachable 0 .unbound
  | bound {opens : Nat} {p : Process} (registry : Exchange.Registry) (invocation : Invocation)
      (arguments : List String) :
      Reachable opens p → Reachable opens (p.bind registry invocation arguments)
  | started {opens : Nat} {p : Process} : Reachable opens p → Reachable opens p.start
  | called {opens : Nat} {named : String × Signature × Call Errno} (site : Site) :
      named ∈ Syscall.calls → Reachable opens site.process →
      Reachable (opens + site.process.opens (named.2.2.run site).2.process)
        (named.2.2.run site).2.process
  | exited {opens : Nat} (site : Site) : Reachable opens site.process →
      Reachable opens (Syscall.exit.run site).2.process

/-- **The next number tells how many descriptors have been opened**, up to multiples of 2^32. -/
theorem Reachable.next_eq {opens : Nat} (h : p.Reachable opens) :
    p.next = (firstOpened + opens) % 2 ^ 32 := by
  induction h with
  | unbound => rfl
  | bound registry invocation arguments _ ih => rw [next_bind, ih]
  | started _ ih => rw [next_start, ih]
  | called site listed _ ih =>
    have word : site.process.next < 2 ^ 32 := ih ▸ Nat.mod_lt _ (by decide)
    rw [(Syscall.becomes_calls _ listed site).next_opens word, ih, Nat.mod_add_mod, Nat.add_assoc]
  | exited site _ ih =>
    rcases Syscall.process_exit site with same | ⟨code, exited⟩
    · rw [same, ih]
    · rw [exited, ← ih]
      rfl

/-- **The descriptors of a guest are numbered on** until all numbers have been handed out. -/
theorem Reachable.numbered {opens : Nat} (h : p.Reachable opens)
    (few : firstOpened + opens < 2 ^ 32) : p.Numbered := by
  induction h with
  | unbound => exact fresh_unbound.numbered
  | bound registry invocation arguments _ ih => exact (ih few).bind registry invocation arguments
  | started _ ih => exact (ih few).start
  | called site listed before ih =>
    have next := before.next_eq
    have next' := (before.called site listed).next_eq
    exact (ih (by omega)).later ((Syscall.becomes_calls _ listed site).later (by omega))
  | exited site _ ih =>
    rcases Syscall.process_exit site with same | ⟨code, exited⟩
    · exact same ▸ ih few
    · exact exited ▸ ⟨(ih few).first_le, (ih few).range⟩

/-- The descriptors of two processes are the same, and so is the number that comes next. -/
structure Kept (p q : Process) : Prop where
  next_eq : q.next = p.next
  file?_eq : ∀ d, q.file? d = p.file? d

/-- Process `q` is `p` with the next descriptor for a file. -/
structure Opened (p : Process) (file : File) (q : Process) : Prop where
  next_eq : q.next = (p.next + 1) % 2 ^ 32
  file?_next : q.file? p.next = some file
  file?_eq : ∀ d, d ≠ p.next → q.file? d = p.file? d

theorem Kept.rfl : Kept p p := ⟨.refl _, fun _ => .refl _⟩

theorem Opened.not_kept {file : File} (h : p.Opened file q) : ¬ p.Kept q := by
  intro kept
  have next := h.next_eq.symm.trans kept.next_eq
  omega

theorem opened_openFile (p : Process) (file : File) : p.Opened file (p.openFile file).2 where
  next_eq := .refl _
  file?_next := (file?_withFile _ _ _ _).trans (if_pos (.refl _))
  file?_eq d other := (file?_withFile _ _ d file).trans (if_neg other)

end Posix.Process

/-! ## Texts in memory -/

/-- The text of a range, if memory holds it. -/
def Memory.textAt? (m : Memory) (offset length : Nat) : Option String :=
  if m.Holds offset length then Utf8.decode? (m.bytesAt offset length) else .none

theorem Call.run_string (offset length : Nat) (site : Site) :
    (Call.string offset length).run site =
      (match site.memory.textAt? offset length with
        | some text => .ok text
        | none => .error (if site.memory.Holds offset length then .recoverable .utf8
            else .outOfBounds ⟨offset, length⟩), site) := by
  unfold Call.string Memory.textAt?
  rw [run_bind, Call.run_slice]
  by_cases held : site.memory.Holds offset length
  · simp only [if_pos held]
    cases Utf8.decode? (site.memory.bytesAt offset length) <;> rfl
  · simp only [if_neg held]

namespace Posix

open Process

namespace Syscall

/-- The arguments of the system call that opens a path. -/
structure Opening where
  directory : UInt32
  lookup : UInt32
  path : UInt32
  length : UInt32
  flags : UInt32
  rights : UInt64
  inheriting : UInt64
  status : UInt32
  result : UInt32

namespace Opening

variable {o : Opening} {site : Site} {file : File}

/-- The arguments as they are passed. -/
def passed (o : Opening) : List Wasm.Value :=
  [.i32 o.directory, .i32 o.lookup, .i32 o.path, .i32 o.length, .i32 o.flags, .i64 o.rights,
    .i64 o.inheriting, .i32 o.status, .i32 o.result]

/-- What a guest is answered, and what it finds then. -/
def perform (o : Opening) (site : Site) : Except CallError UInt32 × Site :=
  (answered openPath).run (site.passing o.passed)

/-- The file that the path stands for. -/
def file? (o : Opening) (site : Site) : Option File :=
  (site.memory.textAt? o.path.toNat o.length.toNat).bind fun text =>
    (fileOf site.world site.invocation text).toOption

/-- What is left to do when the path has been decoded. -/
theorem run_openPath (o : Opening) (site : Site) : openPath.run (site.passing o.passed) =
    match site.memory.textAt? o.path.toNat o.length.toNat with
    | none => (.error (if site.memory.Holds o.path.toNat o.length.toNat then .recoverable .utf8
        else .outOfBounds ⟨o.path.toNat, o.length.toNat⟩), site.passing o.passed)
    | some text =>
      match fileOf site.world site.invocation text with
      | .error errno => (do Call.store 4 o.result.toNat 0; return errno : Call Errno).run
          (site.passing o.passed)
      | .ok file => (do Call.store 4 o.result.toNat site.process.next; return .success :
          Call Errno).run
            { site.passing o.passed with process := (site.process.openFile file).2 } := by
  have world : Call.world.run (site.passing o.passed) = (.ok site.world, site.passing o.passed) :=
    rfl
  have invocation : Call.invocation.run (site.passing o.passed) =
      (.ok site.invocation, site.passing o.passed) := rfl
  rw [openPath, Call.text, bind_assoc, Call.run_word_bind rfl, bind_assoc, Call.run_word_bind rfl,
    run_bind, Call.run_string]
  have memory : (site.passing o.passed).memory = site.memory := rfl
  rw [memory]
  cases site.memory.textAt? o.path.toNat o.length.toNat with
  | none => rfl
  | some text =>
    dsimp only
    rw [Call.run_word_bind rfl, run_bind, world]
    dsimp only
    rw [run_bind, invocation]
    dsimp only
    cases fileOf site.world site.invocation text <;> rfl

/-- A path that stands for no file is answered with an error number, and nothing but memory
changes. -/
theorem perform_of_none (missing : o.file? site = none) :
    ∃ errno memory, errno ≠ Errno.success ∧
      o.perform site = (.ok errno.code, { site.passing o.passed with memory := memory }) := by
  have run := o.run_openPath site
  unfold file? at missing
  cases decoded : site.memory.textAt? o.path.toNat o.length.toNat with
  | none =>
    rw [decoded] at run
    dsimp only at run
    by_cases held : site.memory.Holds o.path.toNat o.length.toNat
    · rw [if_pos held] at run
      exact ⟨.badDescriptor, _, nofun, run_answered_of_refused run⟩
    · rw [if_neg held] at run
      exact ⟨.fault, _, nofun, run_answered_of_outside run⟩
  | some text =>
    rw [decoded] at run
    rw [decoded, Option.bind_some] at missing
    obtain ⟨errno, nowhere⟩ : ∃ errno, fileOf site.world site.invocation text = .error errno := by
      revert missing
      cases fileOf site.world site.invocation text with
      | error errno => exact fun _ => ⟨errno, rfl⟩
      | ok file => exact fun found => nomatch found
    dsimp only at run
    rw [nowhere] at run
    dsimp only at run
    rw [run_store_return] at run
    by_cases room : (site.passing o.passed).memory.Holds o.result.toNat 4
    · rw [if_pos room] at run
      exact ⟨errno, _, fileOf_ne_success nowhere, run_answered_of_ok run⟩
    · rw [if_neg room] at run
      exact ⟨.fault, _, nofun, run_answered_of_outside run⟩

/-- **A file that a path stands for is opened**, be there room for the number of its descriptor or
not. -/
theorem perform_of_some (found : o.file? site = some file) :
    o.perform site =
      if site.memory.Holds o.result.toNat 4 then
        (.ok Errno.success.code, { site.passing o.passed with
          process := (site.process.openFile file).2
          memory := site.memory.overwrite o.result.toNat (Bytes.ofWord 4 site.process.next) })
      else
        (.ok Errno.fault.code, { site.passing o.passed with
          process := (site.process.openFile file).2 }) := by
  have run := o.run_openPath site
  obtain ⟨text, decoded, behind⟩ := Option.bind_eq_some_iff.mp found
  have stands := toOption_eq_some_iff.mp behind
  rw [decoded] at run
  dsimp only at run
  rw [stands] at run
  dsimp only at run
  rw [run_store_return] at run
  by_cases room : site.memory.Holds o.result.toNat 4
  · have room' : (site.passing o.passed).memory.Holds o.result.toNat 4 := room
    rw [if_pos room'] at run
    rw [if_pos room]
    exact run_answered_of_ok run
  · have room' : ¬ (site.passing o.passed).memory.Holds o.result.toNat 4 := room
    rw [if_neg room'] at run
    rw [if_neg room]
    exact run_answered_of_outside run

/-- **When an opening fails and yet opens something**, for a guest with a reachable process. A
success opens the next descriptor and no other, and its number is stored. A failure leaves the
descriptors and the next number as they are, unless the path stands for a file and there is no room
for the number: then the next descriptor is open all the same. The next descriptor was not open
before, as long as not all numbers have been handed out. -/
theorem failed_opening_iff (o : Opening) (site : Site) (opens : Nat)
    (reachable : site.process.Reachable opens) :
    (firstOpened + opens < 2 ^ 32 → site.process.file? site.process.next = none) ∧
    ((o.perform site).1 = .ok Errno.success.code →
      ∃ file, Opened site.process file (o.perform site).2.process ∧
        (o.perform site).2.memory.readWord 4 o.result.toNat = .ok site.process.next) ∧
    ((o.perform site).1 ≠ .ok Errno.success.code →
      (∃ errno : Errno, (o.perform site).1 = .ok errno.code) ∧
        (Kept site.process (o.perform site).2.process ∨
          ∃ file, Opened site.process file (o.perform site).2.process)) ∧
    (((o.perform site).1 ≠ .ok Errno.success.code ∧
        ¬ Kept site.process (o.perform site).2.process) ↔
      (∃ file, o.file? site = some file) ∧ ¬ site.memory.Holds o.result.toNat 4) := by
  have other {errno : Errno} (fails : errno ≠ .success) :
      (Except.ok errno.code : Except CallError UInt32) ≠ .ok Errno.success.code :=
    fun same => fails (Errno.code_injective (Except.ok.inj same))
  have word : site.process.next ≤ maxWord := by
    have next := reachable.next_eq
    simp only [maxWord]
    omega
  refine ⟨fun few => ?_, ?_⟩
  · rw [Option.eq_none_iff_forall_ne_some]
    exact fun file opened => (reachable.numbered few).next_not_open (isOpen_iff.mpr ⟨file, opened⟩)
  cases found : o.file? site with
  | none =>
    obtain ⟨errno, memory, fails, run⟩ := perform_of_none found
    rw [run]
    refine ⟨fun success => absurd success (other fails), fun _ => ⟨⟨errno, rfl⟩, .inl .rfl⟩,
      iff_of_false (fun both => both.2 .rfl) ?_⟩
    rintro ⟨⟨file, opened⟩, -⟩
    cases opened
  | some file =>
    have opened := opened_openFile site.process file
    have run := perform_of_some found
    by_cases room : site.memory.Holds o.result.toNat 4
    · rw [if_pos room] at run
      rw [run]
      exact ⟨fun _ => ⟨file, opened, Memory.readWord_overwrite room word⟩,
        fun failure => absurd rfl failure,
        iff_of_false (fun both => both.1 rfl) fun both => both.2 room⟩
    · rw [if_neg room] at run
      rw [run]
      have failure : (Except.ok Errno.fault.code : Except CallError UInt32) ≠
          .ok Errno.success.code := other (by decide)
      exact ⟨fun success => absurd success failure,
        fun _ => ⟨⟨.fault, rfl⟩, .inr ⟨file, opened⟩⟩,
        iff_of_true ⟨failure, opened.not_kept⟩ ⟨⟨file, rfl⟩, room⟩⟩

/-- A guest whose output is a buffer, with the path of the output in front of its memory. -/
def pathed : Site :=
  { listed with
    memory := (Memory.zeros 64).overwrite 0 (Utf8.encode "api://output")
    invocation := ((Context.top "opener" "run").withBuffers 0 1).toInvocation
    process := .unbound
    world := (World.fresh .offline 0).create.2 }

/-- The output is opened, and its number is to be stored behind the end of memory. -/
theorem failed_opening_behind :
    let o : Opening := ⟨3, 0, 0, 12, 0, 0, 0, 0, 64⟩
    (o.perform pathed).1 ≠ .ok Errno.success.code ∧
      ¬ Kept pathed.process (o.perform pathed).2.process := by
  refine (failed_opening_iff ⟨3, 0, 0, 12, 0, 0, 0, 0, 64⟩ pathed 0 .unbound).2.2.2.mpr
    ⟨?_, by decide⟩
  exact Option.isSome_iff_exists.mp (by decide +kernel)

end Opening

end Syscall

end Posix

end GuestHost
