import GuestHost.Proofs.HostCalls.Aloof
import GuestHost.Proofs.HostCalls.Functions
import GuestHost.Proofs.Posix.Arguments
/-!
# Descriptors

What a system call can do to the process of its guest is said once, in `Process.Becomes`: read on in
the file of one descriptor, close a descriptor, open the next one, or exit; all others are aloof,
`Syscall.becomes_calls`. So as long as the numbers have not started again at zero, a process is only
ever followed by a `Later` one, whose open descriptors were open before or are new numbers, and its
descriptors stay `Numbered`: the standard ones, and those that have been opened since, below the
next.
-/

namespace GuestHost

open Stateful Call

namespace Posix

variable {p q r : Process} {d e : Nat}

namespace Process

theorem isOpen_iff : p.isOpen d = true ↔ ∃ file, p.file? d = some file := Option.isSome_iff_exists

/-! ## Changes of one descriptor -/

theorem file?_withFile (p : Process) (d e : Nat) (file : File) :
    (p.withFile d file).file? e = if e = d then some file else p.file? e :=
  Table.find?_insert p.files d e file

theorem file?_close (p : Process) (d e : Nat) :
    (p.close d).file? e = if e = d then none else p.file? e :=
  Table.find?_erase p.files d e

theorem isOpen_withFile (p : Process) (d e : Nat) (file : File) :
    (p.withFile d file).isOpen e = true ↔ e = d ∨ p.isOpen e = true := by
  simp only [isOpen_iff, file?_withFile]
  split <;> simp_all

theorem isOpen_close (p : Process) (d e : Nat) :
    (p.close d).isOpen e = true ↔ e ≠ d ∧ p.isOpen e = true := by
  simp only [isOpen_iff, file?_close]
  split <;> simp_all

theorem isOpen_openFile (p : Process) (file : File) (e : Nat) :
    (p.openFile file).2.isOpen e = true ↔ e = p.next ∨ p.isOpen e = true :=
  isOpen_withFile p p.next e file

/-- What a process has before its standard descriptors are put on it, and keeps then, it has when it
is bound. -/
theorem keeps_bind {I : Process → Prop} {p : Process} {arguments : List String}
    (start : I { p with stage := .bound, arguments := arguments })
    (input : ∀ q place, I q → I (q.withFile 0 (.inputOf place)))
    (output : ∀ q place, I q → I (q.withFile 1 (.output place)))
    (error : ∀ q, I q → I (q.withFile 2 .standardError)) (registry : Exchange.Registry)
    (invocation : Invocation) : I (p.bind registry invocation arguments) := by
  unfold Process.bind
  dsimp only
  refine error _ ?_
  split
  · refine output _ _ ?_
    split
    · exact input _ _ start
    · exact start
  · split
    · exact input _ _ start
    · exact start

/-- Process `q` is `p` but for the state of the file of a descriptor. -/
structure ReadOn (d : Nat) (p q : Process) : Prop where
  stage_eq : q.stage = p.stage
  next_eq : q.next = p.next
  isOpen_eq : ∀ e, q.isOpen e = p.isOpen e
  file?_eq : ∀ e, e ≠ d → q.file? e = p.file? e

theorem ReadOn.refl (d : Nat) (p : Process) : ReadOn d p p :=
  ⟨rfl, rfl, fun _ => rfl, fun _ _ => rfl⟩

/-- A file that is read on in stays open. -/
theorem ReadOn.withFile (h : ReadOn d p q) (opened : q.isOpen d = true) (file : File) :
    ReadOn d p (q.withFile d file) where
  stage_eq := h.stage_eq
  next_eq := h.next_eq
  isOpen_eq e := by
    rw [← h.isOpen_eq e, Bool.eq_iff_iff, isOpen_withFile]
    refine or_iff_right_of_imp fun same => ?_
    rwa [same]
  file?_eq e other := by rw [file?_withFile, if_neg other, h.file?_eq e other]

/-- **What a system call can do to a process.** -/
inductive Becomes (p : Process) : Process → Prop where
  | same : Becomes p p
  | readOn {q : Process} (d : Nat) : ReadOn d p q → Becomes p q
  | closed (d : Nat) : Becomes p (p.close d)
  | opened (file : File) : Becomes p (p.openFile file).2
  | exited (code : Int32) : Becomes p (p.exit code)

/-- A system call opens one descriptor at most. -/
theorem Becomes.next_eq (h : Becomes p q) :
    q.next = p.next ∨ q.next = (p.next + 1) % 2 ^ 32 := by
  cases h with
  | readOn d h => exact .inl h.next_eq
  | opened file => exact .inr rfl
  | _ => exact .inl rfl

/-- How many descriptors have been opened from one process to another that a system call leaves. -/
def opens (p q : Process) : Nat := if q.next = p.next then 0 else 1

/-- **The next number counts the descriptors that are opened**, up to multiples of 2^32. -/
theorem Becomes.next_opens (h : Becomes p q) (word : p.next < 2 ^ 32) :
    q.next = (p.next + p.opens q) % 2 ^ 32 := by
  unfold opens
  rcases h.next_eq with same | more
  · rw [if_pos same, same, Nat.add_zero, Nat.mod_eq_of_lt word]
  · rw [if_neg (by omega), more]

/-! ## Later processes -/

/-- Process `q` may follow `p`: what is open was open before or is a new number. -/
structure Later (p q : Process) : Prop where
  next_le : p.next ≤ q.next
  old_or_new : ∀ d, q.isOpen d = true → p.isOpen d = true ∨ p.next ≤ d ∧ d < q.next

theorem Later.refl (p : Process) : Later p p := ⟨Nat.le_refl _, fun _ opened => .inl opened⟩

theorem Later.trans (h : Later p q) (h' : Later q r) : Later p r where
  next_le := Nat.le_trans h.next_le h'.next_le
  old_or_new d opened := by
    have first := h.next_le
    have second := h'.next_le
    rcases h'.old_or_new d opened with before | ⟨low, high⟩
    · exact (h.old_or_new d before).imp_right fun ⟨low, high⟩ => ⟨low, by omega⟩
    · exact .inr ⟨by omega, high⟩

/-- **A system call leaves a later process**, unless the numbers start again. -/
theorem Becomes.later (h : Becomes p q) (on : p.next ≤ q.next) : Later p q := by
  cases h with
  | same => exact .refl p
  | readOn d h =>
    exact ⟨Nat.le_of_eq h.next_eq.symm, fun e opened => .inl (h.isOpen_eq e ▸ opened)⟩
  | closed d =>
    exact ⟨Nat.le_refl _, fun e opened => .inl ((isOpen_close p d e).mp opened).2⟩
  | opened file =>
    have wraps : (p.openFile file).2.next = (p.next + 1) % 2 ^ 32 := rfl
    refine ⟨on, fun e opened => ?_⟩
    rcases (isOpen_openFile p file e).mp opened with rfl | before
    · exact .inr ⟨Nat.le_refl _, by omega⟩
    · exact .inl before
  | exited code => exact ⟨Nat.le_refl _, fun e opened => .inl opened⟩

/-- The open descriptors are the standard ones, and numbers from the first on below the next. -/
structure Numbered (p : Process) : Prop where
  first_le : firstOpened ≤ p.next
  range : ∀ d, p.isOpen d = true → d ≤ 2 ∨ firstOpened ≤ d ∧ d < p.next

theorem Numbered.later (h : Numbered p) (later : Later p q) : Numbered q where
  first_le := Nat.le_trans h.first_le later.next_le
  range d opened := by
    have le := later.next_le
    have first := h.first_le
    rcases later.old_or_new d opened with before | ⟨low, high⟩
    · exact (h.range d before).imp_right fun ⟨low, high⟩ => ⟨low, by omega⟩
    · exact .inr ⟨by omega, high⟩

/-- The number that the next descriptor gets is not open. -/
theorem Numbered.next_not_open (h : Numbered p) : ¬ p.isOpen p.next = true := by
  intro opened
  have first := h.first_le
  have range := h.range _ opened
  simp only [firstOpened] at first range
  omega

/-- **What has been closed stays closed**, as long as nothing but system calls is done to the
process. -/
theorem Numbered.not_open_later (h : Numbered p) (opened : p.isOpen d = true) (later : Later p q)
    (closed : ¬ q.isOpen d = true) (later' : Later q r) : ¬ r.isOpen d = true := by
  intro again
  have first := h.first_le
  have le := later.next_le
  have range := h.range d opened
  simp only [firstOpened] at first range
  rcases later'.old_or_new d again with before | ⟨low, -⟩
  · exact closed before
  · omega

end Process

open Process

/-! ## System calls -/

theorem Errno.code_injective : Function.Injective Errno.code := by
  intro errno errno' same
  cases errno <;> cases errno' <;> first | rfl | exact absurd same (by decide)

theorem FileError.errno_ne_success (e : FileError) : e.errno ≠ .success := by
  cases e <;> exact nofun

namespace Syscall

variable {site : Site} {call : Call Errno}

theorem aloof_storeArguments (table : Nat) (texts : List String) (index offset : Nat) :
    (storeArguments table texts index offset).Aloof := by
  induction texts generalizing index offset with
  | nil => exact aloof_pure ()
  | cons text rest ih =>
    exact (aloof_store _ _ _).bind fun _ => (Call.aloof_write _ _).bind fun _ =>
      (aloof_store _ _ _).bind fun _ => ih _ _

theorem aloof_directoryGet : directoryGet.Aloof := by
  refine (aloof_word 0).bind fun descriptor => (aloof_word 1).bind fun result => ?_
  cases directories.lookup descriptor with
  | none => exact aloof_pure _
  | some name =>
    exact (aloof_store _ _ _).bind fun _ => (aloof_store _ _ _).bind fun _ => aloof_pure _

theorem aloof_directoryName : directoryName.Aloof := by
  refine (aloof_word 0).bind fun descriptor => (aloof_word 1).bind fun result => ?_
  refine (aloof_word 2).bind fun length => ?_
  cases directories.lookup descriptor with
  | none => exact aloof_pure _
  | some name => exact (Call.aloof_write _ _).bind fun _ => aloof_pure _

theorem aloof_vector (table index : Nat) : (vector table index).Aloof :=
  (aloof_load _).bind fun _ => (aloof_load _).bind fun _ => aloof_pure _

theorem aloof_writeVectors (descriptor table left index written : Nat) :
    (writeVectors descriptor table left index written).Aloof := by
  induction left generalizing index written with
  | zero => exact aloof_pure _
  | succ left ih =>
    refine (aloof_vector table index).bind fun range => (aloof_slice _ _).bind fun bytes => ?_
    refine aloof_invocation.bind fun invocation => aloof_optional (aloof_hear bytes) ?_
    refine aloof_process.bind fun process => ?_
    cases process.file? descriptor with
    | none => exact aloof_pure _
    | some file =>
      have written : (writeFile file bytes).Aloof :=
        aloof_world.bind fun _ => (aloof_setWorld _).bind fun _ => aloof_pure _
      refine written.bind fun outcome => ?_
      cases outcome with
      | error e => exact aloof_pure _
      | ok n => exact ih _ _

/-- Writing to a descriptor takes nothing from its file. -/
theorem aloof_write : write.Aloof := by
  rw [write_eq]
  refine (aloof_word 0).bind fun descriptor => (aloof_word 1).bind fun table => ?_
  refine (aloof_word 2).bind fun count => (aloof_word 3).bind fun result => ?_
  refine (aloof_writeVectors _ _ _ _ _).bind fun outcome => ?_
  cases outcome <;> exact (aloof_store _ _ _).bind fun _ => aloof_pure _

/-! ### Reading -/

theorem aloof_of_obeys {α : Type} {x : Call α} {I : Process → Prop} (aloof : x.Aloof) :
    Obeys (fun s : Site => I s.process) x fun _ => True := by
  intro s hs
  refine ⟨?_, fun _ _ => trivial⟩
  show I (x.run s).2.process
  rwa [aloof s]

theorem readOn_readFile (opened : p.isOpen d = true) (file : File) (length : Nat) :
    Obeys (fun s : Site => ReadOn d p s.process) (readFile d file length) fun _ => True := by
  refine Obeys.bind (aloof_of_obeys aloof_world) fun w _ => ?_
  obtain ⟨outcome, after, world⟩ := file.read length w
  have process : Obeys (fun s : Site => ReadOn d p s.process) Call.process (ReadOn d p) :=
    fun s hs => ⟨hs, fun a ha => Except.ok.inj ha ▸ hs⟩
  refine Obeys.bind process fun q hq => ?_
  have still : q.isOpen d = true := (hq.isOpen_eq d).trans opened
  refine Obeys.bind (P := fun _ => True) (fun s hs => ⟨hq.withFile still after, fun _ _ => trivial⟩)
    fun _ _ => ?_
  exact Obeys.bind (aloof_of_obeys (aloof_setWorld world)) fun _ _ => Obeys.pure trivial

theorem readOn_readVectors (d table left index done : Nat) (p : Process) :
    Obeys (fun s : Site => ReadOn d p s.process) (readVectors d table left index done)
      fun _ => True := by
  induction left generalizing index done with
  | zero => exact Obeys.pure trivial
  | succ left ih =>
    refine Obeys.bind (aloof_of_obeys (aloof_vector table index)) fun range _ => ?_
    refine Obeys.ite (fun _ => ih _ _) fun _ => ?_
    have process : Obeys (fun s : Site => ReadOn d p s.process) Call.process (ReadOn d p) :=
      fun s hs => ⟨hs, fun a ha => Except.ok.inj ha ▸ hs⟩
    refine Obeys.bind process fun q hq => ?_
    cases found : q.file? d with
    | none => exact Obeys.pure trivial
    | some file =>
      have opened : p.isOpen d = true := (hq.isOpen_eq d).symm.trans (isOpen_iff.mpr ⟨file, found⟩)
      refine Obeys.bind (aloof_of_obeys (aloof_range _ _)) fun _ _ => ?_
      refine Obeys.bind (readOn_readFile opened file _) fun outcome _ => ?_
      cases outcome with
      | error e => exact Obeys.pure trivial
      | ok bytes =>
        exact Obeys.bind (aloof_of_obeys (Call.aloof_write _ _)) fun _ _ =>
          Obeys.ite (fun _ => Obeys.pure trivial) fun _ => ih _ _

/-- The argument of an index, if it is a 32-bit word. -/
def argument? (site : Site) (index : Nat) : Option Nat :=
  match site.arguments[index]? with
  | some (.i32 word) => some word.toNat
  | _ => none

/-- A 32-bit argument is read, or the call fails; nothing changes either way. -/
theorem run_word_cases (index : Nat) (site : Site) :
    (∃ n, argument? site index = some n ∧ (Call.word index).run site = (.ok n, site)) ∨
      argument? site index = none ∧ ∃ e, (Call.word index).run site = (.error e, site) := by
  unfold argument? Call.word
  rw [run_bind]
  cases found : site.arguments[index]? with
  | none =>
    have run : (Call.argument index).run site =
        (.error (.fatal (.missingArgument index)), site) := by
      simp only [Call.argument, run_bind, run_get, found]
      rfl
    rw [run]
    exact .inr ⟨rfl, _, rfl⟩
  | some value =>
    have run : (Call.argument index).run site = (.ok value, site) := by
      simp only [Call.argument, run_bind, run_get, found]
      rfl
    rw [run]
    cases value with
    | i32 word => exact .inl ⟨word.toNat, rfl, rfl⟩
    | _ => exact .inr ⟨rfl, _, rfl⟩

/-- Reading keeps of the process what reading vectors from its descriptor keeps. -/
theorem process_read {I : Process → Prop}
    (vectors : ∀ d, argument? site 0 = some d → ∀ table count,
      Obeys (fun s : Site => I s.process) (readVectors d table count 0 0) fun _ => True)
    (h : I site.process) : I (read.run site).2.process := by
  unfold read
  rw [run_bind]
  rcases run_word_cases 0 site with ⟨d, passed, run⟩ | ⟨missing, e, run⟩
  · rw [run]
    refine ((?_ : Obeys (fun s : Site => I s.process) _ fun _ => True) site h).1
    refine Obeys.bind (Nesting.obeys_word 1) fun table _ => ?_
    refine Obeys.bind (Nesting.obeys_word 2) fun count _ => ?_
    refine Obeys.bind (Nesting.obeys_word 3) fun result _ => ?_
    refine Obeys.bind (vectors d passed table count) fun outcome _ => ?_
    cases outcome with
    | ok done =>
      exact Obeys.bind (aloof_of_obeys (aloof_store _ _ _)) fun _ _ => Obeys.pure trivial
    | error errno => exact Obeys.pure trivial
  · rw [run]
    exact h

/-- **Reading from a descriptor takes from its file only.** -/
theorem readOn_read (site : Site) :
    (argument? site 0 = none ∧ (read.run site).2.process = site.process) ∨
      ∃ d, argument? site 0 = some d ∧ ReadOn d site.process (read.run site).2.process := by
  cases passed : argument? site 0 with
  | none =>
    refine .inl ⟨rfl, process_read (I := (· = site.process)) (fun d passed' => ?_) rfl⟩
    cases passed.symm.trans passed'
  | some d =>
    refine .inr ⟨d, rfl, process_read (fun d' passed' table count => ?_) (.refl d site.process)⟩
    obtain rfl := Option.some.inj (passed.symm.trans passed')
    exact readOn_readVectors d table count 0 0 site.process

/-- An output that is open is not read from, and so it stays as it is. -/
theorem output_readVectors (d table left index done : Nat) (e : Nat) (place : Exchange.Place) :
    Obeys (fun s : Site => s.process.file? e = some (.output place))
      (readVectors d table left index done) fun _ => True := by
  have keeps {α : Type} {x : Call α} (aloof : x.Aloof) :
      Obeys (fun s : Site => s.process.file? e = some (.output place)) x fun _ => True :=
    aloof_of_obeys (I := fun p => p.file? e = some (.output place)) aloof
  induction left generalizing index done with
  | zero => exact Obeys.pure trivial
  | succ left ih =>
    refine Obeys.bind (keeps (aloof_vector table index)) fun range _ => ?_
    refine Obeys.ite (fun _ => ih _ _) fun _ => ?_
    refine Obeys.bind (P := fun q : Process => q.file? e = some (.output place))
      (fun s hs => ⟨hs, fun a ha => Except.ok.inj ha ▸ hs⟩) fun q hq => ?_
    cases found : q.file? d with
    | none => exact Obeys.pure trivial
    | some file =>
      have readFile : Obeys (fun s : Site => s.process.file? e = some (.output place))
          (readFile d file range.2) fun _ => True := by
        refine fun s hs => ⟨?_, fun _ _ => trivial⟩
        show (s.process.withFile d (file.read range.2 s.world).2.1).file? e = _
        rw [file?_withFile]
        split
        · rename_i same
          obtain rfl := Option.some.inj (found.symm.trans (same ▸ hq))
          rfl
        · exact hs
      refine Obeys.bind (keeps (aloof_range _ _)) fun _ _ => ?_
      refine Obeys.bind readFile fun outcome _ => ?_
      cases outcome with
      | error e => exact Obeys.pure trivial
      | ok bytes =>
        exact Obeys.bind (keeps (Call.aloof_write _ _)) fun _ _ =>
          Obeys.ite (fun _ => Obeys.pure trivial) fun _ => ih _ _

/-! ### Closing -/

/-- **Closing a descriptor takes it away**, even if its file cannot be closed. -/
theorem process_close (site : Site) :
    (∀ d, argument? site 0 = some d → site.process.isOpen d = false) ∧
        (close.run site).2.process = site.process ∨
      ∃ d, argument? site 0 = some d ∧ (close.run site).2.process = site.process.close d := by
  rcases run_word_cases 0 site with ⟨d, passed, run⟩ | ⟨missing, e, run⟩
  · have process : Call.process.run site = (.ok site.process, site) := rfl
    unfold close
    simp only [run_bind, run, process]
    cases found : site.process.file? d with
    | none =>
      refine .inl ⟨fun e passed' => ?_, rfl⟩
      obtain rfl := Option.some.inj (passed.symm.trans passed')
      exact Bool.eq_false_iff.mpr fun opened => by
        obtain ⟨file, there⟩ := isOpen_iff.mp opened
        cases found.symm.trans there
    | some file =>
      refine .inr ⟨d, passed, ?_⟩
      have closed : (Call.setProcess (site.process.close d)).run site =
        (.ok ⟨⟩, { site with process := site.process.close d }) := rfl
      dsimp only
      rw [run_bind, closed]
      refine (?_ : Aloof _) { site with process := site.process.close d }
      refine aloof_world.bind fun w => ?_
      obtain ⟨outcome, after⟩ := file.close w
      refine (aloof_setWorld after).bind fun _ => ?_
      cases outcome with
      | ok done => exact aloof_pure _
      | error e => exact aloof_pure _
  · refine .inl ⟨fun d passed => (by cases missing.symm.trans passed), ?_⟩
    unfold close
    rw [run_bind, run]

theorem isOpen_of_close (passed : argument? site 0 = some d) :
    (close.run site).2.process.isOpen d = false := by
  rcases process_close site with ⟨shut, same⟩ | ⟨d', passed', closed⟩
  · rw [same]
    exact shut d passed
  · obtain rfl := Option.some.inj (passed.symm.trans passed')
    rw [closed, Bool.eq_false_iff]
    exact fun still => ((isOpen_close _ _ _).mp still).1 rfl

/-! ### Opening -/

/-- A path that stands for no file is answered with an error number. -/
theorem fileOf_ne_success {w : World} {invocation : Invocation} {path : String} {errno : Errno}
    (missing : fileOf w invocation path = .error errno) : errno ≠ .success := by
  rintro rfl
  revert missing
  unfold fileOf orUnknown
  repeat' split
  all_goals exact nofun

/-- What opening a path comes to: nothing is opened; or a file that the path stands for is opened
under the next descriptor, and the number is stored; or it is opened, and there is no room for the
number. -/
theorem openPath_cases (site : Site) :
    ((openPath.run site).1 ≠ .ok .success ∧
        ∃ memory, (openPath.run site).2 = { site with memory := memory }) ∨
      (∃ path file result, fileOf site.world site.invocation path = .ok file ∧
        argument? site 8 = some result ∧ site.memory.Holds result 4 ∧
        openPath.run site =
          (.ok .success, { site with
            process := (site.process.openFile file).2
            memory := site.memory.overwrite result (Bytes.ofWord 4 site.process.next) })) ∨
      ∃ path file, fileOf site.world site.invocation path = .ok file ∧
        (openPath.run site).1 ≠ .ok .success ∧
        (openPath.run site).2 = { site with process := (site.process.openFile file).2 } := by
  have same : ((Call.text 2 3).run site).2 = site :=
    (Nesting.obeys_text 2 3 (I := (· = site)) site rfl).1
  cases come : ((Call.text 2 3).run site).1 with
  | error e =>
    refine .inl ?_
    unfold openPath
    rw [run_bind, come, same]
    exact ⟨nofun, _, rfl⟩
  | ok path =>
    rcases run_word_cases 8 site with ⟨result, passed, run⟩ | ⟨-, e, run⟩
    · have world : Call.world.run site = (.ok site.world, site) := rfl
      have invocation : Call.invocation.run site = (.ok site.invocation, site) := rfl
      have process : Call.process.run site = (.ok site.process, site) := rfl
      unfold openPath
      simp only [run_bind, come, same, run, world, invocation]
      cases found : fileOf site.world site.invocation path with
      | error errno =>
        refine .inl ?_
        rw [run_bind, Call.run_store]
        by_cases room : site.memory.Holds result 4
        · rw [if_pos room]
          exact ⟨fun same => fileOf_ne_success found (Except.ok.inj same), _, rfl⟩
        · rw [if_neg room]
          exact ⟨nofun, _, rfl⟩
      | ok file =>
        refine .inr ?_
        have opened : (Call.setProcess (site.process.openFile file).2).run site =
          (.ok ⟨⟩, { site with process := (site.process.openFile file).2 }) := rfl
        simp only [run_bind, process, opened, Call.run_store]
        by_cases room : site.memory.Holds result 4
        · rw [if_pos room]
          exact .inl ⟨path, file, result, found, passed, room, rfl⟩
        · rw [if_neg room]
          exact .inr ⟨path, file, found, nofun, rfl⟩
    · refine .inl ?_
      unfold openPath
      rw [run_bind, come, same]
      dsimp only
      rw [run_bind, run]
      exact ⟨nofun, _, rfl⟩

/-! ### All of them -/

theorem becomes_of_aloof (aloof : call.Aloof) (site : Site) :
    Becomes site.process (call.run site).2.process := by
  rw [aloof site]
  exact .same

theorem becomes_read (site : Site) : Becomes site.process (read.run site).2.process := by
  rcases readOn_read site with ⟨-, same⟩ | ⟨d, -, readOn⟩
  · rw [same]
    exact .same
  · exact .readOn d readOn

theorem becomes_close (site : Site) : Becomes site.process (close.run site).2.process := by
  rcases process_close site with ⟨-, same⟩ | ⟨d, -, closed⟩
  · rw [same]
    exact .same
  · rw [closed]
    exact .closed d

theorem becomes_openPath (site : Site) : Becomes site.process (openPath.run site).2.process := by
  rcases openPath_cases site with ⟨-, memory, same⟩ | ⟨-, file, result, -, -, -, run⟩ |
    ⟨-, file, -, -, opened⟩
  · rw [same]
    exact .same
  · rw [run]
    exact .opened file
  · rw [opened]
    exact .opened file

/-- All but three of the system calls with an answer leave the process of their guest alone. -/
theorem aloof_or_eq : ∀ call ∈ calls,
    call.2.2.Aloof ∨ call.2.2 = read ∨ call.1 = "fd_close" ∧ call.2.2 = close ∨
      call.1 = "path_open" ∧ call.2.2 = openPath := by
  simp only [calls, List.forall_mem_cons, List.not_mem_nil, false_implies, implies_true, and_true]
  refine ⟨.inl ?argumentsSizes, .inl ?arguments, .inl ?environmentSizes, .inl (aloof_pure _),
    .inl aloof_directoryGet, .inl aloof_directoryName, .inl ?descriptorStatus, .inl ?pathStatus,
    .inl aloof_write, .inr (.inl trivial), .inl ?seek, .inr (.inr (.inl trivial)),
    .inl ?readDirectory, .inr (.inr (.inr trivial))⟩
  case argumentsSizes =>
    exact (aloof_word 0).bind fun _ => (aloof_word 1).bind fun _ => aloof_process.bind fun _ =>
      (aloof_store _ _ _).bind fun _ => (aloof_store _ _ _).bind fun _ => aloof_pure _
  case arguments =>
    exact (aloof_word 0).bind fun _ => (aloof_word 1).bind fun _ => aloof_process.bind fun _ =>
      (aloof_storeArguments _ _ _ _).bind fun _ => aloof_pure _
  case environmentSizes =>
    exact (aloof_word 0).bind fun _ => (aloof_word 1).bind fun _ =>
      (aloof_store _ _ _).bind fun _ => (aloof_store _ _ _).bind fun _ => aloof_pure _
  case descriptorStatus =>
    exact (aloof_word 0).bind fun _ => (aloof_word 1).bind fun _ => (aloof_fill _ _ _).bind fun _ =>
      (aloof_store _ _ _).bind fun _ => (aloof_store _ _ _).bind fun _ =>
        (aloof_store _ _ _).bind fun _ => (aloof_store _ _ _).bind fun _ => aloof_pure _
  case pathStatus =>
    exact (aloof_bytes 2 3).bind fun _ => (aloof_word 4).bind fun _ =>
      (aloof_fill _ _ _).bind fun _ => (aloof_store _ _ _).bind fun _ => aloof_pure _
  case seek =>
    exact (aloof_wide 1).bind fun _ => (aloof_word 3).bind fun _ =>
      (aloof_store _ _ _).bind fun _ => aloof_pure _
  case readDirectory =>
    exact (aloof_word 4).bind fun _ => (aloof_store _ _ _).bind fun _ => aloof_pure _

/-- **What the system calls with an answer can do to a process.** -/
theorem becomes_calls (named : String × Signature × Call Errno) (listed : named ∈ calls)
    (site : Site) : Becomes site.process (named.2.2.run site).2.process := by
  rcases aloof_or_eq named listed with aloof | same | ⟨name, same⟩ | ⟨name, same⟩
  · exact becomes_of_aloof aloof site
  · exact same ▸ becomes_read site
  · exact same ▸ becomes_close site
  · exact same ▸ becomes_openPath site

/-- **The system calls with an answer leave the stage of a process as it is.** -/
theorem stage_calls (named : String × Signature × Call Errno) (listed : named ∈ calls)
    (site : Site) : (named.2.2.run site).2.process.stage = site.process.stage := by
  rcases aloof_or_eq named listed with aloof | same | ⟨name, same⟩ | ⟨name, same⟩
  · rw [aloof site]
  · rw [same]
    rcases readOn_read site with ⟨-, left⟩ | ⟨d, -, readOn⟩
    · rw [left]
    · exact readOn.stage_eq
  · rw [same]
    rcases process_close site with ⟨-, left⟩ | ⟨d, -, left⟩
    · rw [left]
    · rw [left]
      rfl
  · rw [same]
    rcases openPath_cases site with ⟨-, memory, left⟩ | ⟨-, file, result, -, -, -, left⟩ |
      ⟨-, file, -, -, left⟩ <;> rw [left] <;> rfl

/-- **An output that is open stays open until it is closed** or its number is handed out again. -/
theorem output_calls (named : String × Signature × Call Errno) (listed : named ∈ calls)
    {site : Site} {place : Exchange.Place}
    (opened : site.process.file? d = some (.output place))
    (spared : named.1 = "fd_close" → argument? site 0 ≠ some d)
    (apart : named.1 = "path_open" → site.process.next ≠ d) :
    (named.2.2.run site).2.process.file? d = some (.output place) := by
  have next (name : named.1 = "path_open") (file : File) :
      (site.process.openFile file).2.file? d = some (.output place) := by
    refine (file?_withFile _ _ d file).trans ?_
    rw [if_neg]
    · exact opened
    · exact (apart name).symm
  rcases aloof_or_eq named listed with aloof | same | ⟨name, same⟩ | ⟨name, same⟩
  · rw [aloof site]
    exact opened
  · rw [same]
    exact process_read (I := fun p => p.file? d = some (.output place))
      (fun d' _ table count => output_readVectors d' table count 0 0 d place) opened
  · rw [same]
    rcases process_close site with ⟨-, left⟩ | ⟨d', passed, left⟩
    · rw [left]
      exact opened
    · rw [left, file?_close, if_neg]
      · exact opened
      · exact fun other => spared name (other ▸ passed)
  · rw [same]
    rcases openPath_cases site with ⟨-, memory, left⟩ | ⟨-, file, result, -, -, -, left⟩ |
      ⟨-, file, -, -, left⟩
    · rw [left]
      exact opened
    · rw [left]
      exact next name file
    · rw [left]
      exact next name file

/-- The guest exits, or there is no code for it to exit with. -/
theorem process_exit (site : Site) : (exit.run site).2.process = site.process ∨
    ∃ code, (exit.run site).2.process = site.process.exit code := by
  have same : ((Call.signed 0).run site).2 = site :=
    (Nesting.obeys_signed 0 (I := (· = site)) site rfl).1
  unfold exit
  rw [run_bind, same]
  cases ((Call.signed 0).run site).1 with
  | error e => exact .inl rfl
  | ok code => exact .inr ⟨code, rfl⟩

theorem becomes_exit (site : Site) : Becomes site.process (exit.run site).2.process := by
  rcases process_exit site with left | ⟨code, left⟩
  · rw [left]
    exact .same
  · rw [left]
    exact .exited code

/-- Failures have codes of their own. -/
theorem run_of_answered (answer : ((answered call).run site).1 = .ok Errno.success.code) :
    (call.run site).1 = .ok .success := by
  revert answer
  unfold answered
  rw [run_tryCatch, run_bind]
  obtain ⟨outcome, after⟩ := call.run site
  cases outcome with
  | ok errno =>
    intro answer
    exact congrArg Except.ok (Errno.code_injective (Except.ok.inj answer))
  | error e =>
    cases e with
    | outOfBounds access => exact fun answer => absurd (Except.ok.inj answer) (by decide)
    | recoverable reason => exact fun answer => absurd (Except.ok.inj answer) (by decide)
    | _ => exact fun never => by cases never

/-- The system calls on one descriptor. -/
inductive OnDescriptor : Call Errno → Prop where
  | read : OnDescriptor read
  | write : OnDescriptor write
  | close : OnDescriptor close

/-- **A system call on a descriptor leaves the files of all others as they are.** -/
theorem OnDescriptor.file?_eq (on : OnDescriptor call) {site : Site}
    (passed : argument? site 0 = some d) (other : e ≠ d) :
    (call.run site).2.process.file? e = site.process.file? e := by
  cases on with
  | read =>
    rcases readOn_read site with ⟨-, same⟩ | ⟨d', passed', readOn⟩
    · rw [same]
    · obtain rfl := Option.some.inj (passed.symm.trans passed')
      exact readOn.file?_eq e other
  | write => rw [aloof_write site]
  | close =>
    rcases process_close site with ⟨-, same⟩ | ⟨d', passed', closed⟩
    · rw [same]
    · obtain rfl := Option.some.inj (passed.symm.trans passed')
      rw [closed, file?_close, if_neg other]

end Syscall

end Posix

end GuestHost
