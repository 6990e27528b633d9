import GuestHost.Proofs.HostCalls.Outcomes
import GuestHost.Proofs.Loading.Cache
import GuestHost.Proofs.Posix.Openings
import GuestHost.Proofs.Reentry.Outermost
import Mathlib.Data.List.Nodup
/-!
# Descriptors along a run

The host calls of a run open descriptors one after the other: the number that comes next is the
first one and as many further on as have been opened, as long as that is a 32-bit word,
`Sandbox.Handed.next_eq`. A host call that performs the system call for opening a path and succeeds
`Opens` the number that is next. Together with what a system call can do to a process this settles
the descriptors of all runs up to there, `Sandbox.descriptors_never_reused`: numbers are handed out
in increasing order from the first on, a descriptor that has been closed is never open again, and
what is done to one descriptor leaves the files of all others as they are. Behind the greatest word
the numbers start again at zero, and a guest with fewer than 2^32 openings can get there,
`Sandbox.numbers_start_again`.
-/

namespace GuestHost

open Stateful Posix Posix.Process

/-! ## Host calls that are system calls -/

namespace HostCall

variable {invoke : Invoke} {c : HostCall} {call : Call Errno} {n d e : Nat}

/-- The function that is called is a system call. -/
def Performs (c : HostCall) (call : Call Errno) : Prop :=
  c.function.backing = .handler (.native (Syscall.answered call))

/-- The function that is called answers with success. -/
def Succeeds (invoke : Invoke) (c : HostCall) : Prop :=
  ((c.function.value invoke).run c.site).1 = .ok Errno.success.code

/-- A host call leaves what its system call leaves, but for what is noted down. -/
theorem Performs.after_eq (performs : c.Performs call) :
    ∃ w, c.after invoke = { (call.run c.site).2 with world := w } := by
  obtain ⟨w, left⟩ := c.function.exists_site_call invoke c.site
  refine ⟨w, ?_⟩
  rw [after, left, show c.function.backing = _ from performs, Backing.run, Syscall.site_answered]

theorem Performs.process_after (performs : c.Performs call) :
    (c.after invoke).process = (call.run c.site).2.process := by
  obtain ⟨w, left⟩ := @Performs.after_eq invoke c call performs
  rw [left]

theorem Performs.memory_after (performs : c.Performs call) :
    (c.after invoke).memory = (call.run c.site).2.memory := by
  obtain ⟨w, left⟩ := @Performs.after_eq invoke c call performs
  rw [left]

/-- A system call that succeeds ends well: failures have codes of their own. -/
theorem Performs.run_of_succeeds (performs : c.Performs call) (succeeds : c.Succeeds invoke) :
    (call.run c.site).1 = .ok .success := by
  apply Syscall.run_of_answered
  have backed : (c.function.backing.run invoke).run c.site =
      (Syscall.answered call).run c.site := by
    rw [show c.function.backing = _ from performs, Backing.run]
  rw [← backed]
  cases come : ((c.function.backing.run invoke).run c.site).1 with
  | ok word => rw [← succeeds, HostFunction.value_of_run come]
  | error e =>
    -- the value of a failure is the sentinel, if there is one
    exfalso
    by_cases survived : e.Survived
    · have sent := succeeds.symm.trans (HostFunction.value_of_survived come survived)
      exact absurd (Except.ok.inj sent) (by decide)
    · cases succeeds.symm.trans (HostFunction.value_eq_error_iff.mpr ⟨come, survived⟩)

/-- A host call opens a path under a number. The guest finds the number where it asks for it to be
stored. -/
structure Opens (invoke : Invoke) (n : Nat) (c : HostCall) : Prop where
  performs : c.Performs Syscall.openPath
  succeeds : c.Succeeds invoke
  next_eq : c.site.process.next = n
  unused : c.site.process.isOpen n = false
  next_after : (c.after invoke).process.next = n + 1
  opened : (c.after invoke).process.isOpen n = true
  others : ∀ e, e ≠ n → (c.after invoke).process.file? e = c.site.process.file? e
  told : ∃ result, Syscall.argument? c.site 8 = some result ∧
    (c.after invoke).memory.readWord 4 result = .ok n

/-- Opening a path that succeeds opens a file under the next number and stores the number. -/
theorem Performs.opened (performs : c.Performs Syscall.openPath) (succeeds : c.Succeeds invoke) :
    ∃ file result, (c.after invoke).process = (c.site.process.openFile file).2 ∧
      Syscall.argument? c.site 8 = some result ∧ c.site.memory.Holds result 4 ∧
      (c.after invoke).memory =
        c.site.memory.overwrite result (Bytes.ofWord 4 c.site.process.next) := by
  have well := performs.run_of_succeeds succeeds
  rcases Syscall.openPath_cases c.site with ⟨failed, -⟩ |
    ⟨-, file, result, -, passed, room, run⟩ | ⟨-, file, -, failed, -⟩
  · exact absurd well failed
  · refine ⟨file, result, ?_, passed, room, ?_⟩
    · rw [performs.process_after, run]
    · rw [performs.memory_after, run]
  · exact absurd well failed

/-- **Opening a path that succeeds hands out the next number**, which is not open yet, unless the
numbers start again. -/
theorem Performs.opens (performs : c.Performs Syscall.openPath) (succeeds : c.Succeeds invoke)
    (numbered : Numbered c.site.process) (later : Later c.site.process (c.after invoke).process) :
    c.Opens invoke c.site.process.next := by
  obtain ⟨file, result, process, passed, room, memory⟩ := performs.opened succeeds
  have unused := Bool.eq_false_iff.mpr numbered.next_not_open
  have wraps : (c.after invoke).process.next = (c.site.process.next + 1) % 2 ^ 32 :=
    congrArg Process.next process
  have first := numbered.first_le
  have le := later.next_le
  simp only [firstOpened] at first
  refine ⟨performs, succeeds, rfl, unused, by omega, ?_, fun e other => ?_, result, passed, ?_⟩
  · rw [process]
    exact (isOpen_openFile _ _ _).mpr (.inl rfl)
  · rw [process]
    exact (file?_withFile _ _ e file).trans (if_neg other)
  · rw [memory]
    exact Memory.readWord_overwrite room (by simp only [maxWord]; omega)

/-- How many descriptors a host call opens, be it that their numbers can be handed out or not. -/
def openings (invoke : Invoke) (c : HostCall) : Nat :=
  c.site.process.opens (c.after invoke).process

end HostCall

/-- Where nothing but the core functions is provided, a function by the name of a system call is the
system call, or the entry of another guest. -/
theorem Platform.offers_named (config : Config) {named : String × Signature × Call Errno}
    (listed : named ∈ Syscall.calls) :
    (standard config).Offers fun f => f.name = named.1 →
      f.backing = .handler (.native (Syscall.answered named.2.2)) ∨
        ∃ guest entry, f.backing = .guest guest entry where
  providers module provider found := by
    have others : ∀ call ∈ Core.calls, ∀ call' ∈ Syscall.calls, call.1 ≠ call'.1 := by decide
    have nested : ∀ call ∈ Syscall.calls, call.1 ≠ "call_function" := by decide
    rw [provider_of_standard found]
    refine Core.offers_typed.mono fun module name type result handler offered same => ?_
    rcases offered with ⟨call, hcall, typed⟩ | typed
    · exact absurd (typed.name_eq.symm.trans same) (others call hcall named listed)
    · exact absurd (same.symm.trans typed.name_eq) (nested named listed)
  links module name type signature guest _ _ := fun _ => .inr ⟨guest, name, rfl⟩
  posix names := by
    have distinct : (Syscall.calls.map Prod.fst).Nodup := by decide
    have ending : ∀ call ∈ Syscall.calls, call.1 ≠ "proc_exit" := by decide
    refine (Posix.offers_typed names).mono fun module name type result handler offered same => ?_
    rcases offered with ⟨call, hcall, typed⟩ | typed | ⟨-, -, missing⟩
    · obtain rfl := List.inj_on_of_nodup_map distinct hcall listed (typed.name_eq.symm.trans same)
      exact .inl typed.backing_eq
    · exact absurd (same.symm.trans typed.name_eq) (ending named listed)
    · -- a listed name has no stub
      exact absurd same (bne_iff_ne.mp (List.lookup_eq_none_iff.mp missing named listed))
  managed names := by
    have others : ∀ call ∈ Syscall.calls, call.1 ≠ "io_get_stdout" ∧ call.1 ≠ "resource_write" ∧
        Managed.isStub call.1 = false := by
      decide +kernel
    obtain ⟨output, write, plain⟩ := others named listed
    refine (Managed.offers_typed names).mono fun module name type result handler offered same => ?_
    rcases offered with typed | typed | ⟨-, stub⟩
    · exact absurd (same.symm.trans typed.name_eq) output
    · exact absurd (same.symm.trans typed.name_eq) write
    · cases stub.symm.trans ((congrArg Managed.isStub same).trans plain)

namespace Sandbox

variable {platform : Platform} {context : Context} {w : World} {s : Sandbox} {invoke : Invoke}
  {p q : Posix.Process} {row row' : List HostCall} {c : HostCall}

open HostCall

/-- The number of descriptors that a row of host calls opens. -/
def openings (invoke : Invoke) (row : List HostCall) : Nat :=
  (row.map (HostCall.openings invoke)).sum

theorem openings_cons (invoke : Invoke) (c : HostCall) (row : List HostCall) :
    openings invoke (c :: row) = c.openings invoke + openings invoke row := rfl

theorem openings_append (invoke : Invoke) (row row' : List HostCall) :
    openings invoke (row ++ row') = openings invoke row + openings invoke row' := by
  simp only [openings, List.map_append, List.sum_append]

theorem Handed.split (handed : Handed invoke p (row ++ row') q) :
    ∃ r, Handed invoke p row r ∧ Handed invoke r row' q := by
  induction row generalizing p with
  | nil => exact ⟨p, rfl, handed⟩
  | cons c rest ih =>
    obtain ⟨first, later⟩ := ih handed.2
    exact ⟨first, ⟨handed.1, later.1⟩, later.2⟩

/-- **The number that comes next goes up by one with each descriptor that is opened**, as long as
it is a 32-bit word, and so each host call leaves a later process. -/
theorem Handed.next_eq (handed : Handed invoke p row q)
    (each : ∀ c ∈ row, Becomes c.site.process (c.after invoke).process)
    (few : p.next + openings invoke row < 2 ^ 32) :
    q.next = p.next + openings invoke row ∧
      ∀ c ∈ row, Later c.site.process (c.after invoke).process := by
  induction row generalizing p with
  | nil => exact ⟨congrArg Process.next handed, fun c never => nomatch never⟩
  | cons c rest ih =>
    obtain ⟨rfl, handed⟩ := handed
    obtain ⟨first, each⟩ := List.forall_mem_cons.mp each
    rw [openings_cons] at few ⊢
    have next : (c.after invoke).process.next = c.site.process.next + c.openings invoke := by
      rw [first.next_opens (by omega)]
      exact Nat.mod_eq_of_lt (by simp only [HostCall.openings] at few; omega)
    obtain ⟨rest, later⟩ := ih handed each (by omega)
    exact ⟨by omega, List.forall_mem_cons.mpr ⟨first.later (by omega), later⟩⟩

/-- A function by the name of a system call is the system call, unless it is another guest's. -/
theorem performs_of_named {config : Config} {limit : Option Nat} {world : World}
    {named : String × Signature × Call Errno} (listed : named ∈ Syscall.calls)
    (prepared : ((prepare (.standard config) context).run w).1 = .ok s)
    (made : c ∈ s.calls invoke limit world) (same : c.function.name = named.1)
    (own : ∀ guest entry, c.function.backing ≠ .guest guest entry) : c.Performs named.2.2 := by
  obtain ⟨around, ⟨index, called⟩, -⟩ := (goes_callEntry _ _ _ _).makes made
  rcases offered_called (Platform.offers_named config listed) prepared called same with
    performs | ⟨guest, entry, linked⟩
  · exact performs
  · exact absurd linked (own guest entry)

/-- **Descriptors along a run**, on a platform whose providers leave the processes of guests alone,
or along the first host calls of one, as long as the number that is next stays a 32-bit word:
- opening a path that succeeds hands out the number that is as far from the first on as descriptors
  have been opened before, so numbers increase strictly and none is handed out twice;
- what is open is one of the standard descriptors, or a number from the first on below the next;
- closing a descriptor takes it away, and a descriptor that was open and is no longer so is never
  open again;
- reading from, writing to and closing a descriptor leave the files of all others as they are, and
  with a file how much of it has been read. -/
theorem descriptors_never_reused (aloof : platform.Aloof)
    (prepared : ((prepare platform context).run w).1 = .ok s) (invoke : Invoke)
    (limit : Option Nat) (world : World) (row : List HostCall)
    (begun : row <+: s.calls invoke limit world) (few : firstOpened + openings invoke row < 2 ^ 32) :
    (∀ before c rest, row = before ++ c :: rest → c.Performs Syscall.openPath →
      c.Succeeds invoke → c.Opens invoke (firstOpened + openings invoke before)) ∧
    (row.Pairwise fun c c' => ∀ n n', c.Opens invoke n → c'.Opens invoke n' → n < n') ∧
    (∀ c ∈ row, Numbered c.site.process ∧ Numbered (c.after invoke).process) ∧
    (∀ c ∈ row, ∀ d, c.Performs Syscall.close → Syscall.argument? c.site 0 = some d →
      (c.after invoke).process.isOpen d = false) ∧
    (row.Pairwise fun c c' => ∀ d, c.site.process.isOpen d = true →
      (c.after invoke).process.isOpen d = false →
        c'.site.process.isOpen d = false ∧ (c'.after invoke).process.isOpen d = false) ∧
    ∀ c ∈ row, ∀ call d e, Syscall.OnDescriptor call → c.Performs call →
      Syscall.argument? c.site 0 = some d → e ≠ d →
        (c.after invoke).process.file? e = c.site.process.file? e := by
  have fresh := (fresh_of_prepare prepared).start
  obtain ⟨q, handed⟩ : ∃ q, Handed invoke s.process.start row q := by
    obtain ⟨rest, whole⟩ := begun
    obtain ⟨last, handed⟩ := handed_calls invoke limit s world
    rw [← whole] at handed
    obtain ⟨q, first, -⟩ := handed.split
    exact ⟨q, first⟩
  have each : ∀ c ∈ row, Becomes c.site.process (c.after invoke).process :=
    fun c made => becomes_of_prepared aloof prepared (begun.subset made)
  have goesOn : ∀ c ∈ row, Later c.site.process (c.after invoke).process :=
    (handed.next_eq each (fresh.next_eq ▸ few)).2
  have numbered : ∀ c ∈ row, Numbered c.site.process :=
    handed.keeps (fun c made before => before.later (goesOn c made)) fresh.numbered
  -- whatever the next host call finds is later than what one has left
  have later : row.Pairwise fun c c' => Later (c.after invoke).process c'.site.process :=
    handed.pairwise Later.refl Later.trans goesOn
  refine ⟨fun before c rest eq performs succeeds => ?_, ?_, fun c made => ?_,
    fun c made d performs passed => ?_, ?_, fun c made call d e on performs passed other => ?_⟩
  · rw [eq] at handed each numbered goesOn few
    rw [openings_append] at few
    obtain ⟨r, first, found, -⟩ := handed.split
    have next := (first.next_eq (fun c' made => each c' (List.mem_append_left _ made))
      (by rw [fresh.next_eq]; omega)).1
    rw [fresh.next_eq, ← found] at next
    have here : c ∈ before ++ c :: rest := List.mem_append_right _ List.mem_cons_self
    exact next ▸ performs.opens succeeds (numbered c here) (goesOn c here)
  · refine later.imp fun {c c'} later n n' opens opens' => ?_
    have le := later.next_le
    rw [opens.next_after, opens'.next_eq] at le
    exact le
  · exact ⟨numbered c made, (numbered c made).later (goesOn c made)⟩
  · rw [performs.process_after]
    exact Syscall.isOpen_of_close passed
  · refine later.imp_of_mem fun {c c'} made made' later d opened closed => ?_
    have shut := Bool.eq_false_iff.mp closed
    have first := goesOn c made
    exact ⟨Bool.eq_false_iff.mpr ((numbered c made).not_open_later opened first shut later),
      Bool.eq_false_iff.mpr ((numbered c made).not_open_later opened first shut
        (later.trans (goesOn c' made')))⟩
  · rw [performs.process_after]
    exact on.file?_eq passed other

/-- A guest whose entry opens its output, closes it and opens it again. -/
def opener : String :=
  "(module (import \"wasi_unstable\" \"path_open\"" ++
    " (func $open (param i32 i32 i32 i32 i32 i64 i64 i32 i32) (result i32)))" ++
    " (import \"wasi_unstable\" \"fd_close\" (func $close (param i32) (result i32)))" ++
    " (memory (export \"memory\") 1) (data (i32.const 0) \"api://output\")" ++
    " (func $output (result i32) i32.const 0 i32.const 0 i32.const 0 i32.const 12 i32.const 0" ++
    " i64.const 0 i64.const 0 i32.const 0 i32.const 32 call $open)" ++
    " (func (export \"run\") (result i32)" ++
    " call $output drop i32.const 42 call $close drop call $output))"

/-- The guest as it is compiled. -/
def openerModule : Wasm.Module where
  imports := [
    ⟨"wasi_unstable", "path_open",
      .function ⟨[.i32, .i32, .i32, .i32, .i32, .i64, .i64, .i32, .i32], [.i32]⟩⟩,
    ⟨"wasi_unstable", "fd_close", .function ⟨[.i32], [.i32]⟩⟩]
  functions := #[
    ⟨⟨[], [.i32]⟩, [], [.const (.i32 0), .const (.i32 0), .const (.i32 0), .const (.i32 12),
      .const (.i32 0), .const (.i64 0), .const (.i64 0), .const (.i32 0), .const (.i32 32),
      .call 0]⟩,
    ⟨⟨[], [.i32]⟩, [], [.call 2, .drop, .const (.i32 42), .call 1, .drop, .call 2]⟩]
  exports := [("run", .function 3), ("memory", .memory 0)]
  memories := [1]
  data := [⟨0, Utf8.encode "api://output"⟩]
  start := none

/-- The world of a host that has compiled the guest, with one buffer. -/
@[irreducible]
def openerWorld : World :=
  let h := ((Host.new .default .offline 0).registerGuest "opener" (Utf8.encode opener)).2
  { h.world.create.2 with modules := .ofList [(Store.Blob.idOf (Utf8.encode opener), openerModule)] }

/-- The context of its invocation; its output is the buffer. -/
def openerContext : Context := ((Context.top "opener" "run").withMode .posix).withBuffers 0 1

/-- What is seen of a host call that is no link: the name, whether it is answered with success, the
argument in front, how many descriptors are opened, and whether 42 is open at its start. -/
def shown (invoke : Invoke) (c : HostCall) : Option (String × Bool × Option Nat × Nat × Bool) :=
  match c.function.backing with
  | .guest _ _ => none
  | .handler _ =>
    some (c.function.name,
      ((c.function.value invoke).run c.site).1.toOption == some Errno.success.code,
      Syscall.argument? c.site 0, c.openings invoke, c.site.process.isOpen 42)

theorem opener_row : (((prepare (.standard .default) openerContext).run openerWorld).1.toOption.any
    fun s =>
      (s.calls (s.invoking (.standard .default)) none openerWorld).map
        (shown (s.invoking (.standard .default))) ==
          [some ("path_open", true, some 0, 1, false),
            some ("fd_close", true, some 42, 0, true),
            some ("path_open", true, some 0, 1, false)]) = true := by
  decide +kernel

theorem of_shown {name : String} {argument : Option Nat} {opens : Nat} {opened : Bool}
    (h : shown invoke c = some (name, true, argument, opens, opened)) :
    (∀ guest entry, c.function.backing ≠ .guest guest entry) ∧ c.function.name = name ∧
      c.Succeeds invoke ∧ Syscall.argument? c.site 0 = argument ∧ c.openings invoke = opens ∧
      c.site.process.isOpen 42 = opened := by
  unfold shown at h
  cases backed : c.function.backing with
  | guest guest entry =>
    rw [backed] at h
    cases h
  | handler handler =>
    rw [backed] at h
    simp only [Option.some.injEq, Prod.mk.injEq, beq_iff_eq] at h
    obtain ⟨name, answer, rest⟩ := h
    refine ⟨nofun, name, ?_, rest⟩
    unfold Succeeds
    cases come : ((c.function.value invoke).run c.site).1 with
    | ok word =>
      rw [come] at answer
      exact congrArg Except.ok (Option.some.inj answer)
    | error e =>
      rw [come] at answer
      cases answer

/-- The guest is told 42 first, and 43 after it has closed that, which stays closed. -/
theorem descriptors_never_reused_opener : ∃ s first closing second,
    ((prepare (.standard .default) openerContext).run openerWorld).1 = .ok s ∧
    s.calls (s.invoking (.standard .default)) none openerWorld = [first, closing, second] ∧
    first.Opens (s.invoking (.standard .default)) 42 ∧
    second.Opens (s.invoking (.standard .default)) 43 ∧
    closing.site.process.isOpen 42 = true ∧
    (closing.after (s.invoking (.standard .default))).process.isOpen 42 = false ∧
    (second.after (s.invoking (.standard .default))).process.isOpen 42 = false := by
  obtain ⟨s, prepared, holds⟩ := ok_of_toOption_any opener_row
  obtain ⟨first, _, row, seen, rest⟩ := List.map_eq_cons_iff.mp (eq_of_beq holds)
  obtain ⟨closing, _, rfl, seen', rest⟩ := List.map_eq_cons_iff.mp rest
  obtain ⟨second, rfl, seen''⟩ := List.map_eq_singleton_iff.mp rest
  obtain ⟨own, name, success, -, opening, -⟩ := of_shown seen
  obtain ⟨own', name', -, argument', opening', opened'⟩ := of_shown seen'
  obtain ⟨own'', name'', success'', -, opening'', -⟩ := of_shown seen''
  have one : openings (s.invoking (.standard .default)) [first, closing] = 1 := by
    simp [openings, opening, opening']
  have two : openings (s.invoking (.standard .default)) [first, closing, second] = 2 := by
    simp [openings, opening, opening', opening'']
  obtain ⟨opens, -, -, closes, gone, -⟩ :=
    descriptors_never_reused (Platform.aloof_standard .default) prepared
      (s.invoking (.standard .default)) none openerWorld [first, closing, second]
      (row ▸ List.prefix_rfl) (by rw [two]; decide)
  have made : ∀ c ∈ [first, closing, second],
      c ∈ s.calls (s.invoking (.standard .default)) none openerWorld := fun c mem => row ▸ mem
  have opening_listed : ("path_open", _, Syscall.openPath) ∈ Syscall.calls :=
    List.mem_of_getElem? (i := 13) rfl
  have closing_listed : ("fd_close", _, Syscall.close) ∈ Syscall.calls :=
    List.mem_of_getElem? (i := 11) rfl
  have performs := performs_of_named opening_listed prepared (made first (by simp)) name own
  have performs' := performs_of_named closing_listed prepared (made closing (by simp)) name' own'
  have performs'' := performs_of_named opening_listed prepared (made second (by simp)) name'' own''
  have closed := closes closing (by simp) 42 performs' argument'
  have later := (List.pairwise_cons.mp (List.pairwise_cons.mp gone).2).1 second
    (List.mem_singleton_self _) 42 opened' closed
  refine ⟨s, first, closing, second, prepared, row, ?_, ?_, opened', closed, later.2⟩
  · exact opens [] first [closing, second] rfl performs success
  · have second := opens [first, closing] second [] rfl performs'' success''
    rwa [one] at second

/-! ## Numbers that start again -/

/-- A guest whose entry opens its output 2^32 - 41 times, and tells whether zero was stored last. -/
def looper : String :=
  "(module (import \"wasi_unstable\" \"path_open\"" ++
    " (func $open (param i32 i32 i32 i32 i32 i64 i64 i32 i32) (result i32)))" ++
    " (memory (export \"memory\") 1) (data (i32.const 0) \"api://output\")" ++
    " (func (export \"run\") (result i32) (local i32) i32.const -41 local.set 0" ++
    " loop i32.const 0 i32.const 0 i32.const 0 i32.const 12 i32.const 0 i64.const 0 i64.const 0" ++
    " i32.const 0 i32.const 32 call $open drop" ++
    " local.get 0 i32.const 1 i32.sub local.set 0 local.get 0 br_if 0 end" ++
    " i32.const 32 i32.load i32.eqz))"

/-- One turn of its loop. -/
def looperTurn : List Wasm.Instr :=
  [.const (.i32 0), .const (.i32 0), .const (.i32 0), .const (.i32 12), .const (.i32 0),
    .const (.i64 0), .const (.i64 0), .const (.i32 0), .const (.i32 32), .call 0, .drop,
    .localGet 0, .const (.i32 1), .binary32 .sub, .localSet 0, .localGet 0, .brIf 0]

/-- What it does behind its loop. -/
def looperEnd : List Wasm.Instr := [.const (.i32 32), .load .word32, .eqz32]

/-- The guest as it is compiled. -/
def looperModule : Wasm.Module where
  imports := [⟨"wasi_unstable", "path_open",
    .function ⟨[.i32, .i32, .i32, .i32, .i32, .i64, .i64, .i32, .i32], [.i32]⟩⟩]
  functions := #[
    ⟨⟨[], [.i32]⟩, [.i32], [.const (.i32 0xffffffd7), .localSet 0, .loop looperTurn] ++ looperEnd⟩]
  exports := [("run", .function 1), ("memory", .memory 0)]
  memories := [1]
  data := [⟨0, Utf8.encode "api://output"⟩]
  start := none

/-- The world of a host that has compiled the guest, with one buffer. -/
@[irreducible]
def looperWorld : World :=
  let h := ((Host.new .default .offline 0).registerGuest "looper" (Utf8.encode looper)).2
  { h.world.create.2 with
    modules := .ofList [(Store.Blob.idOf (Utf8.encode looper), looperModule)] }

/-- The context of its invocation; its output is the buffer. -/
def looperContext : Context := ((Context.top "looper" "run").withMode .posix).withBuffers 0 1

/-- The guest in front of its loop, with so many turns to go. -/
def looping (memory : Memory) (turns : UInt32) : Wasm.Machine :=
  ⟨looperModule, memory, ⟨#[.i32 turns], [], .loop looperTurn :: looperEnd, [], 1⟩,
    [⟨#[], [], [], [], 1⟩]⟩

/-- The guest at the end of its last turn. -/
def looped (memory : Memory) (turns : UInt32) : Wasm.Machine :=
  ⟨looperModule, memory,
    ⟨#[.i32 turns], [], [], [⟨0, .loop looperTurn :: looperEnd, [], looperEnd⟩], 1⟩,
    [⟨#[], [], [], [], 1⟩]⟩

/-- How the guest asks for its output. -/
def looperOpening : Syscall.Opening := ⟨0, 0, 0, 12, 0, 0, 0, 0, 32⟩

/-- The path is in memory and stands for the output, and there is room for a number. -/
structure LooperReady (memory : Memory) (w : World) : Prop where
  path : memory.textAt? 0 12 = some "api://output"
  room : memory.Holds 32 4
  live : w.registry.place? 1 = some 0

/-- What is known of the guest when it has been prepared. -/
structure LooperPrepared (s : Sandbox) (f : HostFunction) : Prop where
  context_eq : s.context = looperContext
  program_eq : s.program = looperModule
  called : s.called? 0 = some f
  backing_eq : f.backing = .handler (.native (Syscall.answered Syscall.openPath))
  result_eq : f.result = some .i32

theorem LooperReady.overwrite {memory : Memory} (h : LooperReady memory w) (n : Nat) :
    LooperReady (memory.overwrite 32 (Bytes.ofWord 4 n)) w where
  path := by
    have room : memory.Holds 32 (Bytes.ofWord 4 n).length := by
      rw [Bytes.length_ofWord]
      exact h.room
    have kept : (memory.overwrite 32 (Bytes.ofWord 4 n)).bytesAt 0 12 = memory.bytesAt 0 12 :=
      Memory.bytesAt_overwrite_of_apart room (.inl (by decide))
    rw [← h.path]
    simp only [Memory.textAt?, Memory.Holds, Memory.size_overwrite, kept]
    rfl
  room := by
    have room := h.room
    rwa [Memory.Holds, ← Memory.size_overwrite memory 32 (Bytes.ofWord 4 n)] at room
  live := h.live

variable {f : HostFunction} {memory : Memory} {around : Surroundings}

/-- What the guest shows when it asks for its output. -/
def looperSite (memory : Memory) (around : Surroundings) : Site :=
  ⟨looperOpening.passed, memory, looperContext.toInvocation, around.process, around.world⟩

theorem LooperPrepared.site_eq (h : LooperPrepared s f) (memory : Memory) (around : Surroundings) :
    s.site looperOpening.passed memory around = looperSite memory around := by
  unfold site
  rw [h.program_eq, h.context_eq]
  rfl

/-- Memory after the call. -/
def looperStored (memory : Memory) (around : Surroundings) : Memory :=
  memory.overwrite 32 (Bytes.ofWord 4 around.process.next)

/-- What is around the run after the call. -/
def looperOpened (around : Surroundings) : Surroundings :=
  { around with process := (around.process.openFile (.output 0)).2 }

/-- **The guest gets its output opened, and the number that is next is stored.** -/
theorem LooperPrepared.run_backing (h : LooperPrepared s f) (invoke : Invoke)
    (ready : LooperReady memory around.world) :
    (f.backing.run invoke).run (looperSite memory around) =
      (.ok 0, { looperSite memory around with
        process := (looperOpened around).process
        memory := looperStored memory around }) := by
  have path : (looperSite memory around).memory.textAt? 0 12 = some "api://output" := ready.path
  have file : looperOpening.file? (looperSite memory around) = some (.output 0) :=
    (congrArg (Option.bind · _) path).trans
      (congrArg Except.toOption (Syscall.fileOf_output ready.live))
  have room : (looperSite memory around).memory.Holds looperOpening.result.toNat 4 := ready.room
  have run := Syscall.Opening.perform_of_some file
  rw [if_pos room] at run
  rw [h.backing_eq, Backing.run]
  exact run

theorem LooperPrepared.run_call (h : LooperPrepared s f) (invoke : Invoke)
    (ready : LooperReady memory around.world) :
    (f.call invoke).run (looperSite memory around) =
      (.ok [.i32 0], { looperSite memory around with
        process := (looperOpened around).process
        memory := looperStored memory around }) :=
  HostFunction.run_call_of_backing (h.run_backing invoke ready) h.result_eq rfl

theorem LooperPrepared.hostCall (h : LooperPrepared s f) (invoke : Invoke)
    (ready : LooperReady memory around.world) :
    (hostCall invoke s 0 looperOpening.passed memory).run around =
      (.ok ([.i32 0], looperStored memory around), looperOpened around) := by
  unfold Sandbox.hostCall
  rw [h.called, h.program_eq]
  simp only [run_bind, run_get, h.site_eq, h.run_call invoke ready]
  rfl

/-- The guest in a turn of its loop about to ask for its output. -/
def looperAsking (memory : Memory) (turns : UInt32) : Wasm.Machine :=
  ⟨looperModule, memory,
    ⟨#[.i32 turns], looperOpening.passed.reverse, looperTurn.drop 9,
      [⟨0, .loop looperTurn :: looperEnd, [], looperEnd⟩], 1⟩,
    [⟨#[], [], [], [], 1⟩]⟩

/-- The guest in a turn of its loop while its output is opened. -/
def looperWaiting (memory : Memory) (turns : UInt32) : Wasm.Machine :=
  ⟨looperModule, memory,
    ⟨#[.i32 turns], [], looperTurn.drop 10, [⟨0, .loop looperTurn :: looperEnd, [], looperEnd⟩], 1⟩,
    [⟨#[], [], [], [], 1⟩]⟩

/-- The guest at the end of a turn of its loop, with so many turns to go. -/
def looperBranching (memory : Memory) (turns : UInt32) : Wasm.Machine :=
  ⟨looperModule, memory,
    ⟨#[.i32 turns], [.i32 turns], [.brIf 0], [⟨0, .loop looperTurn :: looperEnd, [], looperEnd⟩],
      1⟩,
    [⟨#[], [], [], [], 1⟩]⟩

/-- After the call the guest counts one turn less, and is in front of its loop again or behind its
last turn. -/
theorem callsDrive_looperWaiting (invoke : Invoke) (s : Sandbox) (fuel : Nat)
    (memory memory' : Memory) (turns : UInt32) (around : Surroundings) :
    callsDrive invoke s (fuel + 7) ((looperWaiting memory turns).resume [.i32 0] memory') around =
      callsDrive invoke s fuel
        (if turns - 1 = 0 then looped memory' (turns - 1) else looping memory' (turns - 1))
        around := by
  have counts : callsDrive invoke s (fuel + 7)
      ((looperWaiting memory turns).resume [.i32 0] memory') around =
        callsDrive invoke s (fuel + 1) (looperBranching memory' (turns - 1)) around := rfl
  have branches : (looperBranching memory' (turns - 1)).step =
      if turns - 1 = 0 then .running (looped memory' (turns - 1))
      else .running (looping memory' (turns - 1)) := rfl
  rw [counts, callsDrive, branches]
  by_cases last : turns - 1 = 0
  · rw [if_pos last, if_pos last]
  · rw [if_neg last, if_neg last]

/-- **One turn of the loop opens the output once.** -/
theorem LooperPrepared.turn (h : LooperPrepared s f) (invoke : Invoke)
    (ready : LooperReady memory around.world) (fuel : Nat) (turns : UInt32) :
    callsDrive invoke s (fuel + 18) (looping memory turns) around =
      ⟨f, looperSite memory around⟩ :: callsDrive invoke s fuel
        (if turns - 1 = 0 then looped (looperStored memory around) (turns - 1)
          else looping (looperStored memory around) (turns - 1)) (looperOpened around) := by
  -- the operands are pushed behind the beginning of the loop, then the function is called
  have pushes : callsDrive invoke s (fuel + 18) (looping memory turns) around =
      callsDrive invoke s (fuel + 8) (looperAsking memory turns) around := rfl
  have asks : (looperAsking memory turns).step =
      .calling 0 looperOpening.passed (looperWaiting memory turns) := rfl
  have same : (looperWaiting memory turns).memory = memory := rfl
  rw [pushes, callsDrive_of_calling _ asks (h.hostCall invoke ready), callAt, h.called, same]
  dsimp only
  rw [h.site_eq, List.singleton_append, callsDrive_looperWaiting]

theorem LooperPrepared.openings_eq (h : LooperPrepared s f) (invoke : Invoke)
    (ready : LooperReady memory around.world) :
    HostCall.openings invoke ⟨f, looperSite memory around⟩ = 1 := by
  unfold HostCall.openings HostCall.after
  rw [h.run_call invoke ready]
  have next : (around.process.openFile (.output 0)).2.next = (around.process.next + 1) % 2 ^ 32 :=
    rfl
  exact if_neg (show ¬ (around.process.openFile (.output 0)).2.next = around.process.next by omega)

/-- **Turns of the loop open the output, one each.** -/
theorem LooperPrepared.turns (h : LooperPrepared s f) (invoke : Invoke)
    (ready : LooperReady memory around.world) (word : around.process.next < 2 ^ 32)
    (fuel left n : Nat) (more : 0 < left) (few : left + n < 2 ^ 32) :
    ∃ row memory' around', LooperReady memory' around'.world ∧
      callsDrive invoke s (fuel + 18 * n) (looping memory (UInt32.ofNat (left + n))) around =
        row ++ callsDrive invoke s fuel (looping memory' (UInt32.ofNat left)) around' ∧
      openings invoke row = n ∧
      around'.process.next = (around.process.next + n) % 2 ^ 32 := by
  induction n generalizing memory around with
  | zero => exact ⟨[], memory, around, ready, rfl, rfl, (Nat.mod_eq_of_lt word).symm⟩
  | succ n ih =>
    have turn := h.turn invoke ready (fuel + 18 * n) (UInt32.ofNat (left + (n + 1)))
    have less : UInt32.ofNat (left + (n + 1)) - 1 = UInt32.ofNat (left + n) :=
      ofNat_succ_sub_one (left + n)
    have goesOn : UInt32.ofNat (left + n) ≠ 0 :=
      ofNat_ne_zero (by omega) (by simp only [maxWord]; omega)
    rw [less, if_neg goesOn] at turn
    have opened : LooperReady (looperStored memory around) (looperOpened around).world :=
      ready.overwrite around.process.next
    obtain ⟨row, memory', around', ready', drive, opens, next⟩ :=
      ih opened (Nat.mod_lt _ (by decide)) (by omega)
    refine ⟨_ :: row, memory', around', ready', turn.trans (congrArg _ drive), ?_, ?_⟩
    · rw [openings_cons, opens, h.openings_eq invoke ready, Nat.add_comm]
    · have wraps : (looperOpened around).process.next = (around.process.next + 1) % 2 ^ 32 := rfl
      rw [next, wraps, Nat.mod_add_mod, Nat.add_assoc, Nat.add_comm 1]

/-- The guest about to load the number that was stored last. -/
def looperLoading (memory : Memory) (turns : UInt32) : Wasm.Machine :=
  ⟨looperModule, memory, ⟨#[.i32 turns], [.i32 32], [.load .word32, .eqz32], [], 1⟩,
    [⟨#[], [], [], [], 1⟩]⟩

/-- Behind its last turn the guest calls nothing. -/
theorem callsDrive_looped (invoke : Invoke) (s : Sandbox) (fuel : Nat) (memory : Memory)
    (turns : UInt32) (around : Surroundings) :
    callsDrive invoke s (fuel + 6) (looped memory turns) around = [] := by
  have loads : callsDrive invoke s (fuel + 6) (looped memory turns) around =
      callsDrive invoke s (fuel + 4) (looperLoading memory turns) around := rfl
  rw [loads, callsDrive]
  unfold looperLoading Wasm.Machine.step
  dsimp only
  -- the body of `run`, of which this is one of very many cases
  delta Wasm.Machine.run
  dsimp only
  cases Wasm.Load.word32.read? memory (UInt32.toNat 32) with
  | none => rfl
  | some value => cases value <;> rfl

/-- Whether a function is the system call that the guest imports. -/
def looperBound (f : HostFunction) : Bool :=
  f.name == "path_open" && f.result == some .i32 &&
    match f.backing with
    | .handler _ => true
    | .guest _ _ => false

theorem looper_prepares :
    (((prepare (.standard .default) looperContext).run looperWorld).1.toOption.any fun s =>
      (s.called? 0).any looperBound && (s.program.imports.findSome? s.misfit?).isNone) = true := by
  decide +kernel

theorem looper_resolves : (Loading.resolve looperWorld.shelf "looper").toOption =
    some (Store.Blob.idOf (Utf8.encode looper)) := by
  decide +kernel

theorem looper_live : looperWorld.registry.place? 1 = some 0 := by
  decide +kernel

/-- The guest loaded from the world that has compiled it. -/
theorem looper_loads {program : Wasm.Module}
    (loads : ((Loading.load "looper").run looperWorld).1 = .ok program) :
    program = looperModule := by
  have id : Loading.resolve looperWorld.shelf "looper" =
      .ok (Store.Blob.idOf (Utf8.encode looper)) := toOption_eq_some_iff.mp looper_resolves
  have kept : looperWorld.modules.find? (Store.Blob.idOf (Utf8.encode looper)) =
      some looperModule := by
    unfold looperWorld
    refine (Table.find?_ofList _ _).trans ?_
    simp
  rw [Loading.run_load_of_kept id kept] at loads
  exact (Except.ok.inj loads).symm

theorem looper_prepared
    (prepared : ((prepare (.standard .default) looperContext).run looperWorld).1 = .ok s)
    (called : s.called? 0 = some f) (known : looperBound f = true) : LooperPrepared s f := by
  unfold looperBound at known
  simp only [Bool.and_eq_true, beq_iff_eq] at known
  obtain ⟨⟨name, result⟩, own⟩ := known
  have listed : ("path_open", _, Syscall.openPath) ∈ Syscall.calls :=
    List.mem_of_getElem? (i := 13) rfl
  obtain ⟨reaches, context⟩ := reaches_of_prepare prepared
  refine ⟨context, looper_loads reaches.loads, called, ?_, result⟩
  rcases offered_called (Platform.offers_named .default listed) prepared called name with
    performs | ⟨guest, entry, linked⟩
  · exact performs
  · rw [linked] at own
    cases own

/-- What the guest starts with in its memory. -/
def looperMemory : Memory := (Memory.zeros Wasm.pageSize).overwrite 0 (Utf8.encode "api://output")

theorem LooperPrepared.calls_eq (h : LooperPrepared s f) (invoke : Invoke)
    (fits : s.program.imports.findSome? s.misfit? = none) (fuel : Nat) (world : World) :
    callsEntry invoke s (fuel + 3) (s.surroundings world) =
      callsDrive invoke s fuel (looping looperMemory 0xffffffd7) (s.surroundings world) := by
  have loaded : s.loaded = .ok looperMemory := by
    unfold Sandbox.loaded
    rw [fits, h.program_eq]
    rfl
  have entry : s.entry looperMemory = .ok (.start looperModule looperMemory 1 []) := by
    unfold Sandbox.entry
    rw [h.program_eq, h.context_eq]
    rfl
  have start : s.program.start = none := by rw [h.program_eq]; rfl
  unfold callsEntry callsStart instantiate
  rw [loaded, start]
  dsimp only
  have run : (pure ⟨fuel + 3, [], looperMemory⟩ : Running Rest).run (s.surroundings world) =
      (.ok ⟨fuel + 3, [], looperMemory⟩, s.surroundings world) := rfl
  rw [run, List.nil_append]
  dsimp only
  rw [entry]
  rfl

/-- **Numbers start again.** A guest that opens its output fewer than 2^32 times is told zero in the
end. -/
theorem numbers_start_again : ∃ s,
    ((prepare (.standard .default) looperContext).run looperWorld).1 = .ok s ∧ ∀ invoke,
      let row := s.calls invoke none looperWorld
      openings invoke row < 2 ^ 32 ∧
      ∃ c ∈ row, c.Performs Syscall.openPath ∧ c.Succeeds invoke ∧
        Syscall.argument? c.site 8 = some 32 ∧ (c.after invoke).memory.readWord 4 32 = .ok 0 ∧
        (c.after invoke).process.file? 0 = some (.output 0) := by
  obtain ⟨s, prepared, holds⟩ := ok_of_toOption_any looper_prepares
  obtain ⟨imported, fits⟩ := Bool.and_eq_true_iff.mp holds
  obtain ⟨f, called, known⟩ := (Option.any_eq_true _ _).mp imported
  have h : LooperPrepared s f := looper_prepared prepared called known
  have first : (s.surroundings looperWorld).process.next = firstOpened :=
    (fresh_of_prepare prepared).start.next_eq
  obtain ⟨fuel, whole⟩ : ∃ fuel, unlimited = fuel + 6 + 18 + 18 * 4294967254 + 3 :=
    ⟨4611685941117977305, rfl⟩
  refine ⟨s, prepared, fun invoke => ?_⟩
  have begins : LooperReady looperMemory (s.surroundings looperWorld).world :=
    ⟨by decide +kernel, by decide +kernel, looper_live⟩
  -- all turns but the last, which finds zero next
  obtain ⟨row, memory, around, ready, drive, opens, next⟩ :=
    h.turns invoke begins (by rw [first]; decide) (fuel + 6 + 18) 1 4294967254 (by decide)
      (by decide)
  rw [first] at next
  have zero : around.process.next = 0 := next
  have last : callsDrive invoke s (fuel + 6 + 18) (looping memory 1) around =
      [⟨f, looperSite memory around⟩] :=
    (h.turn invoke ready (fuel + 6) 1).trans (congrArg _ (callsDrive_looped invoke s fuel _ _ _))
  have calls : s.calls invoke none looperWorld = row ++ [⟨f, looperSite memory around⟩] := by
    have starts := h.calls_eq invoke (Option.isNone_iff_eq_none.mp fits)
      (fuel + 6 + 18 + 18 * 4294967254) looperWorld
    rw [← whole] at starts
    exact starts.trans (drive.trans (congrArg _ last))
  have after : HostCall.after invoke ⟨f, looperSite memory around⟩ = _ :=
    congrArg Prod.snd (h.run_call invoke ready)
  rw [calls]
  refine ⟨?_, ⟨f, looperSite memory around⟩, List.mem_append_right _ (List.mem_singleton_self _),
    h.backing_eq, HostFunction.value_of_run (congrArg Prod.fst (h.run_backing invoke ready)), rfl,
    ?_, ?_⟩
  · rw [openings_append, opens, openings_cons, h.openings_eq invoke ready]
    exact (by decide : 4294967254 + (1 + 0) < 2 ^ 32)
  · rw [after, ← zero]
    exact Memory.readWord_overwrite ready.room (by rw [zero]; decide)
  · rw [after]
    exact (file?_withFile _ _ _ _).trans (if_pos zero.symm)

end Sandbox

end GuestHost
