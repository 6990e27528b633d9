import GuestHost.Proofs.Posix.Runs
import GuestHost.Proofs.Sandbox.Endings
/-!
# The life cycle of a process

A process is bound when a module of its guest is resolved to the POSIX layer, it runs from the start
of the run on, and it has exited once its guest has asked for that. All that a host call can do to
the stage of a process is to exit, `HostCall.stays_or_exits`, which also ends the run. Hence all
host calls of a run find the stage that the run began with, `Sandbox.Handed.ends`, and the process
of a guest and the context of its invocation agree on how the run ended, `Sandbox.life_cycle`.
-/

namespace GuestHost

open Stateful Posix Posix.Process

/-! ## Stages -/

/-- How the stage of a process changes from the time on that its guest has been prepared. -/
inductive Posix.Stage.Next : Stage → Stage → Prop where
  | same (stage : Stage) : Next stage stage
  | starts : Next .bound .running
  | exits (code : Int32) : Next .running (.exited code)

/-- **Nothing leads out of an exit.** -/
theorem Posix.Stage.Next.of_exited {code : Int32} {stage : Stage}
    (next : Next (.exited code) stage) : stage = .exited code := by
  cases next
  rfl

/-- A run starts a process that is bound, and no other. -/
theorem Posix.Process.next_stage_start (p : Process) : Stage.Next p.stage p.start.stage := by
  unfold start
  split
  · rename_i bound
    rw [bound]
    exact .starts
  · exact .same _

/-- A host call that leaves the stage of its guest's process as it is and does not end the guest by
an exit. -/
structure Call.Stays {α : Type} (x : Call α) : Prop where
  stage_eq : ∀ site, (x.run site).2.process.stage = site.process.stage
  not_exit : ∀ site code, (x.run site).1 ≠ .error (.exit code)

theorem Call.stays_of_quiet {α : Type} {x : Call α} (aloof : x.Aloof) (quiet : x.Quiet) :
    x.Stays where
  stage_eq site := by rw [aloof site]
  not_exit site code failed := quiet site _ failed

/-- A 32-bit argument is read with its sign, or the call fails for the want of it. -/
theorem Call.run_signed (index : Nat) (site : Site) :
    (∃ word, site.arguments[index]? = some (.i32 word) ∧
      (signed index).run site = (.ok word.toInt32, site)) ∨
    (∀ word, site.arguments[index]? ≠ some (.i32 word)) ∧
      ∃ e : CallError, e.Misread ∧ (signed index).run site = (.error e, site) := by
  unfold signed Call.word argument
  simp only [run_bind, run_get]
  cases site.arguments[index]? with
  | none => exact .inr ⟨nofun, .fatal (.missingArgument index), trivial, rfl⟩
  | some value =>
    cases value with
    | i32 word =>
      refine .inl ⟨word, rfl, ?_⟩
      show (Except.ok (UInt32.ofNat word.toNat).toInt32, site) = _
      rw [UInt32.ofNat_toNat]
    | _ => exact .inr ⟨nofun, .fatal (.argument index _ .i32), trivial, rfl⟩

namespace Posix.Syscall

theorem stays_answered {named : String × Signature × Call Errno} (listed : named ∈ calls) :
    (answered named.2.2).Stays where
  stage_eq site := by rw [site_answered, stage_calls named listed]
  not_exit site code failed := by
    have tame := tame_calls World.steady_true named listed
    rcases run_answered tame site trivial with ⟨errno, well⟩ | ⟨e, fault, misread, -⟩
    · cases well.symm.trans failed
    · cases fault.symm.trans failed
      exact misread

/-- **The system call that ends a guest** moves its process to the exit with the code that it is
given, and fails; without a code it does nothing. -/
theorem run_exit (site : Site) :
    (∃ word, site.arguments[0]? = some (.i32 word) ∧ exit.run site =
      (.error (.exit word.toInt32), { site with process := site.process.exit word.toInt32 })) ∨
    (∀ word, site.arguments[0]? ≠ some (.i32 word)) ∧
      ∃ e : CallError, e.Misread ∧ exit.run site = (.error e, site) := by
  unfold exit
  rw [run_bind]
  rcases Call.run_signed 0 site with ⟨word, given, run⟩ | ⟨missing, e, misread, run⟩
  · rw [run]
    exact .inl ⟨word, given, rfl⟩
  · rw [run]
    exact .inr ⟨missing, e, misread, rfl⟩

end Posix.Syscall

/-! ## What platforms offer -/

/-- What stands behind a host function leaves the stage of its guest's process as it is and does not
end the guest by an exit. -/
def HostFunction.Stays (f : HostFunction) : Prop :=
  ∀ call, f.backing = .handler (.native call) → call.Stays

theorem HostFunction.stays_of_native {f : HostFunction} {call : Call UInt32}
    (native : f.backing = .handler (.native call)) (stays : call.Stays) : f.Stays := by
  intro other same
  cases native.symm.trans same
  exact stays

theorem HostFunction.stays_of_stub {f : HostFunction} {module name : String}
    (stub : f.backing = .handler (.stub module name)) : f.Stays := by
  refine f.stays_of_native stub ⟨fun site => rfl, fun site code failed => ?_⟩
  cases failed

/-- The providers of a platform never end a guest by an exit. -/
def Platform.NeverExits (platform : Platform) : Prop :=
  ∀ module provider, platform.providers.find? module = some provider →
    provider.plan.Offers fun f => ∀ call, f.backing = .handler (.native call) →
      ∀ site code, (call.run site).1 ≠ .error (.exit code)

/-- The core functions never end a guest by an exit. -/
theorem Platform.neverExits_standard (config : Config) : (standard config).NeverExits := by
  intro module provider found
  refine (candid_standard config module provider found).mono
    fun module name type result handler candid call native site code failed => ?_
  rcases candid call native with quiet | stub
  · exact quiet site _ failed
  · cases native.symm.trans stub
    cases failed

/-- **Of the resolvers only the POSIX layer binds a function that changes the stage of a
process.** -/
theorem Resolver.offers_stays {platform : Platform} (aloof : platform.Aloof)
    (never : platform.NeverExits) {resolver : Resolver} (other : resolver ≠ posix) :
    resolver.Offers HostFunction.Stays platform := by
  cases resolver with
  | provider =>
    intro module provider found
    refine ((aloof module provider found).and (never module provider found)).mono
      fun module name type result handler offered call native => ?_
    have leaves := offered.1 call native
    exact ⟨fun site => by rw [leaves site], offered.2 call native⟩
  | link => exact fun module name type signature guest _ _ call native => nomatch native
  | posix => exact absurd rfl other
  | managed =>
    intro names
    refine (Managed.offers_typed names).mono fun module name type result handler offered => ?_
    rcases offered with typed | typed | ⟨stub, -⟩
    · exact HostFunction.stays_of_native typed.backing_eq
        (Call.stays_of_quiet (Call.aloof_pure _) (FailsAs.pure _))
    · exact HostFunction.stays_of_native typed.backing_eq
        (Call.stays_of_quiet Managed.aloof_write (Managed.tame_write World.steady_true.calm).quiet)
    · exact HostFunction.stays_of_stub stub

/-- **Of the functions of the POSIX layer only the one that ends a guest does.** -/
theorem Posix.offers_stays (names : List String) : (Posix.provider names).plan.Offers fun f =>
    f.Stays ∨ f.backing = .handler (.native Syscall.exit) := by
  refine (offers_typed names).mono fun module name type result handler offered => ?_
  rcases offered with ⟨call, listed, typed⟩ | typed | ⟨stub, -⟩
  · exact .inl (HostFunction.stays_of_native typed.backing_eq (Syscall.stays_answered listed))
  · exact .inr typed.backing_eq
  · exact .inl (HostFunction.stays_of_stub stub)

/-! ## Host calls -/

namespace HostCall

variable {invoke : Invoke} {c : HostCall}

/-- A host call leaves the stage of its guest's process as it is and does not end the guest by an
exit. -/
structure Stays (invoke : Invoke) (c : HostCall) : Prop where
  stage_eq : (c.after invoke).process.stage = c.site.process.stage
  not_exit : ∀ code, c.outcome invoke ≠ .error (.exit code)

/-- A host call ends its guest with a code: it is the system call for that, it moves the process to
the exit, and it fails with the code. -/
structure Exits (invoke : Invoke) (code : Int32) (c : HostCall) : Prop where
  backing_eq : c.function.backing = .handler (.native Syscall.exit)
  argument_eq : ∃ word, c.site.arguments[0]? = some (.i32 word) ∧ word.toInt32 = code
  process_eq : (c.after invoke).process = c.site.process.exit code
  outcome_eq : c.outcome invoke = .error (.exit code)

/-- An exit that a host call ends with comes from the function itself. -/
theorem exit_of_native {code : Int32} (failed : c.outcome invoke = .error (.exit code)) :
    ∃ call, c.function.backing = .handler (.native call) ∧
      (call.run c.site).1 = .error (.exit code) := by
  rcases HostFunction.value_error_cases (value_of_outcome failed id) with
    behind | misread | ⟨_, _, _, _, _, never⟩
  · exact behind
  · exact misread.elim
  · cases never

theorem stays_of_function (stays : c.function.Stays) : c.Stays invoke where
  stage_eq := by
    obtain ⟨w, left⟩ := c.function.exists_site_call invoke c.site
    rw [after, left]
    show ((c.function.backing.run invoke).run c.site).2.process.stage = _
    cases backed : c.function.backing with
    | guest guest entry => rw [Backing.run, Nesting.aloof_link invoke guest entry c.site]
    | handler handler =>
      cases handler with
      | native call => exact (stays call backed).stage_eq c.site
      | callFunction => rw [Backing.run, Nesting.aloof_byName invoke c.site]
  not_exit code failed := by
    obtain ⟨call, native, behind⟩ := exit_of_native failed
    exact (stays call native).not_exit c.site code behind

/-- **The system call that ends a guest ends it with its argument.** -/
theorem exits_of_argument (exits : c.function.backing = .handler (.native Syscall.exit))
    {word : UInt32} (given : c.site.arguments[0]? = some (.i32 word)) :
    c.Exits invoke word.toInt32 := by
  rcases Syscall.run_exit c.site with ⟨word', given', run⟩ | ⟨missing, -⟩
  · cases given.symm.trans given'
    have behind : (c.function.backing.run invoke).run c.site =
        (.error (.exit word.toInt32),
          { c.site with process := c.site.process.exit word.toInt32 }) := by
      rw [exits, Backing.run, run]
    refine ⟨exits, ⟨word, given, rfl⟩, ?_, ?_⟩
    · obtain ⟨w, left⟩ := c.function.exists_site_call invoke c.site
      rw [after, left, behind]
    · refine c.function.call_of_error (HostFunction.value_eq_error_iff.mpr ⟨?_, id⟩)
      rw [behind]
  · exact absurd given (missing word)

/-- **A host call leaves the stage of its guest's process as it is, or it ends the guest.** -/
theorem stays_or_exits
    (h : c.function.Stays ∨ c.function.backing = .handler (.native Syscall.exit)) :
    c.Stays invoke ∨ ∃ code, c.Exits invoke code := by
  rcases h with stays | exits
  · exact .inl (stays_of_function stays)
  · rcases Syscall.run_exit c.site with ⟨word, given, -⟩ | ⟨-, e, misread, run⟩
    · exact .inr ⟨_, exits_of_argument exits given⟩
    · refine .inl ⟨?_, fun code failed => ?_⟩
      · obtain ⟨w, left⟩ := c.function.exists_site_call invoke c.site
        rw [after, left, exits, Backing.run, run]
      · obtain ⟨call, native, behind⟩ := exit_of_native failed
        cases native.symm.trans exits
        rw [run] at behind
        cases behind
        exact misread

end HostCall

namespace Sandbox

variable {platform : Platform} {context : Context} {w : World} {s : Sandbox} {invoke : Invoke}
  {limit : Option Nat} {world : World} {p q : Posix.Process} {row : List HostCall} {c : HostCall}

/-! ## The stage at the start -/

theorem stage_processOf (p : Posix.Process) (module : String) :
    (Resolver.processOf platform context w p module).stage =
      if Resolver.first? platform context w module = some .posix then .bound else p.stage := by
  unfold Resolver.processOf
  cases Resolver.first? platform context w module with
  | none => rfl
  | some resolver =>
    cases resolver with
    | posix =>
      unfold Resolver.processAfter Posix.Process.bind
      split <;> split <;> rfl
    | _ => rfl

/-- Settling modules binds the process if the POSIX layer settles one of them. -/
theorem stage_foldl (entries : List (String × Table String Wasm.FuncType)) (p : Posix.Process) :
    (entries.foldl (fun p e => Resolver.processOf platform context w p e.1) p).stage =
      if ∃ e ∈ entries, Resolver.first? platform context w e.1 = some .posix then .bound
      else p.stage := by
  induction entries generalizing p with
  | nil => simp
  | cons e rest ih =>
    rw [List.foldl_cons, ih, stage_processOf]
    by_cases later : ∃ e ∈ rest, Resolver.first? platform context w e.1 = some .posix
    · rw [if_pos later, if_pos]
      exact List.exists_mem_cons_of_exists later
    · simp [later]

/-- The guest imports a module that was resolved to the POSIX layer. -/
def UsesPosix (platform : Platform) (context : Context) (w : World) (s : Sandbox) : Prop :=
  ∃ module, Resolver.Imported s.program module ∧
    Resolver.first? platform context w module = some .posix

/-- **Preparing a guest binds its process** if it uses the POSIX layer, and only then. -/
theorem stage_of_prepare (prepared : ((prepare platform context).run w).1 = .ok s) :
    (s.UsesPosix platform context w → s.process.stage = .bound) ∧
      (¬ s.UsesPosix platform context w → s.process.stage = .unbound) := by
  obtain ⟨imports, collected, functions, process⟩ := process_of_prepare prepared
  have settled : s.UsesPosix platform context w ↔
      ∃ e ∈ imports.entries, Resolver.first? platform context w e.1 = some .posix := by
    constructor
    · rintro ⟨module, imported, first⟩
      exact ⟨(module, _), (Resolver.mem_entries_iff functions collected).mpr ⟨imported, rfl⟩, first⟩
    · rintro ⟨⟨module, types⟩, entry, first⟩
      exact ⟨module, ((Resolver.mem_entries_iff functions collected).mp entry).1, first⟩
  rw [process, stage_foldl, settled]
  exact ⟨fun uses => if_pos uses, fun uses => if_neg uses⟩

/-! ## The stage along a run -/

/-- Where every host call leaves the stage as it is or ends the guest, and none is made after one
that has failed, all of them find the stage of the start, and the last stage tells whether the last
of them has ended the guest. -/
theorem Handed.ends (handed : Handed invoke p row q)
    (each : ∀ c ∈ row, c.Stays invoke ∨ ∃ code, c.Exits invoke code)
    (stops : ∀ before c rest e, row = before ++ c :: rest → c.outcome invoke = .error e →
      rest = []) :
    (∀ c ∈ row, c.site.process.stage = p.stage) ∧
      ((∀ c ∈ row, c.Stays invoke) ∧ q.stage = p.stage ∨
        ∃ before c code, row = before ++ [c] ∧ c.Exits invoke code ∧ q.stage = .exited code) := by
  induction row generalizing p with
  | nil =>
    refine ⟨fun c never => absurd never List.not_mem_nil, .inl ⟨fun c never => ?_, ?_⟩⟩
    · exact absurd never List.not_mem_nil
    · rw [show q = p from handed]
  | cons c rest ih =>
    obtain ⟨rfl, handed⟩ := handed
    obtain ⟨here, each⟩ := List.forall_mem_cons.mp each
    rcases here with stays | ⟨code, exits⟩
    · obtain ⟨found, ending⟩ := ih handed each fun before c' rest' e eq =>
        stops (c :: before) c' rest' e (congrArg (c :: ·) eq)
      rw [stays.stage_eq] at found ending
      refine ⟨List.forall_mem_cons.mpr ⟨rfl, found⟩, ?_⟩
      rcases ending with ⟨still, last⟩ | ⟨before, c', code, rfl, exits, last⟩
      · exact .inl ⟨List.forall_mem_cons.mpr ⟨stays, still⟩, last⟩
      · exact .inr ⟨c :: before, c', code, rfl, exits, last⟩
    · obtain rfl : rest = [] := stops [] c rest _ rfl exits.outcome_eq
      refine ⟨fun c' mem => by rw [List.mem_singleton.mp mem], .inr ⟨[], c, code, rfl, exits, ?_⟩⟩
      rw [show q = (c.after invoke).process from handed, exits.process_eq]
      rfl

/-- The stages along a run follow one another as those before and after each host call do. -/
theorem Handed.chain (handed : Handed invoke p row q)
    (each : ∀ c ∈ row, Stage.Next c.site.process.stage (c.after invoke).process.stage) :
    List.IsChain Stage.Next (p.stage :: row.map fun c => (c.after invoke).process.stage) := by
  induction row generalizing p with
  | nil => exact .singleton _
  | cons c rest ih =>
    obtain ⟨rfl, handed⟩ := handed
    obtain ⟨here, each⟩ := List.forall_mem_cons.mp each
    exact .cons_cons here (ih handed each)

theorem Handed.getLast?_eq (handed : Handed invoke p row q) :
    (p.stage :: row.map fun c => (c.after invoke).process.stage).getLast? = some q.stage := by
  induction row generalizing p with
  | nil => rw [show q = p from handed, List.map_nil, List.getLast?_singleton]
  | cons c rest ih =>
    rw [List.map_cons, List.getLast?_cons_cons]
    exact ih handed.2

/-- A run makes no host call after one that has failed. -/
theorem Goes.eq_nil_of_error {α : Type} {around after : Surroundings} {before rest : List HostCall}
    {out : Except CallError α} {e : CallError}
    (goes : Goes invoke s around (before ++ c :: rest) out after)
    (failed : c.outcome invoke = .error e) : rest = [] := by
  generalize split : before ++ c :: rest = row at goes
  induction goes generalizing before with
  | ends | faults =>
    exact absurd split (List.append_ne_nil_of_right_ne_nil _ (List.cons_ne_nil _ _))
  | fails =>
    cases before with
    | nil =>
      cases split
      rfl
    | cons first before => simp at split
  | goesOn made answered left later ih =>
    cases before with
    | nil =>
      cases split
      cases answered.symm.trans failed
    | cons first before =>
      cases split
      exact ih rfl

/-- What a host call of a guest that has been prepared can do to the stage of its process. Only a
function of the POSIX layer can end the guest. -/
theorem stays_or_exits_of_prepared (aloof : platform.Aloof) (never : platform.NeverExits)
    (prepared : ((prepare platform context).run w).1 = .ok s)
    (made : c ∈ s.calls invoke limit world) :
    c.Stays invoke ∨ Resolver.first? platform context w c.function.module = some .posix ∧
      ∃ code, c.Exits invoke code := by
  obtain ⟨around, ⟨index, called⟩, -⟩ := (goes_callEntry _ _ _ _).makes made
  obtain ⟨resolver, first, -, offered⟩ := offered_resolver prepared called
  by_cases other : resolver = .posix
  · subst other
    exact (HostCall.stays_or_exits (offered _ Posix.offers_stays)).imp_right fun exits =>
      ⟨first, exits⟩
  · exact .inl (HostCall.stays_of_function (offered _ (Resolver.offers_stays aloof never other)))

theorem usesPosix_of_call (prepared : ((prepare platform context).run w).1 = .ok s)
    (made : c ∈ s.calls invoke limit world)
    (first : Resolver.first? platform context w c.function.module = some .posix) :
    s.UsesPosix platform context w := by
  obtain ⟨around, ⟨index, called⟩, -⟩ := (goes_callEntry _ _ _ _).makes made
  obtain ⟨resolver, -, imported, -⟩ := offered_resolver prepared called
  exact ⟨_, imported, first⟩

/-- A run starts in one of two stages. -/
theorem stage_start_of_prepare (prepared : ((prepare platform context).run w).1 = .ok s) :
    (s.UsesPosix platform context w → s.process.start.stage = .running) ∧
      (¬ s.UsesPosix platform context w → s.process.start.stage = .unbound) := by
  obtain ⟨bound, unbound⟩ := stage_of_prepare prepared
  unfold Posix.Process.start
  exact ⟨fun uses => by rw [bound uses], fun unused => by rw [unbound unused, unbound unused]⟩

/-- The process of a guest at the end of a run. -/
def lastProcess (invoke : Invoke) (limit : Option Nat) (s : Sandbox) (world : World) :
    Posix.Process :=
  ((callEntry invoke s (limit.getD unlimited)).run (s.surroundings world)).2.process

/-- The stages that the process of a guest goes through: as the guest was prepared, as the run
starts, and as each host call leaves it. -/
def stages (invoke : Invoke) (limit : Option Nat) (s : Sandbox) (world : World) : List Stage :=
  s.process.stage :: s.process.start.stage ::
    (s.calls invoke limit world).map fun c => (c.after invoke).process.stage

/-- The context of a run as its owner holds it afterwards: a run that failed has not changed it. -/
def left (invoke : Invoke) (limit : Option Nat) (s : Sandbox) (world : World) : Context :=
  match ((s.run invoke limit).run world).1 with
  | .ok c => c
  | .error _ => s.context

/-- How the process of a guest that has been prepared goes through a run. -/
theorem ends_of_prepared (aloof : platform.Aloof) (never : platform.NeverExits)
    (prepared : ((prepare platform context).run w).1 = .ok s) (invoke : Invoke)
    (limit : Option Nat) (world : World) :
    (∀ c ∈ s.calls invoke limit world, c.site.process.stage = s.process.start.stage) ∧
      ((∀ c ∈ s.calls invoke limit world, c.Stays invoke) ∧
          (s.lastProcess invoke limit world).stage = s.process.start.stage ∨
        ∃ before c code, s.calls invoke limit world = before ++ [c] ∧ c.Exits invoke code ∧
          (s.lastProcess invoke limit world).stage = .exited code) := by
  have handed := handed_callEntry invoke s (limit.getD unlimited) (s.surroundings world)
  have goes := goes_callEntry invoke s (limit.getD unlimited) (s.surroundings world)
  refine handed.ends (fun c made => ?_) fun before c rest e eq failed => ?_
  · exact (stays_or_exits_of_prepared aloof never prepared made).imp_right And.right
  · rw [eq] at goes
    exact goes.eq_nil_of_error failed

/-- **The process of a guest has exited at the end of a run** exactly if a host call has ended the
run by an exit. -/
theorem exited_lastProcess_iff (aloof : platform.Aloof) (never : platform.NeverExits)
    (prepared : ((prepare platform context).run w).1 = .ok s) {code : Int32} :
    (s.lastProcess invoke limit world).stage = .exited code ↔
      ∃ c, s.EndedBy invoke limit world c (.exit code) := by
  obtain ⟨-, ending⟩ := ends_of_prepared aloof never prepared invoke limit world
  rcases ending with ⟨still, last⟩ | ⟨before, c, code', row, exits, last⟩
  · refine iff_of_false (fun exited => ?_) fun ⟨c, made, failed⟩ => ?_
    · obtain ⟨running, unbound⟩ := stage_start_of_prepare prepared
      rw [last] at exited
      by_cases uses : s.UsesPosix platform context w
      · cases (running uses).symm.trans exited
      · cases (unbound uses).symm.trans exited
    · exact (still c (List.mem_of_getLast? made)).not_exit code failed
  · have final : (s.calls invoke limit world).getLast? = some c := by
      rw [row, List.getLast?_concat]
    rw [last]
    constructor
    · rintro ⟨⟩
      exact ⟨c, final, exits.outcome_eq⟩
    · rintro ⟨c', made, failed⟩
      cases made.symm.trans final
      cases failed.symm.trans exits.outcome_eq
      rfl

/-- A context that has no exit code gets one from a run exactly if a host call of it exits. -/
theorem exitCode_left_iff (fresh : s.context.exitCode = none) {code : Int32} :
    (s.left invoke limit world).exitCode = some code ↔
      ∃ c, s.EndedBy invoke limit world c (.exit code) := by
  unfold left
  constructor
  · intro told
    cases come : ((s.run invoke limit).run world).1 with
    | error e =>
      rw [come] at told
      cases fresh.symm.trans told
    | ok r =>
      rw [come] at told
      rcases (run_ok_iff r).mp come with ⟨value, -, rfl⟩ | ⟨c, code', ended, rfl⟩
      · cases fresh.symm.trans told
      · cases told
        exact ⟨c, ended⟩
  · rintro ⟨c, ended⟩
    rw [(run_ok_iff (s.context.exited code)).mpr (.inr ⟨c, code, ended, rfl⟩)]
    rfl

/-- **The life cycle of a process**, on a platform whose providers leave the processes of guests
alone and never end a guest by an exit:
- a guest that has been prepared has a bound process if one of the modules that it imports was
  resolved to the POSIX layer, and an unbound one otherwise;
- the functions of the POSIX layer, whether the start function or the entry calls them, find the
  process running;
- the system call that ends the guest moves the process to the exit with its argument, and no host
  call of the run comes after it;
- the stages follow one another as they should, and so nothing leads out of an exit;
- a context that had no exit code has one after the run exactly if the process has exited with
  it. -/
theorem life_cycle (aloof : platform.Aloof) (never : platform.NeverExits)
    (fresh : context.exitCode = none) (prepared : ((prepare platform context).run w).1 = .ok s)
    (invoke : Invoke) (limit : Option Nat) (world : World) :
    let row := s.calls invoke limit world
    let last := s.lastProcess invoke limit world
    (s.UsesPosix platform context w → s.process.stage = .bound) ∧
    (¬ s.UsesPosix platform context w → s.process.stage = .unbound) ∧
    (∀ c ∈ row, Resolver.first? platform context w c.function.module = some .posix →
      c.site.process.stage = .running) ∧
    (∀ before c rest word, row = before ++ c :: rest →
      c.function.backing = .handler (.native Syscall.exit) →
      c.site.arguments[0]? = some (.i32 word) →
      c.Exits invoke word.toInt32 ∧ rest = [] ∧ last.stage = .exited word.toInt32) ∧
    (s.stages invoke limit world).IsChain Stage.Next ∧
    (s.stages invoke limit world).getLast? = some last.stage ∧
    ∀ code, (s.left invoke limit world).exitCode = some code ↔ last.stage = .exited code := by
  intro row last
  obtain ⟨bound, unbound⟩ := stage_of_prepare prepared
  obtain ⟨found, -⟩ := ends_of_prepared aloof never prepared invoke limit world
  have running : ∀ c ∈ row, Resolver.first? platform context w c.function.module = some .posix →
      c.site.process.stage = .running := fun c made first =>
    (found c made).trans
      ((stage_start_of_prepare prepared).1 (usesPosix_of_call prepared made first))
  have handed := handed_callEntry invoke s (limit.getD unlimited) (s.surroundings world)
  have goes := goes_callEntry invoke s (limit.getD unlimited) (s.surroundings world)
  refine ⟨bound, unbound, running, fun before c rest word eq exit given => ?_, ?_, ?_,
    fun code => ?_⟩
  · have exits : c.Exits invoke word.toInt32 := HostCall.exits_of_argument exit given
    have nothing : rest = [] := by
      rw [show callsEntry _ _ _ _ = _ from eq] at goes
      exact goes.eq_nil_of_error exits.outcome_eq
    refine ⟨exits, nothing,
      (exited_lastProcess_iff aloof never prepared).mpr ⟨c, ?_, exits.outcome_eq⟩⟩
    rw [show s.calls invoke limit world = _ from eq, nothing, List.getLast?_concat]
  · refine .cons_cons ?_ (handed.chain fun c made => ?_)
    · exact next_stage_start s.process
    · rcases stays_or_exits_of_prepared aloof never prepared made with stays | ⟨first, code, exits⟩
      · rw [stays.stage_eq]
        exact .same _
      · rw [running c made first, exits.process_eq]
        exact .exits code
  · rw [stages, List.getLast?_cons_cons]
    exact handed.getLast?_eq
  · rw [exitCode_left_iff ((reaches_of_prepare prepared).2 ▸ fresh),
      exited_lastProcess_iff aloof never prepared]

/-- A guest whose start function asks for its environment, and whose entry exits with 3. -/
def leaver : String :=
  "(module (import \"wasi_unstable\" \"environ_get\" (func $env (param i32 i32) (result i32)))" ++
    " (import \"wasi_unstable\" \"proc_exit\" (func $exit (param i32)))" ++
    " (func $init i32.const 0 i32.const 0 call $env drop) (start $init)" ++
    " (func (export \"run\") i32.const 3 call $exit))"

/-- The guest as it is compiled. -/
def leaverModule : Wasm.Module where
  imports := [
    ⟨"wasi_unstable", "environ_get", .function ⟨[.i32, .i32], [.i32]⟩⟩,
    ⟨"wasi_unstable", "proc_exit", .function ⟨[.i32], []⟩⟩]
  functions := #[
    ⟨⟨[], []⟩, [], [.const (.i32 0), .const (.i32 0), .call 0, .drop]⟩,
    ⟨⟨[], []⟩, [], [.const (.i32 3), .call 1]⟩]
  exports := [("run", .function 3)]
  memories := []
  data := []
  start := some 2

/-- The world of a host that has compiled the guest. -/
@[irreducible]
def leaverWorld : World :=
  let h := ((Host.new .default .offline 0).registerGuest "leaver" (Utf8.encode leaver)).2
  { h.world with modules := .ofList [(Store.Blob.idOf (Utf8.encode leaver), leaverModule)] }

/-- The context of its invocation. -/
def leaverContext : Context := (Context.top "leaver" "run").withMode .posix

/-- Whether the guest makes one host call in its start function and one in its entry, both of a
module that is resolved to the POSIX layer, and leaves its context with the exit code 3. -/
theorem leaver_row : (((prepare (.standard .default) leaverContext).run leaverWorld).1.toOption.any
    fun s =>
      (s.calls (s.invoking (.standard .default)) none leaverWorld).map
          (fun c => (c.function.module, c.function.name)) ==
        [("wasi_unstable", "environ_get"), ("wasi_unstable", "proc_exit")] &&
      (s.left (s.invoking (.standard .default)) none leaverWorld).exitCode == some 3 &&
      Resolver.first? (.standard .default) leaverContext leaverWorld "wasi_unstable" ==
        some .posix) = true := by
  decide +kernel

/-- The process of the guest is bound at first, both host calls find it running, and it has exited
with 3 at the end. -/
theorem life_cycle_leaver : ∃ s first second,
    ((prepare (.standard .default) leaverContext).run leaverWorld).1 = .ok s ∧
    s.calls (s.invoking (.standard .default)) none leaverWorld = [first, second] ∧
    s.process.stage = .bound ∧ first.site.process.stage = .running ∧
    second.site.process.stage = .running ∧
    (s.lastProcess (s.invoking (.standard .default)) none leaverWorld).stage = .exited 3 := by
  obtain ⟨s, prepared, holds⟩ := ok_of_toOption_any leaver_row
  simp only [Bool.and_eq_true, beq_iff_eq] at holds
  obtain ⟨⟨row, told⟩, resolved⟩ := holds
  obtain ⟨bound, -, running, -, -, -, exited⟩ :=
    life_cycle (Platform.aloof_standard .default) (Platform.neverExits_standard .default) rfl
      prepared (s.invoking (.standard .default)) none leaverWorld
  obtain ⟨first, _, calls, seen, rest⟩ := List.map_eq_cons_iff.mp row
  obtain ⟨second, rfl, seen'⟩ := List.map_eq_singleton_iff.mp rest
  have posix : Resolver.first? (.standard .default) leaverContext leaverWorld
      first.function.module = some .posix := by
    rw [(Prod.mk.inj seen).1, resolved]
  have posix' : Resolver.first? (.standard .default) leaverContext leaverWorld
      second.function.module = some .posix := by
    rw [(Prod.mk.inj seen').1, resolved]
  have made : first ∈ s.calls (s.invoking (.standard .default)) none leaverWorld := by simp [calls]
  have made' : second ∈ s.calls (s.invoking (.standard .default)) none leaverWorld := by
    simp [calls]
  exact ⟨s, first, second, prepared, calls, bound (usesPosix_of_call prepared made posix),
    running first made posix, running second made' posix', (exited 3).mp told⟩

end Sandbox

end GuestHost
