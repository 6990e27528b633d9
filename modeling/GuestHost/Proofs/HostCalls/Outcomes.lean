import GuestHost.Proofs.HostCalls.Bound
import GuestHost.Proofs.Invocation.Limits
import GuestHost.Proofs.Linking.Offered
import GuestHost.Proofs.Reentry.Calls
import GuestHost.Proofs.Sandbox.Calls
/-!
# What host calls fail of

A host function fails as the host call behind it does, for want of an argument, or as the nested
invocation that it asks for, `HostFunction.value_error_cases`. All that hosts offer, apart from the
system call that is there to end a guest and from stubs, is **quiet**: it neither ends its guest nor
says that something is not implemented, `Platform.offers_settled`. Hence a host call ends its guest
only as that system call, `HostCall.exit_of_outcome`, and says that a function is not implemented
only as its stub or for a linked guest that said so, `HostCall.unimplemented_iff`.
-/

namespace GuestHost

open Stateful

/-! ## Reading the request of a nested invocation -/

namespace Call

theorem failsAs_argument (index : Nat) : FailsAs CallError.Misread (argument index) :=
  fun site => (run_argument index site).2

theorem failsAs_signed (index : Nat) : FailsAs CallError.Misread (signed index) := by
  refine FailsAs.bind (FailsAs.bind (failsAs_argument index) fun value => ?_) fun _ =>
    FailsAs.pure _
  cases value with
  | i32 word => exact FailsAs.pure _
  | _ => exact FailsAs.throw trivial

theorem failsAs_words : FailsAs CallError.Misread words :=
  FailsAs.get.bind fun _ => FailsAs.mapM failsAs_signed _

end Call

namespace Nesting

/-- Nothing but reading the arguments can fail before a linked guest is invoked. -/
theorem failsAs_linkContext (guest entry : String) :
    FailsAs CallError.Misread (linkContext guest entry) := by
  have create : FailsAs CallError.Misread create :=
    (FailsAs.bind FailsAs.get fun _ => FailsAs.pure _).bind fun _ =>
      (FailsAs.update _).bind fun _ => FailsAs.pure _
  exact Call.failsAs_words.bind fun _ => create.bind fun _ => create.bind fun _ =>
    (FailsAs.get.bind fun _ => FailsAs.pure _).bind fun _ => FailsAs.pure _

open Call in
theorem tame_integersAt {I : World → Prop} {types : List Wasm.ValType} (address length : Nat) :
    Tame I types (integersAt address length) fun _ => True := by
  rw [integersAt_eq]
  exact (tame_slice address length).bind fun _ _ => tame_pure trivial

open Call in
/-- What describes a guest that is called by name is read as the arguments of a core function
are. -/
theorem tame_namedContext {I : World → Prop} :
    Tame I (Core.words 10) namedContext fun _ => True := by
  refine (tame_text 0 1 rfl rfl).bind fun guest _ => (tame_text 2 3 rfl rfl).bind fun entry _ => ?_
  refine (tame_word 4 rfl).bind fun address _ => (tame_word 5 rfl).bind fun count _ => ?_
  refine (tame_integersAt _ _).bind fun _ _ => (tame_text 6 7 rfl rfl).bind fun name _ => ?_
  cases Mode.ofText? name with
  | none => exact tame_refuse _
  | some mode =>
    exact (tame_word 8 rfl).bind fun _ _ => (tame_word 9 rfl).bind fun _ _ =>
      tame_invocation.bind fun _ _ => tame_pure trivial

end Nesting

/-! ## Failures of host functions -/

/-- The failure to hand a value over to a guest that declares another type for it. -/
def CallError.Unfit : CallError → Prop
  | .fatal (.result _ _) => True
  | _ => False

namespace HostFunction

variable {f : HostFunction} {site : Site} {e : CallError} {invoke : Invoke}

/-- A host function fails as what stands behind it, unless the guest survives that. -/
theorem value_eq_error_iff : ((f.value invoke).run site).1 = .error e ↔
    ((f.backing.run invoke).run site).1 = .error e ∧ ¬ e.Survived := by
  unfold value
  rw [run_tryCatch]
  cases ((f.backing.run invoke).run site).1 with
  | ok word => simp
  | error fault =>
    cases fault with
    | outOfBounds access =>
      refine iff_of_false (fun never => nomatch never) ?_
      rintro ⟨same, unsurvived⟩
      exact unsurvived (Except.error.inj same ▸ trivial)
    | recoverable reason =>
      refine iff_of_false (fun never => nomatch never) ?_
      rintro ⟨same, unsurvived⟩
      exact unsurvived (Except.error.inj same ▸ trivial)
    | fatal cause => exact ⟨fun same => ⟨same, Except.error.inj same ▸ id⟩, And.left⟩
    | exit code => exact ⟨fun same => ⟨same, Except.error.inj same ▸ id⟩, And.left⟩

/-- A host function that does not fail hands over what stands behind it. -/
theorem value_of_run {n : UInt32} (performed : ((f.backing.run invoke).run site).1 = .ok n) :
    ((f.value invoke).run site).1 = .ok n := by
  unfold value
  rw [run_tryCatch, performed]

/-- A failure that the guest survives becomes the sentinel. -/
theorem value_of_survived (performed : ((f.backing.run invoke).run site).1 = .error e)
    (survived : e.Survived) : ((f.value invoke).run site).1 = .ok sentinel := by
  unfold value
  rw [run_tryCatch, performed]
  cases e with
  | outOfBounds access => rfl
  | recoverable reason => rfl
  | _ => exact survived.elim

/-- **What a host function fails of**: what the host call behind it fails of, the want of an
argument, or a failure of the nested invocation that it asks for. -/
theorem value_error_cases (failed : ((f.value invoke).run site).1 = .error e) :
    (∃ call, f.backing = .handler (.native call) ∧ (call.run site).1 = .error e) ∨ e.Misread ∨
      ∃ r failure, f.backing.request? site = some r ∧
        ((invoke r.context).run r.world).1 = .error failure ∧ r.via.Stops failure ∧
        e = .fatal (.failure failure) := by
  -- a request that could be put together decides by its answer
  have asked : ∀ r, f.backing.request? site = some r → ∃ r failure,
      f.backing.request? site = some r ∧ ((invoke r.context).run r.world).1 = .error failure ∧
        r.via.Stops failure ∧ e = .fatal (.failure failure) := by
    intro r found
    rw [run_value invoke found] at failed
    cases come : ((invoke r.context).run r.world).1 with
    | ok context =>
      rw [come] at failed
      cases via : r.via <;> rw [via] at failed <;> cases failed
    | error failure =>
      rw [come] at failed
      by_cases stops : r.via.Stops failure
      · rw [Via.answer_of_stops stops] at failed
        exact ⟨r, failure, found, come, stops, (Except.error.inj failed).symm⟩
      · rw [Via.answer_of_not_stops stops] at failed
        cases failed
  obtain ⟨behind, unsurvived⟩ := value_eq_error_iff.mp failed
  cases hb : f.backing with
  | handler handler =>
    cases handler with
    | native call =>
      rw [hb] at behind
      exact .inl ⟨call, rfl, behind⟩
    | callFunction =>
      cases come : (Nesting.namedContext.run site).1 with
      | ok context =>
        have found : Nesting.request? .name (Nesting.namedContext.run site) = some _ :=
          Nesting.request?_of_ok come
        exact .inr (.inr (hb ▸ asked _ (by rw [hb]; exact found)))
      | error fault =>
        -- what cannot be read of the arguments is survived, unless it is of another type
        have same : fault = e := by
          rw [hb] at behind
          simpa only [Backing.run, Nesting.byName, run_bind, come, Except.error.injEq] using behind
        have ends := (Nesting.tame_namedContext (I := fun _ => True) site trivial).2.2
        rw [come, same] at ends
        exact .inr (.inl (ends.resolve_left unsurvived).1)
  | guest guest entry =>
    cases come : ((Nesting.linkContext guest entry).run site).1 with
    | ok context =>
      have found : Nesting.request? .link ((Nesting.linkContext guest entry).run site) = some _ :=
        Nesting.request?_of_ok come
      exact .inr (.inr (hb ▸ asked _ (by rw [hb]; exact found)))
    | error fault =>
      have same : fault = e := by
        rw [hb] at behind
        simpa only [Backing.run, Nesting.link, run_bind, come, Except.error.injEq] using behind
      exact .inr (.inl (same ▸ Nesting.failsAs_linkContext guest entry site fault come))

theorem unfit_of_results {word : UInt32} {cause : Cause} (failed : f.results word = .error cause) :
    CallError.Unfit (.fatal cause) := by
  unfold results at failed
  split at failed
  · rename_i kind declared
    dsimp only at failed
    generalize (if kind = .i64 then Wasm.Value.i64 word.toUInt64 else .i32 word) = given at failed
    split at failed
    · cases failed
    · exact Except.error.inj failed ▸ trivial
  · split at failed
    · exact Except.error.inj failed ▸ trivial
    · cases failed

/-- Once a host function has a value, all that can fail is handing it over. -/
theorem call_error_cases (failed : ((f.call invoke).run site).1 = .error e) :
    ((f.value invoke).run site).1 = .error e ∨ e.Unfit := by
  cases come : ((f.value invoke).run site).1 with
  | error fault =>
    rw [f.call_of_error come] at failed
    exact .inl (congrArg _ (Except.error.inj failed))
  | ok word =>
    rw [(f.run_call_of_value come).1] at failed
    cases given : f.results word with
    | ok results =>
      rw [given] at failed
      cases failed
    | error cause =>
      rw [given] at failed
      exact .inr (Except.error.inj failed ▸ unfit_of_results given)

end HostFunction

/-! ## Quiet host calls -/

/-- A failure that neither ends the guest as it asked for nor says that something is not
implemented. -/
def CallError.Quiet : CallError → Prop
  | .exit _ => False
  | .fatal (.failure (.unimplemented _ _)) => False
  | _ => True

theorem CallError.Survived.quiet {e : CallError} (h : e.Survived) : e.Quiet := by
  cases e with
  | outOfBounds access => trivial
  | recoverable reason => trivial
  | _ => exact h.elim

theorem CallError.Misread.quiet {e : CallError} (h : e.Misread) : e.Quiet := by
  cases e with
  | fatal cause =>
    cases cause with
    | failure failure => exact h.elim
    | _ => trivial
  | _ => exact h.elim

/-- A host call that neither ends its guest nor says that something is not implemented. -/
abbrev Call.Quiet {α : Type} (x : Call α) : Prop := FailsAs CallError.Quiet x

theorem Call.Tame.quiet {α : Type} {types : List Wasm.ValType} {x : Call α} {P : α → Prop}
    (h : x.Tame (fun _ => True) types P) : x.Quiet := by
  intro site e failed
  have ends := (h site trivial).2.2
  rw [failed] at ends
  rcases ends with survived | misread
  · exact survived.quiet
  · exact misread.1.quiet

namespace HostFunction

/-- A function that a provider may offer: a host call behind it is quiet, unless it is the stub of
the function. -/
def Candid (f : HostFunction) : Prop :=
  ∀ call, f.backing = .handler (.native call) →
    call.Quiet ∨ f.backing = .handler (.stub f.module f.name)

/-- What the functions of a sandbox are if its providers are candid: the POSIX layer offers the
system call that ends the guest besides, and links hand words over. -/
structure Settled (f : HostFunction) : Prop where
  native : ∀ call, f.backing = .handler (.native call) →
    call.Quiet ∨ f.backing = .handler (.stub f.module f.name) ∨
      f.backing = .handler (.native Posix.Syscall.exit)
  link : ∀ guest entry, f.backing = .guest guest entry → f.GivesWords

/-- A candid function that stands for no guest is settled. -/
theorem Candid.settled {f : HostFunction} (h : f.Candid)
    (handled : ∀ guest entry, f.backing ≠ .guest guest entry) : f.Settled :=
  ⟨fun call native => (h call native).imp_right .inl, fun guest entry linked =>
    absurd linked (handled guest entry)⟩

theorem settled_of_quiet {f : HostFunction} {call : Call UInt32}
    (native : f.backing = .handler (.native call)) (quiet : call.Quiet) : f.Settled := by
  refine ⟨fun other same => .inl ?_, fun guest entry linked => ?_⟩
  · cases native.symm.trans same
    exact quiet
  · cases native.symm.trans linked

theorem settled_stub {f : HostFunction} (stub : f.backing = .handler (.stub f.module f.name)) :
    f.Settled :=
  ⟨fun _ _ => .inr (.inl stub), fun _ _ linked => nomatch stub.symm.trans linked⟩

end HostFunction

/-- All providers of a platform offer candid functions. -/
def Platform.Candid (platform : Platform) : Prop :=
  ∀ module provider, platform.providers.find? module = some provider →
    provider.plan.Offers HostFunction.Candid

theorem Core.candid_provider : Core.provider.plan.Offers HostFunction.Candid := by
  refine offers_typed.mono fun module name type result handler offered other native => ?_
  rcases offered with ⟨call, hcall, typed⟩ | typed
  · have tame := tame_calls World.steady_true call hcall fun _ => World.roomy_true
    cases native.symm.trans typed.backing_eq
    exact .inl tame.quiet
  · cases native.symm.trans typed.backing_eq

/-- A host with nothing but the core functions is candid. -/
theorem Platform.candid_standard (config : Config) : (standard config).Candid := by
  intro module provider found
  rw [provider_of_standard found]
  exact Core.candid_provider

/-- The system call that ends a guest fails in no other way, unless it cannot read its argument. -/
theorem Posix.Syscall.failsAs_exit :
    FailsAs (fun e => e.Misread ∨ ∃ code, e = .exit code) Posix.Syscall.exit :=
  ((Call.failsAs_signed 0).mono fun _ => .inl).bind fun code =>
    (FailsAs.get.bind fun _ => FailsAs.pure _).bind fun _ => (FailsAs.update _).bind fun _ =>
      FailsAs.throw (.inr ⟨code, rfl⟩)

theorem Posix.settled_provider (names : List String) :
    (Posix.provider names).plan.Offers HostFunction.Settled := by
  refine (offers_typed names).mono fun module name type result handler offered => ?_
  rcases offered with ⟨call, hcall, typed⟩ | typed | ⟨stub, -⟩
  · have tame := Syscall.tame_calls World.steady_true call hcall
    refine HostFunction.settled_of_quiet typed.backing_eq fun site e failed => ?_
    rcases Syscall.run_answered tame site trivial with ⟨errno, well⟩ | ⟨fault, bad, h⟩
    · cases well.symm.trans failed
    · obtain rfl := Except.error.inj (bad.symm.trans failed)
      exact h.1.quiet
  · exact ⟨fun _ _ => .inr (.inr typed.backing_eq), fun _ _ linked => nomatch linked⟩
  · exact HostFunction.settled_stub stub

theorem Managed.settled_provider (names : List String) :
    (Managed.provider names).plan.Offers HostFunction.Settled := by
  refine (offers_typed names).mono fun module name type result handler offered => ?_
  rcases offered with typed | typed | ⟨stub, -⟩
  · exact HostFunction.settled_of_quiet typed.backing_eq (FailsAs.pure _)
  · exact HostFunction.settled_of_quiet typed.backing_eq (tame_write World.steady_true.calm).quiet
  · exact HostFunction.settled_stub stub

/-- **On a candid platform all functions are settled.** -/
theorem Platform.offers_settled {platform : Platform} (candid : platform.Candid) :
    platform.Offers HostFunction.Settled := by
  refine ⟨fun module provider found => ?_, fun module name type signature guest linkable fits => ?_,
    Posix.settled_provider, Managed.settled_provider⟩
  · refine (candid module provider found).mono fun _ _ _ _ _ h => ?_
    exact h.settled fun _ _ linked => nomatch linked
  · refine ⟨fun _ native => (nomatch native), fun _ _ _ => ?_⟩
    exact HostFunction.givesWords_of_matches fits rfl
      (by simpa using (Bool.and_eq_true_iff.mp linkable).2)

/-! ## What a failed host call tells -/

namespace HostCall

variable {c : HostCall} {invoke : Invoke} {e : CallError}

theorem value_of_outcome (failed : c.outcome invoke = .error e)
    (fits : ¬ e.Unfit) : ((c.function.value invoke).run c.site).1 = .error e :=
  (HostFunction.call_error_cases failed).resolve_right fits

/-- **Only the system call for it ends a guest.** -/
theorem exit_of_outcome (settled : c.function.Settled) {code : Int32}
    (failed : c.outcome invoke = .error (.exit code)) :
    c.function.backing = .handler (.native Posix.Syscall.exit) := by
  have value := value_of_outcome failed id
  rcases HostFunction.value_error_cases value with
    ⟨call, native, behind⟩ | misread | ⟨_, _, _, _, _, never⟩
  · rcases settled.native call native with quiet | stub | exit
    · exact (quiet c.site _ behind).elim
    · rw [stub] at native
      cases native
      cases behind
    · exact exit
  · exact misread.elim
  · cases never

/-- **A host call says that a function is not implemented** if it is the stub of that function, or
if it calls a linked guest and the invocation of that guest said so. -/
theorem unimplemented_iff (settled : c.function.Settled) {module name : String} :
    c.outcome invoke = .error (.fatal (.failure (.unimplemented module name))) ↔
      (c.function.backing = .handler (.stub module name) ∧ c.function.module = module ∧
        c.function.name = name) ∨
      ∃ r, c.request? = some r ∧ r.via = .link ∧
        ((invoke r.context).run r.world).1 = .error (.unimplemented module name) := by
  constructor
  · intro failed
    have value := value_of_outcome failed id
    rcases HostFunction.value_error_cases value with
      ⟨call, native, behind⟩ | misread | ⟨r, failure, asked, come, stops, same⟩
    · rcases settled.native call native with quiet | stub | exit
      · exact (quiet c.site _ behind).elim
      · rw [native] at stub
        cases stub
        obtain ⟨rfl, rfl⟩ : c.function.module = module ∧ c.function.name = name := by
          simpa using Except.error.inj behind
        exact .inl ⟨native, rfl, rfl⟩
      · rw [native] at exit
        cases exit
        rcases Posix.Syscall.failsAs_exit c.site _ behind with misread | ⟨code, never⟩
        · exact misread.elim
        · cases never
    · exact misread.elim
    · cases same
      refine .inr ⟨r, asked, ?_, come⟩
      cases via : r.via with
      | link => rfl
      | name =>
        rw [via] at stops
        exact stops.elim
  · rintro (⟨stub, -, -⟩ | ⟨r, asked, link, come⟩)
    · refine c.function.call_of_error (HostFunction.value_eq_error_iff.mpr ⟨?_, id⟩)
      rw [stub]
      rfl
    · refine c.function.call_of_error ?_
      rw [c.function.run_value invoke asked, come, link]
      rfl

end HostCall

end GuestHost
