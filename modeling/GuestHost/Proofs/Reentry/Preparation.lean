import GuestHost.Proofs.HostCalls.Bound
import GuestHost.Proofs.Linking.Offered
import GuestHost.Proofs.Reentry.Functions
/-!
# Preparing sandboxes alike

How deep a context is and through which guests matters to its preparation only where it fails for
it: `Sandbox.alike_prepare`. Otherwise sandboxes prepared for contexts that are the same differ in
their contexts only, and on a platform with nothing but the core functions all their functions are
blind: `Sandbox.blind_called`.
-/

namespace GuestHost

open Stateful

variable {K : Prop}

/-! ## The functions of a sandbox -/

/-- What stands behind a function is blind, apart from the invocations that it asks for. -/
def Backing.Blind (K : Prop) : Backing → Prop
  | .handler (.native call) => call.Blind K
  | _ => True

namespace HostFunction

/-- A function that returns its value as it is, if it has a result at all. -/
def GivesWords (f : HostFunction) : Prop :=
  ∀ word, f.results word = .ok (f.type.results.map fun _ => .i32 word)

/-- A function is blind, or it stands for another guest and returns words. -/
def Plain (K : Prop) (f : HostFunction) : Prop :=
  match f.backing with
  | .handler (.native call) => call.Blind K
  | _ => f.GivesWords

variable {f : HostFunction}

theorem Plain.blind (h : f.Plain K) : f.backing.Blind K := by
  unfold Plain at h
  split at h
  · rename_i call native
    rw [native]
    exact h
  · rename_i asks
    unfold Backing.Blind
    split
    · exact (asks _ ‹_›).elim
    · trivial

theorem Plain.givesWords (h : f.Plain K) (asks : ∀ call, f.backing ≠ .handler (.native call)) :
    f.GivesWords := by
  unfold Plain at h
  split at h
  · exact absurd ‹_› (asks _)
  · exact h

/-- Functions with a word for their result, or with none, give words. -/
theorem givesWords_of_matches {signature : Signature} (fits : signature.Matches f.type)
    (result : f.result = signature.result)
    (word : signature.result = none ∨ signature.result = some .i32) : f.GivesWords := by
  have results := Signature.results_of_matches fits
  intro value
  rcases word with none | some
  · simp [HostFunction.results, result, results, none]
  · simp [HostFunction.results, result, results, some, NumKind.type, Wasm.Value.type]

end HostFunction

theorem Call.blind_stub (module name : String) :
    Call.Blind K (do
      note (.unimplemented module name)
      fail (.fatal (.failure (.unimplemented module name))) : Call UInt32) :=
  Call.blind_bind (Call.blind_note _) fun _ => Call.blind_fail _

/-- What a host call behind a function has to be for the function to be plain. -/
theorem HostFunction.plain_of_blind {f : HostFunction} {call : Call UInt32}
    (native : f.backing = .handler (.native call)) (blind : call.Blind K) : f.Plain K := by
  unfold Plain
  rw [native]
  exact blind

theorem Core.offers_provider : Core.provider.plan.Offers (HostFunction.Plain K) := by
  refine offers_typed.mono fun module name type result handler offered => ?_
  rcases offered with ⟨call, hcall, typed⟩ | typed
  · exact HostFunction.plain_of_blind typed.backing_eq (blind_calls call hcall)
  · obtain rfl := Backing.handler.inj typed.backing_eq
    exact HostFunction.givesWords_of_matches typed.fits typed.result_eq (.inr rfl)

theorem Posix.offers_provider (names : List String) :
    (Posix.provider names).plan.Offers (HostFunction.Plain K) := by
  refine (offers_typed names).mono fun module name type result handler offered => ?_
  rcases offered with ⟨call, hcall, typed⟩ | typed | ⟨stub, -⟩
  · exact HostFunction.plain_of_blind typed.backing_eq
      (Syscall.blind_answered (Syscall.blind_calls call hcall))
  · exact HostFunction.plain_of_blind typed.backing_eq Syscall.blind_exit
  · exact HostFunction.plain_of_blind stub (Call.blind_stub _ _)

theorem Managed.offers_provider (names : List String) :
    (Managed.provider names).plan.Offers (HostFunction.Plain K) := by
  refine (offers_typed names).mono fun module name type result handler offered => ?_
  rcases offered with typed | typed | ⟨stub, -⟩
  · exact HostFunction.plain_of_blind typed.backing_eq (Call.blind_pure _)
  · exact HostFunction.plain_of_blind typed.backing_eq blind_write
  · exact HostFunction.plain_of_blind stub (Call.blind_stub _ _)

/-- **A sandbox calls plain functions only**, on a platform with nothing but the core functions. -/
theorem Sandbox.plain_called {config : Config} {context : Context} {w : World} {s : Sandbox}
    (prepared : ((prepare (.standard config) context).run w).1 = .ok s) {index : Nat}
    {f : HostFunction} (called : s.called? index = some f) : f.Plain K := by
  refine offered_called ⟨fun module provider found => ?_, ?_, Posix.offers_provider,
    Managed.offers_provider⟩ prepared called
  · rw [Platform.provider_of_standard found]
    exact Core.offers_provider
  · intro module name type signature guest linkable fits
    exact HostFunction.givesWords_of_matches fits rfl
      (by simpa using (Bool.and_eq_true_iff.mp linkable).2)

/-! ## Preparing side by side -/

/-- A failure that tells of the depth or the chain of an invocation. -/
def Failure.OfNesting : Failure → Prop
  | .depthExceeded _ _ => True
  | .cycle _ => True
  | _ => False

/-- The platform with another bound for the depth of invocations. -/
def Platform.withDepth (p : Platform) (max : Nat) : Platform :=
  { p with config := { p.config with maxLinkDepth := max } }

/-- Sandboxes that differ as their contexts do. -/
def Sandbox.Same (K : Prop) (s s' : Sandbox) : Prop :=
  ∃ c, s.context.Same K c ∧ s' = { s with context := c }

/-- Two setups that end alike on worlds that are the same, unless one of them fails of nesting. -/
abbrev Setup.Alike {α : Type} (K : Prop) (x x' : Setup α) (P : α → α → Prop) : Prop :=
  Stateful.Alike (World.Same K) Failure.OfNesting x x' P

variable {platform : Platform} {context context' : Context} {w w' : World}

theorem Loading.alike_load (guest : String) :
    Setup.Alike K (load guest) (load guest) Eq := by
  rintro w _ ⟨log, rfl, same⟩
  rw [run_load, run_load]
  dsimp only
  have worlds : World.Same K w { w with log := log } := ⟨log, rfl, same⟩
  cases resolve w.shelf guest with
  | error e => exact .error e worlds
  | ok id =>
    dsimp only
    cases w.modules.find? id with
    | some m => exact .ok rfl worlds
    | none =>
      dsimp only
      cases compile w.shelf guest id with
      | error e => exact .error e worlds
      | ok m => exact .ok rfl ⟨log, rfl, same⟩

theorem Link.ofNesting_of_cycle? {chain : List String} {guest : String} {e : Failure}
    (h : cycle? chain guest = some e) : e.OfNesting := by
  unfold cycle? at h
  split at h
  · obtain rfl := Option.some.inj h
    trivial
  · cases h

namespace Plan

theorem blind_step (b : Binder) (binding : Binding) :
    World.Blind K fun w => step w b binding := by
  intro w w' same
  cases binding with
  | inspect name => exact ⟨rfl, same.note _⟩
  | _ => exact ⟨rfl, same⟩

theorem blind_run (plan : Plan) (b : Binder) : World.Blind K fun w => plan.run w b := by
  induction plan generalizing b with
  | done => exact fun _ _ same => ⟨rfl, same⟩
  | refuse e => exact fun _ _ same => ⟨rfl, same⟩
  | look next ih => exact ih b.view b
  | bind binding next ih =>
    intro w w' same
    obtain ⟨outcome, t, t', left, right, worlds⟩ := (blind_step b binding).run same
    simp only [run, left, right]
    cases outcome with
    | ok b' => exact ih _ b' t t' worlds
    | error e => exact ih _ b t t' worlds

end Plan

namespace Resolver

theorem alike_provide (provider : Provider) (b : Binder) :
    Setup.Alike K (provide provider b) (provide provider b) Eq := by
  refine Alike.bind Alike.get fun w w' same => ?_
  obtain ⟨outcome, t, t', left, right, worlds⟩ := (provider.plan.blind_run b).run same
  simp only [Provider.bind, left, right]
  exact Alike.bind (Alike.set worlds) fun _ _ _ => Alike.ofExcept rfl fun _ => rfl

theorem alike_bind (same : context.Same K context') (max : Nat) (process : Posix.Process)
    (b : Binder) (resolver : Resolver) :
    Setup.Alike K (resolver.bind platform context process b)
      (resolver.bind (platform.withDepth max) context' process b) Eq := by
  obtain ⟨i, ⟨trace, depth, chain, rfl, -⟩, rfl⟩ := same
  have provided : ∀ (provider : Provider) (process : Posix.Process),
      Setup.Alike K (do return (← provide provider b, process) : Setup (Binder × Posix.Process))
        (do return (← provide provider b, process)) Eq := by
    intro provider process
    refine Alike.bind (alike_provide provider b) ?_
    rintro b' _ rfl
    exact Alike.pure rfl
  cases resolver with
  | provider => exact provided _ process
  | link =>
    have linked : Setup.Alike K
        (do
          let target ← Loading.load b.module
          return (← Setup.ofExcept (Link.bind target b), process) :
          Setup (Binder × Posix.Process))
        (do
          let target ← Loading.load b.module
          return (← Setup.ofExcept (Link.bind target b), process)) Eq := by
      refine Alike.bind (Loading.alike_load b.module) ?_
      rintro target _ rfl
      refine Alike.bind (Alike.ofExcept (P := Eq) rfl fun _ => rfl) ?_
      rintro b' _ rfl
      exact Alike.pure rfl
    unfold bind
    dsimp only
    cases onLeft : Link.cycle? context.chain b.module with
    | some e => exact fun _ _ _ => .left (Link.ofNesting_of_cycle? onLeft)
    | none =>
      cases onRight : Link.cycle? chain b.module with
      | some e => exact fun _ _ _ => .right (Link.ofNesting_of_cycle? onRight)
      | none => exact linked
  | posix =>
    refine Alike.bind Alike.get fun w w' same => ?_
    obtain ⟨log, rfl, -⟩ := same
    exact provided _ _
  | managed => exact provided _ process

theorem alike_settle (same : context.Same K context') (max : Nat) (module : String)
    (types : Table String Wasm.FuncType) (linker : Linker) (process : Posix.Process) :
    Setup.Alike K (settle platform context module types linker process)
      (settle (platform.withDepth max) context' module types linker process) Eq := by
  refine Alike.bind Alike.get fun w w' worlds => ?_
  obtain ⟨log, rfl, -⟩ := worlds
  have choice : choose (platform.withDepth max) w.shelf context'.mode module =
      choose platform w.shelf context.mode module := by
    obtain ⟨i, ⟨_, _, _, rfl, -⟩, rfl⟩ := same
    rfl
  refine Alike.bind (P := Eq) (Alike.ofExcept choice.symm fun _ => rfl) ?_
  rintro resolver _ rfl
  refine Alike.bind (alike_bind same max process _ resolver) ?_
  rintro bound _ rfl
  have finish : Setup.Alike K
      (do return (← Setup.ofExcept bound.1.finish, bound.2) : Setup (Linker × Posix.Process))
      (do return (← Setup.ofExcept bound.1.finish, bound.2)) Eq := by
    refine Alike.bind (Alike.ofExcept (P := Eq) rfl fun _ => rfl) ?_
    rintro linker _ rfl
    exact Alike.pure rfl
  refine Alike.optional (fun _ _ worlds => worlds.note _) ?_ finish
  obtain ⟨i, ⟨trace, _, _, rfl, traced⟩, rfl⟩ := same
  by_cases k : K
  · exact .inl (by rw [traced k])
  · exact .inr ⟨fun _ _ worlds => worlds.note_left k _, fun _ _ worlds => worlds.note_right k _⟩

theorem alike_settleAll (same : context.Same K context') (max : Nat)
    (imports : List (String × Table String Wasm.FuncType)) (linker : Linker)
    (process : Posix.Process) :
    Setup.Alike K (settleAll platform context imports linker process)
      (settleAll (platform.withDepth max) context' imports linker process) Eq := by
  induction imports generalizing linker process with
  | nil => exact Alike.pure rfl
  | cons entry rest ih =>
    refine Alike.bind (alike_settle same max entry.1 entry.2 linker process) ?_
    rintro settled _ rfl
    exact ih settled.1 settled.2

end Resolver

/-- **Sandboxes are prepared alike** for contexts that are the same, on platforms that differ in
the bound for the depth only, unless one of them fails of nesting. -/
theorem Sandbox.alike_prepare (same : context.Same K context') (platform : Platform) (max : Nat) :
    Setup.Alike K (prepare platform context) (prepare (platform.withDepth max) context')
      (Sandbox.Same K) := by
  have alike := same
  obtain ⟨i, ⟨trace, depth, chain, rfl, traced⟩, rfl⟩ := same
  refine Alike.guard trivial trivial ?_
  refine Alike.bind (Loading.alike_load _) ?_
  rintro program _ rfl
  refine Alike.ite Iff.rfl (fun _ _ states => .error _ states) ?_
  refine Alike.bind (Alike.ofExcept (P := Eq) rfl fun _ => rfl) ?_
  rintro imports _ rfl
  refine Alike.bind (Resolver.alike_settleAll alike max imports.entries [] .unbound) ?_
  rintro settled _ rfl
  exact Alike.pure ⟨_, alike, rfl⟩

end GuestHost
