import GuestHost.Invocation
import GuestHost.Proofs.Stateful
/-!
# What preparing a sandbox fails of

Preparing fails of nesting too deep exactly if the context is deeper than the platform allows, and
it never fails as a guest does that has trapped or called a function that is not implemented:
`Sandbox.failsAs_prepare`. Only providers may fail in ways of their own, so what is said of all
failures is asked of theirs, `Plan.FailsAs`.
-/

namespace GuestHost

open Stateful

/-- A failure of preparing itself, apart from that of nesting too deep. -/
def Failure.Ordinary : Failure → Prop
  | .depthExceeded _ _ => False
  | .trap _ _ _ => False
  | .unimplemented _ _ => False
  | _ => True

/-- A plan fails in ways of a kind only, if the bindings that it makes do. -/
def Plan.FailsAs (K : Failure → Prop) : Plan → Prop
  | .done => True
  | .refuse e => K e
  | .bind _ next => ∀ outcome, (∀ e, outcome = .error e → K e) → (next outcome).FailsAs K
  | .look next => ∀ view, (next view).FailsAs K

/-- All providers of a platform fail in ways of a kind only. -/
def Platform.FailsAs (K : Failure → Prop) (platform : Platform) : Prop :=
  ∀ module provider, platform.providers.find? module = some provider → provider.plan.FailsAs K

variable {K : Failure → Prop}

/-! ## Binding -/

namespace Binder

variable {b : Binder} {name : String} {e : Failure}

theorem ordinary_of_attach {type : Wasm.FuncType} {result : Option NumKind} {backing : Backing}
    (h : b.attach name type result backing = .error e) : e.Ordinary := by
  unfold attach at h
  split at h
  · exact Except.error.inj h ▸ trivial
  · cases h

theorem ordinary_of_bind {signature : Signature} {backing : Backing}
    (h : b.bind name signature backing = .error e) : e.Ordinary := by
  unfold bind at h
  split at h
  · cases h
  · split at h
    · exact ordinary_of_attach h
    · exact Except.error.inj h ▸ trivial

theorem ordinary_of_bindDeclared {backing : Backing}
    (h : b.bindDeclared name backing = .error e) : e.Ordinary := by
  unfold bindDeclared at h
  split at h
  · cases h
  · exact ordinary_of_attach h

theorem ordinary_of_finish (h : b.finish = .error e) : e.Ordinary := by
  unfold finish at h
  split at h
  · cases h
  · exact Except.error.inj h ▸ trivial

end Binder

theorem Link.ordinary_of_bindAll {guest : String} {target : Wasm.Module} {names : List String}
    {b : Binder} {e : Failure} (h : bindAll guest target names b = .error e) : e.Ordinary := by
  induction names generalizing b with
  | nil => cases h
  | cons name rest ih =>
    unfold bindAll at h
    split at h
    · exact ih h
    · rename_i type found
      cases linked : signature guest name type with
      | error fault =>
        rw [linked] at h
        obtain rfl := Except.error.inj h
        unfold signature at linked
        split at linked
        · cases linked
        · exact Except.error.inj linked ▸ trivial
      | ok signature =>
        rw [linked] at h
        dsimp only at h
        cases bound : b.bind name signature (.guest guest name) with
        | error fault =>
          rw [bound] at h
          exact Except.error.inj h ▸ Binder.ordinary_of_bind bound
        | ok b' =>
          rw [bound] at h
          exact ih h

namespace Plan

theorem failsAs_ofList (bindings : List Binding) : (ofList bindings).FailsAs K := by
  induction bindings with
  | nil => trivial
  | cons binding rest ih =>
    intro outcome failed
    cases outcome with
    | ok done => exact ih
    | error e => exact failed e rfl

/-- **A plan that fails in ways of a kind only ends with such a failure or well.** -/
theorem FailsAs.run (ordinary : ∀ e : Failure, e.Ordinary → K e) {plan : Plan}
    (h : plan.FailsAs K) {w : World} {b : Binder} {e : Failure}
    (failed : (plan.run w b).1 = .error e) : K e := by
  induction plan generalizing w b with
  | done => cases failed
  | refuse fault => exact Except.error.inj failed ▸ h
  | look next ih => exact ih b.view (h b.view) failed
  | bind binding next ih =>
    unfold Plan.run at failed
    cases step : Plan.step w b binding with
    | mk outcome after =>
      rw [step] at failed
      cases outcome with
      | ok b' => exact ih (.ok ()) (h (.ok ()) fun _ never => nomatch never) failed
      | error fault =>
        have own : fault.Ordinary := by
          have step : (Plan.step w b binding).1 = .error fault := by rw [step]
          cases binding with
          | typed name signature handler => exact Binder.ordinary_of_bind step
          | declared name handler => exact Binder.ordinary_of_bindDeclared step
          | unimplemented name => exact Binder.ordinary_of_bindDeclared step
          | inspect name => cases step
        refine ih (.error fault) (h (.error fault) fun e same => ?_) failed
        exact Except.error.inj same ▸ ordinary fault own

end Plan

/-! ## Loading -/

namespace Loading

theorem ordinary_of_resolve {shelf : Store.Shelf} {guest : String} {e : Failure}
    (h : resolve shelf guest = .error e) : e.Ordinary := by
  unfold resolve at h
  split at h
  · cases h
  · exact Except.error.inj h ▸ trivial
  · exact Except.error.inj h ▸ trivial

theorem ordinary_of_compile {shelf : Store.Shelf} {guest : String} {id : Store.ContentId}
    {e : Failure} (h : compile shelf guest id = .error e) : e.Ordinary := by
  unfold compile at h
  split at h
  · exact Except.error.inj h ▸ trivial
  · split at h
    · exact Except.error.inj h ▸ trivial
    · split at h
      · exact Except.error.inj h ▸ trivial
      · split at h
        · cases h
        · exact Except.error.inj h ▸ trivial

theorem failsAs_load (ordinary : ∀ e : Failure, e.Ordinary → K e) (guest : String) :
    FailsAs K (load guest) := by
  refine FailsAs.get.bind fun w => FailsAs.bind (FailsAs.ofExcept fun e failed => ?_) fun id => ?_
  · exact ordinary e (ordinary_of_resolve failed)
  · refine FailsAs.get.bind fun w => ?_
    cases w.modules.find? id with
    | some module => exact FailsAs.pure module
    | none =>
      refine FailsAs.get.bind fun w => FailsAs.bind (FailsAs.ofExcept fun e failed => ?_)
        fun module => (FailsAs.update _).bind fun _ => FailsAs.pure module
      exact ordinary e (ordinary_of_compile failed)

end Loading

theorem Imports.ordinary_of_collect {imports : Imports} {declarations : List Wasm.Import}
    {e : Failure} (h : collect imports declarations = .error e) : e.Ordinary := by
  induction declarations generalizing imports with
  | nil => cases h
  | cons i rest ih =>
    unfold collect at h
    split at h
    · exact Except.error.inj h ▸ trivial
    · exact ih h

theorem Link.ordinary_of_cycle? {chain : List String} {guest : String} {e : Failure}
    (h : cycle? chain guest = some e) : e.Ordinary := by
  unfold cycle? at h
  split at h
  · exact Option.some.inj h ▸ trivial
  · cases h

/-! ## Resolution -/

namespace Resolver

variable {platform : Platform} {context : Context}

theorem ordinary_of_choose {shelf : Store.Shelf} {mode : Mode} {module : String} {e : Failure}
    (h : choose platform shelf mode module = .error e) : e.Ordinary := by
  unfold choose at h
  split at h
  · cases h
  · split at h
    · exact Except.error.inj h ▸ trivial
    · cases h
    · split at h
      · cases h
      · split at h
        · cases h
        · exact Except.error.inj h ▸ trivial

variable (ordinary : ∀ e : Failure, e.Ordinary → K e)
include ordinary

theorem failsAs_provide {provider : Provider} (h : provider.plan.FailsAs K) (b : Binder) :
    FailsAs K (provide provider b) :=
  FailsAs.get.bind fun _ => (FailsAs.set _).bind fun _ =>
    FailsAs.ofExcept fun _ failed => h.run ordinary failed

variable (providers : platform.FailsAs K)
include providers

theorem failsAs_bind (process : Posix.Process) (b : Binder) (resolver : Resolver) :
    FailsAs K (resolver.bind platform context process b) := by
  cases resolver with
  | provider =>
    refine FailsAs.bind (failsAs_provide ordinary ?_ b) fun _ => FailsAs.pure _
    cases found : platform.providers.find? b.module with
    | none => trivial
    | some provider => exact providers b.module provider found
  | link =>
    unfold bind
    dsimp only
    split
    · rename_i fault cycle
      exact FailsAs.throw_bind (ordinary fault (Link.ordinary_of_cycle? cycle)) _
    · refine (Loading.failsAs_load ordinary b.module).bind fun target => ?_
      refine FailsAs.bind (FailsAs.ofExcept fun e failed => ?_) fun _ => FailsAs.pure _
      exact ordinary e (Link.ordinary_of_bindAll failed)
  | posix =>
    exact FailsAs.get.bind fun w =>
      (failsAs_provide ordinary (Plan.failsAs_ofList _) b).bind fun _ => FailsAs.pure _
  | managed =>
    exact (failsAs_provide ordinary (Plan.failsAs_ofList _) b).bind fun _ => FailsAs.pure _

theorem failsAs_settle (module : String) (types : Table String Wasm.FuncType) (linker : Linker)
    (process : Posix.Process) :
    FailsAs K (settle platform context module types linker process) := by
  refine FailsAs.get.bind fun w => ?_
  refine FailsAs.bind (FailsAs.ofExcept fun e failed => ?_) fun resolver => ?_
  · exact ordinary e (ordinary_of_choose failed)
  · refine (failsAs_bind ordinary providers process _ resolver).bind fun bound => ?_
    have finish : FailsAs K
        (do return (← Setup.ofExcept bound.1.finish, bound.2) : Setup (Linker × Posix.Process)) :=
      FailsAs.bind (FailsAs.ofExcept fun e failed => ordinary e (Binder.ordinary_of_finish failed))
        fun linker => FailsAs.pure _
    exact FailsAs.ite (fun _ => (FailsAs.update _).bind fun _ => finish) fun _ => finish

theorem failsAs_settleAll (imports : List (String × Table String Wasm.FuncType)) (linker : Linker)
    (process : Posix.Process) :
    FailsAs K (settleAll platform context imports linker process) := by
  induction imports generalizing linker process with
  | nil => exact FailsAs.pure _
  | cons entry rest ih =>
    exact (failsAs_settle ordinary providers entry.1 entry.2 linker process).bind
      fun settled => ih settled.1 settled.2

end Resolver

/-- **What preparing fails of.** A failure is that of a context deeper than the platform allows, or
it is an ordinary one or one of a provider. -/
theorem Sandbox.failsAs_prepare (ordinary : ∀ e : Failure, e.Ordinary → K e) {platform : Platform}
    (providers : platform.FailsAs K) (context : Context)
    (deep : platform.config.maxLinkDepth < context.depth →
      K (.depthExceeded context.guest platform.config.maxLinkDepth)) :
    FailsAs K (prepare platform context) := by
  unfold prepare
  dsimp only
  refine FailsAs.ite (fun exceeded => FailsAs.throw_bind (deep exceeded) _) fun _ => ?_
  refine (Loading.failsAs_load ordinary context.guest).bind fun program => ?_
  have missing : K (.missingEntry context.guest context.entry) := ordinary _ trivial
  refine FailsAs.ite (fun _ => FailsAs.throw_bind missing _) fun _ => ?_
  refine FailsAs.bind (FailsAs.ofExcept fun e failed => ?_) fun imports => ?_
  · exact ordinary e (Imports.ordinary_of_collect failed)
  · exact (Resolver.failsAs_settleAll ordinary providers imports.entries [] .unbound).bind
      fun _ => FailsAs.pure _

end GuestHost
