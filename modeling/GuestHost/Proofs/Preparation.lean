import GuestHost.Proofs.Linking.Binder
import GuestHost.Proofs.Stateful
import GuestHost.Sandbox
/-!
# What preparing a sandbox does

Preparing changes a world by loading modules and by notes in the log, so it obeys whatever these
obey: `obeys_prepare`. The sandbox it yields is no deeper than the platform allows, and none of its
links leads back to the chain of its context.
-/

namespace GuestHost

open Stateful

variable {chain : List String} {platform : Platform} {context : Context} {I : World → Prop}

/-! ## Links -/

/-- No link of a linker leads to a guest of the chain. -/
def Linker.Acyclic (chain : List String) (linker : Linker) : Prop :=
  ∀ f ∈ linker, ∀ guest entry, f.backing = .guest guest entry → guest ∉ chain

/-- What grows by links out of the chain stays acyclic. -/
theorem Binder.Grows.acyclic {b b' : Binder}
    (h : b.Grows (fun f => ∀ guest entry, f.backing = .guest guest entry → guest ∉ chain) b')
    (hb : b.linker.Acyclic chain) : b'.linker.Acyclic chain := h.all hb

theorem Binder.acyclic_finish {b : Binder} {linker : Linker} (hb : b.linker.Acyclic chain)
    (h : b.finish = .ok linker) : linker.Acyclic chain := by
  unfold finish at h
  split at h
  · exact Except.ok.inj h ▸ hb
  · cases h

/-- A link to a guest outside the chain stays acyclic, whatever names are bound. -/
theorem Link.acyclic_bindAll {guest : String} {target : Wasm.Module} (hguest : guest ∉ chain)
    {names : List String} {b b' : Binder} (hb : b.linker.Acyclic chain)
    (h : bindAll guest target names b = .ok b') : b'.linker.Acyclic chain := by
  refine keeps_bindAll (I := fun b => b.linker.Acyclic chain) Binder.Grows.acyclic
    (fun module name type signature _ _ => ?_) hb h
  rintro _ _ ⟨⟩
  exact hguest

/-! ## Providers -/

namespace Plan

/-- A plan links to no guest. -/
theorem acyclic_run {plan : Plan} {w : World} {b b' : Binder} (hb : b.linker.Acyclic chain)
    (h : (plan.run w b).1 = .ok b') : b'.linker.Acyclic chain := by
  refine keeps_run (I := fun b => b.linker.Acyclic chain) Binder.Grows.acyclic
    (offers_of_forall (fun binding => ?_) plan) hb h
  cases binding <;> simp [Binding.Offers]

/-- A plan changes the log at most. -/
theorem obeys_run (hnote : ∀ w event, I w → I (w.note event)) (plan : Plan) {w : World} (hw : I w)
    (b : Binder) : I (plan.run w b).2 := by
  induction plan generalizing w b with
  | done => exact hw
  | refuse e => exact hw
  | look next ih => exact ih b.view hw b
  | bind binding next ih =>
    have first : I (step w b binding).2 := by
      cases binding with
      | inspect name => exact hnote _ _ hw
      | _ => exact hw
    unfold run
    cases h : step w b binding with
    | mk outcome w' =>
      rw [h] at first
      -- after a failure the plan goes on with the binder it had
      cases outcome with
      | error e => exact ih _ first b
      | ok b' => exact ih _ first b'

end Plan

/-! ## Resolution -/

namespace Resolver

theorem obeys_provide (hnote : ∀ w event, I w → I (w.note event)) (provider : Provider)
    {b : Binder} (hb : b.linker.Acyclic chain) :
    Obeys I (provide provider b) fun b' => b'.linker.Acyclic chain := by
  refine Obeys.bind Obeys.get fun w hw => ?_
  exact Obeys.bind (Obeys.set (Plan.obeys_run hnote provider.plan hw b)) fun _ _ =>
    Obeys.ofExcept fun _ bound => Plan.acyclic_run hb bound

theorem obeys_bind (hnote : ∀ w event, I w → I (w.note event))
    (hload : ∀ guest, Obeys I (Loading.load guest) fun _ => True) {process : Posix.Process}
    {b : Binder} (hb : b.linker.Acyclic context.chain) (resolver : Resolver) :
    Obeys I (resolver.bind platform context process b) fun bound =>
      bound.1.linker.Acyclic context.chain := by
  cases resolver with
  | provider =>
    exact Obeys.bind (obeys_provide hnote _ hb) fun b' hb' => Obeys.pure hb'
  | link =>
    unfold bind
    dsimp only
    split
    · exact Obeys.throw_bind _ _
    · rename_i acyclic
      refine Obeys.bind (hload b.module) fun target _ => ?_
      refine Obeys.bind (Obeys.ofExcept fun b' h => ?_) fun b' hb' => Obeys.pure hb'
      -- the guest has passed the cycle guard
      have hguest : b.module ∉ context.chain := by
        intro hmem
        exact acyclic _ (if_pos hmem)
      exact Link.acyclic_bindAll hguest hb h
  | posix =>
    exact Obeys.bind Obeys.get fun w _ =>
      Obeys.bind (obeys_provide hnote _ hb) fun b' hb' => Obeys.pure hb'
  | managed =>
    exact Obeys.bind (obeys_provide hnote _ hb) fun b' hb' => Obeys.pure hb'

theorem obeys_settle (hnote : ∀ w event, I w → I (w.note event))
    (hload : ∀ guest, Obeys I (Loading.load guest) fun _ => True) (module : String)
    (types : Table String Wasm.FuncType) {linker : Linker} (hl : linker.Acyclic context.chain)
    (process : Posix.Process) :
    Obeys I (settle platform context module types linker process) fun settled =>
      settled.1.Acyclic context.chain := by
  refine Obeys.bind Obeys.get fun w _ => ?_
  refine Obeys.bind (P := fun _ => True) (Obeys.ofExcept fun _ _ => trivial) fun resolver _ => ?_
  refine Obeys.bind (obeys_bind hnote hload hl resolver) fun bound hbound => ?_
  have finish : Obeys I
      (do return (← Setup.ofExcept bound.1.finish, bound.2) : Setup (Linker × Posix.Process))
      fun settled => settled.1.Acyclic context.chain :=
    Obeys.bind (Obeys.ofExcept fun linker h => Binder.acyclic_finish hbound h)
      fun linker hlinker => Obeys.pure hlinker
  refine Obeys.ite (fun _ => ?_) (fun _ => finish)
  exact Obeys.bind (Obeys.update fun w hw => hnote w _ hw) fun _ _ => finish

theorem obeys_settleAll (hnote : ∀ w event, I w → I (w.note event))
    (hload : ∀ guest, Obeys I (Loading.load guest) fun _ => True)
    (imports : List (String × Table String Wasm.FuncType)) {linker : Linker}
    (hl : linker.Acyclic context.chain) (process : Posix.Process) :
    Obeys I (settleAll platform context imports linker process) fun settled =>
      settled.1.Acyclic context.chain := by
  induction imports generalizing linker process with
  | nil => exact Obeys.pure hl
  | cons entry rest ih =>
    exact Obeys.bind (obeys_settle hnote hload entry.1 entry.2 hl process)
      fun settled hsettled => ih hsettled settled.2

end Resolver

/-- Loading changes the compiled modules at most. -/
theorem Loading.obeys_load (hmodules : ∀ (w : World) modules, I w → I { w with modules := modules })
    (guest : String) : Obeys I (load guest) fun _ => True := by
  refine Obeys.bind Obeys.get fun w _ => ?_
  refine Obeys.bind (P := fun _ => True) (Obeys.ofExcept fun _ _ => trivial) fun id _ => ?_
  refine Obeys.bind Obeys.get fun w _ => ?_
  cases w.modules.find? id with
  | some module => exact Obeys.pure trivial
  | none =>
    refine Obeys.bind Obeys.get fun w _ => ?_
    refine Obeys.bind (P := fun _ => True) (Obeys.ofExcept fun _ _ => trivial) fun module _ => ?_
    exact Obeys.bind (Obeys.update fun w hw => hmodules w _ hw) fun _ _ => Obeys.pure trivial

/-! ## Sandboxes -/

/-- What holds of every sandbox that has been prepared for a context. -/
structure Sandbox.Prepared (platform : Platform) (context : Context) (s : Sandbox) : Prop where
  context_eq : s.context = context
  depth_le : context.depth ≤ platform.config.maxLinkDepth
  acyclic : s.linker.Acyclic context.chain

/-- **Preparing obeys what loading and the log obey**, and yields a sandbox whose depth is allowed
and whose links lead out of its chain. -/
theorem Sandbox.obeys_prepare (hnote : ∀ w event, I w → I (w.note event))
    (hload : ∀ guest, Obeys I (Loading.load guest) fun _ => True) (platform : Platform)
    (context : Context) : Obeys I (prepare platform context) (Prepared platform context) := by
  unfold prepare
  dsimp only
  refine Obeys.ite (fun _ => Obeys.throw_bind _ _) fun depth => ?_
  refine Obeys.bind (hload _) fun program _ => ?_
  refine Obeys.ite (fun _ => Obeys.throw_bind _ _) fun _ => ?_
  refine Obeys.bind (P := fun _ => True) (Obeys.ofExcept fun _ _ => trivial) fun imports _ => ?_
  have unbound : Linker.Acyclic context.chain [] := fun _ h => nomatch h
  refine Obeys.bind (Resolver.obeys_settleAll hnote hload imports.entries unbound .unbound)
    fun settled hsettled => ?_
  exact Obeys.pure ⟨rfl, Nat.not_lt.mp depth, hsettled⟩

end GuestHost
