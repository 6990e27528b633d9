import GuestHost.Proofs.Linking.Signatures
import GuestHost.Sandbox
/-!
# What the functions of a sandbox are

A property of all functions that providers, links, the POSIX layer and the hooks of managed runtimes
can bind on a platform is a property of all functions that a guest prepared on it can call:
`Sandbox.offered_called`.
-/

namespace GuestHost

/-- All functions that guests can be bound to on a platform have a property. -/
structure Platform.Offers (P : HostFunction → Prop) (platform : Platform) : Prop where
  providers : ∀ module provider, platform.providers.find? module = some provider →
    provider.plan.Offers P
  links : ∀ module name type signature guest, Link.isLinkable signature → signature.Matches type →
    P ⟨module, name, type, signature.result, .guest guest name⟩
  posix : ∀ names, (Posix.provider names).plan.Offers P
  managed : ∀ names, (Managed.provider names).plan.Offers P

/-- A platform with nothing but the core functions has one provider. -/
theorem Platform.provider_of_standard {config : Config} {module : String} {provider : Provider}
    (h : (standard config).providers.find? module = some provider) : provider = Core.provider := by
  unfold standard at h
  rw [Table.find?_ofList] at h
  by_cases core : module = Core.module
  · simpa [core, eq_comm] using h
  · simp [List.lookup_cons, beq_eq_false_iff_ne.mpr core] at h

/-- Nothing has been bound at first. -/
theorem Binder.all_new (P : HostFunction → Prop) (module : String)
    (types : Table String Wasm.FuncType) : (Binder.new [] module types).linker.All P :=
  fun _ never => nomatch never

variable {P : HostFunction → Prop} {platform : Platform} {context : Context} {w : World}

/-- All functions that a resolver can bind on a platform have a property. -/
def Resolver.Offers (P : HostFunction → Prop) (platform : Platform) : Resolver → Prop
  | provider => ∀ module provider, platform.providers.find? module = some provider →
      provider.plan.Offers P
  | link => ∀ module name type signature guest, Link.isLinkable signature →
      signature.Matches type → P ⟨module, name, type, signature.result, .guest guest name⟩
  | posix => ∀ names, (Posix.provider names).plan.Offers P
  | managed => ∀ names, (Managed.provider names).plan.Offers P

theorem Platform.Offers.resolver (offers : platform.Offers P) :
    ∀ resolver : Resolver, resolver.Offers P platform
  | .provider => offers.providers
  | .link => offers.links
  | .posix => offers.posix
  | .managed => offers.managed

/-- A resolver that has the guest to itself binds what it offers only. -/
theorem Resolver.all_outcome {module : String} {types : Table String Wasm.FuncType}
    {resolver : Resolver} (offers : resolver.Offers P platform) {b : Binder}
    (h : outcome platform context w (.new [] module types) resolver = .ok b) :
    b.linker.All P := by
  have empty := Binder.all_new P module types
  have planned : ∀ (provider : Provider), provider.plan.Offers P →
      (provider.bind w (.new [] module types)).1 = .ok b → b.linker.All P :=
    fun _ offered bound => Plan.keeps_run Binder.Grows.all offered empty bound
  cases resolver with
  | provider =>
    refine planned _ ?_ h
    show Plan.Offers P ((platform.providers.find? module).getD ⟨.done⟩).plan
    cases found : platform.providers.find? module with
    | none => trivial
    | some provider => exact offers module provider found
  | link =>
    dsimp only [outcome, Binder.new] at h
    split at h
    · cases h
    · cases loaded : ((Loading.load module).run w).1 with
      | error e =>
        rw [loaded] at h
        cases h
      | ok target =>
        rw [loaded] at h
        exact Link.keeps_bindAll Binder.Grows.all
          (fun module' name type signature => offers module' name type signature module)
          empty h
  | posix => exact planned _ (offers _) h
  | managed => exact planned _ (offers _) h

/-- The function of an import was bound by the first resolver that applied to the module. -/
theorem Sandbox.exists_resolver {s : Sandbox} {i : Wasm.Import} {f : HostFunction}
    (prepared : ((prepare platform context).run w).1 = .ok s)
    (hi : i ∈ s.program.imports) (bound : s.function? i = some f) :
    ∃ resolver b, Resolver.first? platform context w i.module = some resolver ∧
      Resolver.outcome platform context w
        (.new [] i.module (Resolver.typesOf s.program i.module)) resolver = .ok b ∧
      f ∈ b.linker ∧ f.module = i.module ∧ f.name = i.name := by
  obtain ⟨reaches, -⟩ := reaches_of_prepare prepared
  obtain ⟨resolver, b, g, first, served, hg, alone⟩ :=
    Resolver.exists_function_of_prepare reaches prepared hi
  have same : f = g := by
    unfold function? Linker.find? at bound
    rw [← List.head?_filter, alone] at bound
    exact (Option.some.inj bound).symm
  have named : f.module = i.module ∧ f.name = i.name := by
    simpa using List.find?_some bound
  rw [Resolver.serve_eq] at served
  split at served
  · cases served
  · exact ⟨resolver, b, first, served, same ▸ hg, named⟩

/-- **A function that a sandbox calls is offered by the resolver of its module.** -/
theorem Sandbox.offered_resolver {s : Sandbox}
    (prepared : ((prepare platform context).run w).1 = .ok s) {index : Nat}
    {f : HostFunction} (called : s.called? index = some f) :
    ∃ resolver, Resolver.first? platform context w f.module = some resolver ∧
      Resolver.Imported s.program f.module ∧ ∀ P, resolver.Offers P platform → P f := by
  obtain ⟨i, hi, bound⟩ := Option.bind_eq_some_iff.mp called
  have imported := List.mem_of_getElem? hi
  obtain ⟨resolver, b, first, outcome, hf, module, -⟩ := exists_resolver prepared imported bound
  exact ⟨resolver, module ▸ first, ⟨i, imported, module.symm⟩,
    fun P offers => Resolver.all_outcome offers outcome f hf⟩

/-- **A sandbox calls what is on offer only.** -/
theorem Sandbox.offered_called (offers : platform.Offers P) {s : Sandbox}
    (prepared : ((prepare platform context).run w).1 = .ok s) {index : Nat}
    {f : HostFunction} (called : s.called? index = some f) : P f := by
  obtain ⟨resolver, -, -, offered⟩ := offered_resolver prepared called
  exact offered P (offers.resolver resolver)

/-- A platform serves the functions that have all properties of what is on offer. -/
def Platform.Serves (platform : Platform) (f : HostFunction) : Prop :=
  ∀ P, platform.Offers P → P f

/-- **Guests call functions that are served only.** -/
theorem Sandbox.serves_called {s : Sandbox}
    (prepared : ((prepare platform context).run w).1 = .ok s) {index : Nat} {f : HostFunction}
    (called : s.called? index = some f) : platform.Serves f :=
  fun _ offers => offered_called offers prepared called

end GuestHost
