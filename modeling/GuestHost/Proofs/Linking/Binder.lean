import GuestHost.Link
import GuestHost.Provider
/-!
# What binding does

Whatever is bound, a binder either stays as it is or gets one more function, under a name that the
guest imports, with the type that the guest declares for it: `Binder.Grows`. So a binder that has
started from nothing holds one function for each name that is bound, `Binder.Serves`, and nothing
that it does depends on what other modules have been bound to before, `Plan.run_onto`.
-/

namespace GuestHost

namespace Linker

/-- All functions of a linker have a property. -/
def All (P : HostFunction → Prop) (linker : Linker) : Prop := ∀ f ∈ linker, P f

/-- No function of a linker belongs to a module. -/
def Lacks (linker : Linker) (module : String) : Prop := ∀ f ∈ linker, f.module ≠ module

variable {linker : Linker} {module name : String}

theorem find?_append_of_lacks (h : linker.Lacks module) (other : Linker) :
    Linker.find? (linker ++ other) module name = Linker.find? other module name := by
  unfold Linker.find?
  rw [List.find?_append, List.find?_eq_none.mpr, Option.none_or]
  intro f hf found
  exact h f hf (by simpa using (Bool.and_eq_true_iff.mp found).1)

theorem find?_eq_none_iff :
    linker.find? module name = none ↔ ∀ f ∈ linker, f.module = module → f.name ≠ name := by
  unfold Linker.find?
  rw [List.find?_eq_none]
  simp

end Linker

namespace Binder

variable {P : HostFunction → Prop} {b b' : Binder} {name : String} {backing : Backing}

/-! ## One binding -/

/-- A binder stays as it is or gets a function that is on offer. -/
inductive Grows (P : HostFunction → Prop) (b : Binder) : Binder → Prop where
  | same : Grows P b b
  | attached (f : HostFunction) (offered : P f) (own : f.module = b.module)
      (declared : b.imports.find? f.name = some f.type)
      (free : b.linker.find? b.module f.name = none) :
      Grows P b { b with bound := f.name :: b.bound, linker := b.linker ++ [f] }

theorem grows_attach {type : Wasm.FuncType} {result : Option NumKind}
    (offered : P ⟨b.module, name, type, result, backing⟩)
    (declared : b.imports.find? name = some type)
    (h : b.attach name type result backing = .ok b') : b.Grows P b' := by
  unfold attach at h
  split at h
  · cases h
  · rename_i free
    obtain rfl := Except.ok.inj h
    exact .attached ⟨b.module, name, type, result, backing⟩ offered rfl declared free

theorem grows_bind {signature : Signature}
    (offered : ∀ type, signature.Matches type →
      P ⟨b.module, name, type, signature.result, backing⟩)
    (h : b.bind name signature backing = .ok b') : b.Grows P b' := by
  unfold bind at h
  split at h
  · exact Except.ok.inj h ▸ .same
  · rename_i type declared
    split at h
    · rename_i fits
      exact grows_attach (offered type fits) declared h
    · cases h

theorem grows_bindDeclared
    (offered : ∀ type result, P ⟨b.module, name, type, result, backing⟩)
    (h : b.bindDeclared name backing = .ok b') : b.Grows P b' := by
  unfold bindDeclared at h
  split at h
  · exact Except.ok.inj h ▸ .same
  · rename_i type declared
    exact grows_attach (offered type _) declared h

/-- What grows by functions with a property has no others, if it has none to start with. -/
theorem Grows.all (h : b.Grows P b') (hb : b.linker.All P) : b'.linker.All P := by
  cases h with
  | same => exact hb
  | attached f offered own declared free =>
    intro g hg
    rcases List.mem_append.mp hg with hg | hg
    · exact hb g hg
    · rw [List.mem_singleton.mp hg]
      exact offered

/-! ## Functions for the imports of one module -/

/-- What holds of a binder that serves a module and has started from nothing: it holds one
function, of the type declared, for each name that is bound, and nothing else. -/
structure Serves (module : String) (imports : Table String Wasm.FuncType) (b : Binder) : Prop where
  module_eq : b.module = module
  imports_eq : b.imports = imports
  own : ∀ f ∈ b.linker, f.module = module
  declared : ∀ f ∈ b.linker, imports.find? f.name = some f.type
  bound_iff : ∀ name, name ∈ b.bound ↔ ∃ f ∈ b.linker, f.name = name
  nodup : (b.linker.map HostFunction.name).Nodup

variable {module : String} {imports : Table String Wasm.FuncType}

theorem serves_new (module : String) (imports : Table String Wasm.FuncType) :
    (new [] module imports).Serves module imports :=
  ⟨rfl, rfl, by simp [new], by simp [new], by simp [new], List.nodup_nil⟩

/-- **A binder that grows goes on serving its module.** -/
theorem Serves.grows (hb : b.Serves module imports) (h : b.Grows P b') :
    b'.Serves module imports := by
  cases h with
  | same => exact hb
  | attached f offered own declared free =>
    rw [hb.module_eq] at own
    rw [hb.imports_eq] at declared
    rw [hb.module_eq, Linker.find?_eq_none_iff] at free
    refine ⟨hb.module_eq, hb.imports_eq, ?_, ?_, fun other => ?_, ?_⟩
    · simpa [or_imp, forall_and] using ⟨hb.own, own⟩
    · simpa [or_imp, forall_and] using ⟨hb.declared, declared⟩
    · simp only [List.mem_cons, hb.bound_iff, List.mem_append, List.not_mem_nil, or_false,
        or_and_right, exists_or, exists_eq_left]
      rw [or_comm, eq_comm]
    · rw [List.map_append, List.map_singleton, List.nodup_append]
      refine ⟨hb.nodup, by simp, fun taken htaken other hother => ?_⟩
      obtain ⟨g, hg, rfl⟩ := List.mem_map.mp htaken
      rw [List.mem_singleton.mp hother]
      exact free g hg (hb.own g hg)

/-- The functions of a name are one, once the name is bound. -/
theorem Serves.filter_eq (hb : b.Serves module imports) {f : HostFunction} (hf : f ∈ b.linker) :
    b.linker.filter (fun g => g.name == f.name) = [f] := by
  have nodup := hb.nodup
  revert hf nodup
  generalize b.linker = linker
  intro hf nodup
  induction linker with
  | nil => cases hf
  | cons g rest ih =>
    rw [List.map_cons, List.nodup_cons] at nodup
    have fresh : ∀ k ∈ rest, k.name ≠ g.name := fun k hk same =>
      nodup.1 (List.mem_map.mpr ⟨k, hk, same⟩)
    rcases List.mem_cons.mp hf with rfl | hf
    · rw [List.filter_cons_of_pos (by simp), List.filter_eq_nil_iff.mpr]
      simpa using fresh
    · rw [List.filter_cons_of_neg, ih hf nodup.2]
      simpa using (fresh f hf).symm

/-! ## Functions in front -/

/-- A binder with functions in front of its own. -/
def onto (front : Linker) (b : Binder) : Binder := { b with linker := front ++ b.linker }

variable {front : Linker}

theorem onto_new (front : Linker) (module : String) (imports : Table String Wasm.FuncType) :
    (new [] module imports).onto front = new front module imports := by
  simp [onto, new]

theorem attach_onto (h : front.Lacks b.module) (name : String) (backing : Backing)
    (type : Wasm.FuncType) (result : Option NumKind) :
    (b.onto front).attach name type result backing =
      (b.attach name type result backing).map (onto front) := by
  simp only [attach, onto, Linker.find?_append_of_lacks h]
  cases b.linker.find? b.module name with
  | some f => rfl
  | none => simp [Except.map, onto]

theorem bind_onto (h : front.Lacks b.module) (signature : Signature) :
    (b.onto front).bind name signature backing =
      (b.bind name signature backing).map (onto front) := by
  have attach := attach_onto h name backing
  have imports : (b.onto front).imports = b.imports := rfl
  simp only [bind, imports, attach]
  split
  · rfl
  · split <;> rfl

theorem bindDeclared_onto (h : front.Lacks b.module) :
    (b.onto front).bindDeclared name backing = (b.bindDeclared name backing).map (onto front) := by
  have attach := attach_onto h name backing
  have imports : (b.onto front).imports = b.imports := rfl
  simp only [bindDeclared, imports, attach]
  split <;> rfl

theorem finish_onto (front : Linker) (b : Binder) :
    (b.onto front).finish = b.finish.map (front ++ ·) := by
  have unbound : (b.onto front).unbound = b.unbound := rfl
  simp only [finish, unbound]
  split <;> rfl

/-! ## Finishing -/

/-- **A binder is finished once every import is bound.** -/
theorem finish_eq_ok_iff {linker : Linker} :
    b.finish = .ok linker ↔ (∀ name ∈ b.importedNames, name ∈ b.bound) ∧ b.linker = linker := by
  have complete : b.unbound = [] ↔ ∀ name ∈ b.importedNames, name ∈ b.bound := by
    unfold unbound
    rw [List.filter_eq_nil_iff]
    simp
  unfold finish
  rw [← complete]
  split
  · rename_i none
    simp [none]
  · rename_i some
    simp [some]

/-- Otherwise the first import that is not bound is the failure. -/
theorem finish_eq_error_iff {e : Failure} :
    b.finish = .error e ↔ ∃ before name after, b.importedNames = before ++ name :: after ∧
      (∀ other ∈ before, other ∈ b.bound) ∧ name ∉ b.bound ∧
      e = .unresolvedImport b.module name := by
  have first : ∀ {name rest}, b.unbound = name :: rest ↔ ∃ before after,
      b.importedNames = before ++ name :: after ∧ (∀ other ∈ before, other ∈ b.bound) ∧
      name ∉ b.bound ∧ after.filter (fun name => !b.bound.contains name) = rest := by
    intro name rest
    unfold unbound
    rw [List.filter_eq_cons_iff]
    simp
  unfold finish
  constructor
  · intro h
    split at h
    · cases h
    · rename_i name rest unbound
      obtain ⟨before, after, split, complete, missing, -⟩ := first.mp unbound
      exact ⟨before, name, after, split, complete, missing, (Except.error.inj h).symm⟩
  · rintro ⟨before, name, after, split, complete, missing, rfl⟩
    rw [first.mpr ⟨before, after, split, complete, missing, rfl⟩]

end Binder

/-! ## Links -/

namespace Link

variable {guest module : String} {target : Wasm.Module} {imports : Table String Wasm.FuncType}
  {b b' : Binder} {front : Linker}

theorem isLinkable_of_signature {name : String} {type : Wasm.FuncType} {s : Signature}
    (h : signature guest name type = .ok s) : isLinkable s := by
  unfold signature at h
  split at h
  · rename_i found
    obtain rfl := Except.ok.inj h
    exact (Option.filter_eq_some_iff.mp found).2
  · cases h

/-- **Links keep what growing keeps**, and bind functions that can be called across a link only. -/
theorem keeps_bindAll {P : HostFunction → Prop} {I : Binder → Prop}
    (keeps : ∀ {b b' : Binder}, b.Grows P b' → I b → I b')
    (offered : ∀ module name type signature, isLinkable signature → signature.Matches type →
      P ⟨module, name, type, signature.result, .guest guest name⟩)
    {names : List String} (hb : I b) (h : bindAll guest target names b = .ok b') : I b' := by
  induction names generalizing b with
  | nil => exact Except.ok.inj h ▸ hb
  | cons name rest ih =>
    unfold bindAll at h
    split at h
    · exact ih hb h
    · split at h
      · cases h
      · rename_i signature linked
        split at h
        · cases h
        · rename_i bound
          have linkable := isLinkable_of_signature linked
          have grows := Binder.grows_bind (fun type => offered _ name type _ linkable) bound
          exact ih (keeps grows hb) h

theorem serves_bindAll {names : List String} (hb : b.Serves module imports)
    (h : bindAll guest target names b = .ok b') : b'.Serves module imports :=
  keeps_bindAll (P := fun _ => True) (fun grows hb => hb.grows grows)
    (fun _ _ _ _ _ _ => trivial) hb h

theorem bindAll_onto (lacks : front.Lacks module) (names : List String)
    (hb : b.Serves module imports) :
    bindAll guest target names (b.onto front) =
      (bindAll guest target names b).map (Binder.onto front) := by
  induction names generalizing b with
  | nil => rfl
  | cons name rest ih =>
    unfold bindAll
    split
    · exact ih hb
    · split
      · rfl
      · rw [Binder.bind_onto (hb.module_eq ▸ lacks)]
        cases bound : b.bind name _ (.guest guest name) with
        | error e => rfl
        | ok next =>
          exact ih (hb.grows (Binder.grows_bind (P := fun _ => True) (fun _ _ => trivial) bound))

end Link

/-! ## Providers -/

/-- A binding binds only functions with a property. -/
def Binding.Offers (P : HostFunction → Prop) : Binding → Prop
  | .typed name signature handler => ∀ module type, signature.Matches type →
    P ⟨module, name, type, signature.result, .handler handler⟩
  | .declared name handler => ∀ module type result, P ⟨module, name, type, result, .handler handler⟩
  | .unimplemented name => ∀ module type result,
    P ⟨module, name, type, result, .handler (.stub module name)⟩
  | .inspect _ => True

theorem Binding.offers_true (binding : Binding) : binding.Offers fun _ => True := by
  cases binding <;> simp [Offers]

/-- All bindings of a plan bind only functions with a property. -/
def Plan.Offers (P : HostFunction → Prop) : Plan → Prop
  | .done => True
  | .refuse _ => True
  | .bind binding next => binding.Offers P ∧ ∀ outcome, (next outcome).Offers P
  | .look next => ∀ view, (next view).Offers P

namespace Plan

variable {module : String} {imports : Table String Wasm.FuncType} {b b' : Binder} {front : Linker}

theorem grows_step {P : HostFunction → Prop} {w : World} {binding : Binding}
    (offers : binding.Offers P) (h : (step w b binding).1 = .ok b') : b.Grows P b' := by
  cases binding with
  | typed name signature handler => exact Binder.grows_bind (offers _) h
  | declared name handler => exact Binder.grows_bindDeclared (offers _) h
  | unimplemented name => exact Binder.grows_bindDeclared (offers _) h
  | inspect name => exact Except.ok.inj h ▸ .same

theorem offers_of_forall {P : HostFunction → Prop} (h : ∀ binding : Binding, binding.Offers P)
    (plan : Plan) : plan.Offers P := by
  induction plan with
  | done => trivial
  | refuse e => trivial
  | bind binding next ih => exact ⟨h binding, ih⟩
  | look next ih => exact ih

theorem offers_ofList {P : HostFunction → Prop} {bindings : List Binding}
    (h : ∀ binding ∈ bindings, binding.Offers P) : (ofList bindings).Offers P := by
  induction bindings with
  | nil => trivial
  | cons binding rest ih =>
    refine ⟨h binding List.mem_cons_self, fun outcome => ?_⟩
    cases outcome with
    | ok => exact ih fun other hother => h other (List.mem_cons_of_mem _ hother)
    | error e => trivial

/-- **Plans keep what growing keeps.** -/
theorem keeps_run {P : HostFunction → Prop} {I : Binder → Prop}
    (keeps : ∀ {b b' : Binder}, b.Grows P b' → I b → I b') {plan : Plan} (offers : plan.Offers P)
    {w : World} (hb : I b) (h : (plan.run w b).1 = .ok b') : I b' := by
  induction plan generalizing w b with
  | done => exact Except.ok.inj h ▸ hb
  | refuse e => cases h
  | look next ih => exact ih b.view (offers _) hb h
  | bind binding next ih =>
    unfold run at h
    split at h
    · rename_i next w' step
      exact ih _ (offers.2 _) (keeps (grows_step offers.1 (by rw [step])) hb) h
    · exact ih _ (offers.2 _) hb h

theorem serves_run (plan : Plan) {w : World} (hb : b.Serves module imports)
    (h : (plan.run w b).1 = .ok b') : b'.Serves module imports :=
  keeps_run (fun grows hb => hb.grows grows) (offers_of_forall Binding.offers_true plan) hb h

/-- A binding does not look at the world, nor at the functions in front. -/
theorem step_onto (lacks : front.Lacks b.module) (w w' : World) (binding : Binding) :
    (step w (b.onto front) binding).1 = (step w' b binding).1.map (Binder.onto front) := by
  cases binding with
  | typed name signature handler => exact Binder.bind_onto lacks _
  | declared name handler => exact Binder.bindDeclared_onto lacks
  | unimplemented name => exact Binder.bindDeclared_onto lacks
  | inspect name => rfl

/-- **What a plan binds depends on nothing but the imports**: neither on the world nor on what
other modules have been bound to. -/
theorem run_onto (lacks : front.Lacks module) (plan : Plan) (w w' : World)
    (hb : b.Serves module imports) :
    (plan.run w (b.onto front)).1 = (plan.run w' b).1.map (Binder.onto front) := by
  induction plan generalizing w w' b with
  | done => rfl
  | refuse e => rfl
  | look next ih => exact ih b.view w w' hb
  | bind binding next ih =>
    have first := step_onto (hb.module_eq ▸ lacks) w w' binding
    unfold run
    cases alone : step w' b binding with
    | mk outcome world' =>
      cases framed : step w (b.onto front) binding with
      | mk outcome' world =>
        rw [alone, framed] at first
        obtain rfl : outcome' = outcome.map (Binder.onto front) := first
        cases outcome with
        | error e => exact ih _ world world' hb
        | ok next =>
          exact ih _ world world' (hb.grows (grows_step binding.offers_true (by rw [alone])))

end Plan

end GuestHost
