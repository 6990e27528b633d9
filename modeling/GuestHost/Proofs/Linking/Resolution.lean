import GuestHost.Proofs.Linking.Binder
import GuestHost.Proofs.Linking.Imports
import GuestHost.Proofs.Loading.Cache
/-!
# The resolution of imports

Every imported module is settled by the first resolver that applies to it, and what that one does
does for the module depends on nothing that has been done for other modules before:
`Resolver.run_settleAll` takes the settling of all imports apart into that of each.
-/

namespace GuestHost

open Stateful

/-! ## Worlds in which imports resolve alike -/

/-- Two worlds with the same store and buffers, in which loading a guest comes to the same. -/
structure World.ResolvesAs (w w' : World) : Prop where
  shelf_eq : w'.shelf = w.shelf
  registry_eq : w'.registry = w.registry
  load_eq : ∀ guest, ((Loading.load guest).run w').1 = ((Loading.load guest).run w).1

namespace World.ResolvesAs

variable {w w' w'' : World}

theorem refl (w : World) : w.ResolvesAs w := ⟨rfl, rfl, fun _ => rfl⟩

theorem trans (h : w.ResolvesAs w') (h' : w'.ResolvesAs w'') : w.ResolvesAs w'' :=
  ⟨h'.shelf_eq.trans h.shelf_eq, h'.registry_eq.trans h.registry_eq,
    fun guest => (h'.load_eq guest).trans (h.load_eq guest)⟩

/-- Worlds with the same store and the same modules load alike. -/
theorem of_eq (shelf : w'.shelf = w.shelf) (registry : w'.registry = w.registry)
    (modules : w'.modules = w.modules) : w.ResolvesAs w' :=
  ⟨shelf, registry, Loading.load_congr shelf modules⟩

theorem note (h : w.ResolvesAs w') (event : Event) : w.ResolvesAs (w'.note event) :=
  h.trans (of_eq rfl rfl rfl)

/-- What is compiled does not depend on the guest that it is compiled for. -/
theorem compile_eq_ok {shelf : Store.Shelf} {guest : String} (other : String)
    {id : Store.ContentId} {m : Wasm.Module} (h : Loading.compile shelf guest id = .ok m) :
    Loading.compile shelf other id = .ok m := by
  unfold Loading.compile at h ⊢
  split at h
  · cases h
  · split at h
    · cases h
    · rename_i guestType
      simp only [if_neg guestType]
      split at h
      · cases h
      · split at h
        · exact h
        · cases h

/-- **Loading a guest does not change what any guest is loaded as.** -/
theorem load (guest : String) (w : World) : w.ResolvesAs ((Loading.load guest).run w).2 := by
  rw [Loading.run_load]
  split
  · exact refl w
  · rename_i id _
    split
    · exact refl w
    · rename_i fresh
      split
      · exact refl w
      · rename_i m compiled
        refine ⟨rfl, rfl, fun other => ?_⟩
        rw [Loading.run_load, Loading.run_load]
        dsimp only
        split
        · rfl
        · rename_i id' _
          rw [Table.find?_insert]
          by_cases same : id' = id
          · -- the module that is kept now is the one that would have been compiled
            subst same
            simp only [if_true, fresh, compile_eq_ok other compiled]
          · rw [if_neg same]
            split
            · rfl
            · split <;> rfl

end World.ResolvesAs

namespace Resolver

variable {platform : Platform} {context : Context} {w w' : World} {module : String}
  {types : Table String Wasm.FuncType} {front : Linker}

/-! ## The resolvers and their order -/

/-- The resolvers in the order in which they are asked. -/
def order : List Resolver := [provider, link, posix, managed]

/-- A resolver applies to an imported module. Where the store cannot tell whether there is a guest
of that name, the link applies, and fails. -/
def Applies (platform : Platform) (shelf : Store.Shelf) (mode : Mode) (module : String) :
    Resolver → Prop
  | provider => platform.providers.contains module = true
  | link => Store.Blob.hasAlias shelf module ≠ .ok false
  | posix => mode = .posix ∧ module ∈ Posix.modules
  | managed => module = Managed.module

instance (platform : Platform) (shelf : Store.Shelf) (mode : Mode) (module : String) :
    DecidablePred (Applies platform shelf mode module)
  | provider => inferInstanceAs (Decidable (_ = true))
  | link => inferInstanceAs (Decidable (_ ≠ _))
  | posix => inferInstanceAs (Decidable (_ ∧ _))
  | managed => inferInstanceAs (Decidable (_ = _))

/-- The first resolver that applies to an imported module. -/
def first? (platform : Platform) (context : Context) (w : World) (module : String) :
    Option Resolver :=
  order.find? fun resolver => Applies platform w.shelf context.mode module resolver

/-- The fault of the store that stops a resolver before it starts. -/
def fault? (w : World) (module : String) : Resolver → Option Failure
  | link =>
    match Store.Blob.hasAlias w.shelf module with
    | .error e => some (.store e)
    | .ok _ => none
  | _ => none

/-- What a resolver comes to for a module when it has the guest to itself: the binder that it
leaves. -/
def serve (platform : Platform) (context : Context) (w : World) (module : String)
    (types : Table String Wasm.FuncType) (resolver : Resolver) : Except Failure Binder :=
  match fault? w module resolver with
  | some e => .error e
  | none =>
    ((resolver.bind platform context .unbound (.new [] module types)).run w).1.map Prod.fst

/-- What settles a module: the functions that the first resolver binds it to. -/
def settled (platform : Platform) (context : Context) (w : World) (module : String)
    (types : Table String Wasm.FuncType) : Except Failure Linker :=
  match first? platform context w module with
  | none => .error (.unresolvedModule module)
  | some resolver => (serve platform context w module types resolver).bind Binder.finish

/-- The process that a resolver leaves. -/
def processAfter (platform : Platform) (context : Context) (w : World) (process : Posix.Process) :
    Resolver → Posix.Process
  | posix => process.bind w.registry context.toInvocation (commandLine platform context)
  | _ => process

/-- The process once a module has been settled. -/
def processOf (platform : Platform) (context : Context) (w : World) (process : Posix.Process)
    (module : String) : Posix.Process :=
  (first? platform context w module).elim process (processAfter platform context w process)

/-- The resolver chosen is the first that applies. -/
theorem choose_eq (platform : Platform) (context : Context) (w : World) (module : String) :
    choose platform w.shelf context.mode module =
      match first? platform context w module with
      | none => .error (.unresolvedModule module)
      | some resolver =>
        match fault? w module resolver with
        | some e => .error e
        | none => .ok resolver := by
  unfold choose first? order
  by_cases provided : platform.providers.contains module = true
  · simp [Applies, fault?, provided]
  · cases known : Store.Blob.hasAlias w.shelf module with
    | error e => simp [Applies, fault?, provided, known]
    | ok found =>
      cases found with
      | true => simp [Applies, fault?, provided, known]
      | false =>
        by_cases system : context.mode = .posix ∧ module ∈ Posix.modules
        · simp [Applies, fault?, provided, known, system]
        · by_cases hooks : module = Managed.module
          · subst hooks
            simp [Applies, fault?, provided, known, system]
          · simp [Applies, provided, known, system, hooks]

/-! ## One module -/

/-- What a resolver comes to for a binder. -/
def outcome (platform : Platform) (context : Context) (w : World) (binder : Binder) :
    Resolver → Except Failure Binder
  | provider => (((platform.providers.find? binder.module).getD ⟨.done⟩).bind w binder).1
  | link =>
    match Link.cycle? context.chain binder.module with
    | some e => .error e
    | none => ((Loading.load binder.module).run w).1.bind fun target => Link.bind target binder
  | posix => ((Posix.provider binder.importedNames).bind w binder).1
  | managed => ((Managed.provider binder.importedNames).bind w binder).1

theorem run_provide (provider : Provider) (binder : Binder) (w : World) :
    (provide provider binder).run w = provider.bind w binder := by
  simp only [provide, run_bind, run_get, run_set, run_ofExcept]

theorem run_bind_eq (w : World) (process : Posix.Process) (binder : Binder) (resolver : Resolver) :
    ((resolver.bind platform context process binder).run w).1 =
      (outcome platform context w binder resolver).map fun b =>
        (b, processAfter platform context w process resolver) := by
  have provided : ∀ (provider : Provider) (process : Posix.Process),
      ((do return (← provide provider binder, process) :
        Setup (Binder × Posix.Process)).run w).1 =
        (provider.bind w binder).1.map fun b => (b, process) := by
    intro provider process
    rw [run_bind, run_provide]
    cases (provider.bind w binder).1 <;> rfl
  cases resolver with
  | provider => exact provided _ process
  | link =>
    unfold bind outcome
    dsimp only
    cases Link.cycle? context.chain binder.module with
    | some e => rfl
    | none =>
      dsimp only
      rw [run_bind]
      cases ((Loading.load binder.module).run w).1 with
      | error e => rfl
      | ok target =>
        dsimp only [Except.bind]
        rw [run_bind, run_ofExcept]
        cases Link.bind target binder <;> rfl
  | posix => exact provided _ _
  | managed => exact provided _ process

/-- **A resolver binds a module as it does when it has the guest to itself.** -/
theorem outcome_onto (h : w.ResolvesAs w') (lacks : front.Lacks module) (resolver : Resolver) :
    outcome platform context w' (.new front module types) resolver =
      (outcome platform context w (.new [] module types) resolver).map (Binder.onto front) := by
  have serves := Binder.serves_new module types
  rw [← Binder.onto_new front]
  cases resolver with
  | provider => exact Plan.run_onto lacks _ w' w serves
  | link =>
    unfold outcome
    dsimp only [Binder.onto, Binder.new]
    cases Link.cycle? context.chain module with
    | some e => rfl
    | none =>
      dsimp only
      rw [h.load_eq]
      cases ((Loading.load module).run w).1 with
      | error e => rfl
      | ok target => exact Link.bindAll_onto lacks _ serves
  | posix => exact Plan.run_onto lacks _ w' w serves
  | managed => exact Plan.run_onto lacks _ w' w serves

theorem serve_eq (platform : Platform) (context : Context) (w : World) (module : String)
    (types : Table String Wasm.FuncType) (resolver : Resolver) :
    serve platform context w module types resolver =
      match fault? w module resolver with
      | some e => .error e
      | none => outcome platform context w (.new [] module types) resolver := by
  unfold serve
  rw [run_bind_eq]
  cases outcome platform context w (.new [] module types) resolver <;> rfl

theorem first?_eq (h : w.ResolvesAs w') (platform : Platform) (context : Context)
    (module : String) : first? platform context w' module = first? platform context w module := by
  unfold first?
  rw [h.shelf_eq]

theorem fault?_eq (h : w.ResolvesAs w') (module : String) (resolver : Resolver) :
    fault? w' module resolver = fault? w module resolver := by
  cases resolver with
  | link => simp only [fault?, h.shelf_eq]
  | _ => rfl

theorem processAfter_eq (h : w.ResolvesAs w') (process : Posix.Process) (resolver : Resolver) :
    processAfter platform context w' process resolver =
      processAfter platform context w process resolver := by
  cases resolver with
  | posix => simp only [processAfter, h.registry_eq]
  | _ => rfl

/-- Once its resolver is known, a module is bound, noted down, and checked to be complete. -/
theorem run_settleBy (h : w.ResolvesAs w') (lacks : front.Lacks module) (process : Posix.Process)
    (resolver : Resolver) :
    ((do
      let (binder, process) ← resolver.bind platform context process (.new front module types)
      if context.trace then modify fun world => world.note (.resolved module resolver)
      return (← Setup.ofExcept binder.finish, process) :
      Setup (Linker × Posix.Process)).run w').1 =
      ((outcome platform context w (.new [] module types) resolver).bind Binder.finish).map
        fun linker => (front ++ linker, processAfter platform context w process resolver) := by
  rw [run_bind, run_bind_eq, outcome_onto h lacks, processAfter_eq h]
  cases outcome platform context w (.new [] module types) resolver with
  | error e => rfl
  | ok b =>
    generalize processAfter platform context w process resolver = process
    have finish : ∀ world, ((do return (← Setup.ofExcept (b.onto front).finish, process) :
        Setup (Linker × Posix.Process)).run world).1 =
          b.finish.map fun linker => (front ++ linker, process) := by
      intro world
      rw [run_bind, run_ofExcept, Binder.finish_onto]
      cases b.finish <;> rfl
    dsimp only [Except.map, Except.bind]
    split
    · exact finish _
    · exact finish _

/-- **Settling a module among others comes to what settles it by itself.** -/
theorem run_settle (platform : Platform) (context : Context) (types : Table String Wasm.FuncType)
    (h : w.ResolvesAs w') (lacks : front.Lacks module) (process : Posix.Process) :
    ((settle platform context module types front process).run w').1 =
      (settled platform context w module types).map fun linker =>
        (front ++ linker, processOf platform context w process module) := by
  unfold settle settled processOf
  rw [run_bind, run_get]
  dsimp only
  rw [run_bind, run_ofExcept, choose_eq, first?_eq h]
  cases first? platform context w module with
  | none => rfl
  | some resolver =>
    dsimp only
    rw [fault?_eq h, serve_eq]
    cases fault? w module resolver with
    | some e => rfl
    | none => exact run_settleBy h lacks process resolver

/-! ## All modules -/

theorem serves_outcome {resolver : Resolver} {b : Binder}
    (h : outcome platform context w (.new [] module types) resolver = .ok b) :
    b.Serves module types := by
  have serves := Binder.serves_new module types
  cases resolver with
  | provider => exact Plan.serves_run _ serves h
  | link =>
    dsimp only [outcome, Binder.new] at h
    split at h
    · cases h
    · cases loaded : ((Loading.load module).run w).1 with
      | error e =>
        rw [loaded] at h
        cases h
      | ok target =>
        rw [loaded] at h
        exact Link.serves_bindAll serves h
  | posix => exact Plan.serves_run _ serves h
  | managed => exact Plan.serves_run _ serves h

theorem serves_serve {resolver : Resolver} {b : Binder}
    (h : serve platform context w module types resolver = .ok b) : b.Serves module types := by
  rw [serve_eq] at h
  split at h
  · cases h
  · exact serves_outcome h

/-- A module is settled by a binder that is finished. -/
theorem settled_eq_ok_iff {linker : Linker} :
    settled platform context w module types = .ok linker ↔
      ∃ resolver b, first? platform context w module = some resolver ∧
        serve platform context w module types resolver = .ok b ∧ b.finish = .ok linker := by
  unfold settled
  cases first? platform context w module with
  | none => simp
  | some resolver =>
    cases served : serve platform context w module types resolver with
    | error e => simp [served, Except.bind]
    | ok b => simp [served, Except.bind]

theorem own_of_settled {linker : Linker}
    (h : settled platform context w module types = .ok linker) :
    ∀ f ∈ linker, f.module = module := by
  obtain ⟨resolver, b, -, served, finished⟩ := settled_eq_ok_iff.mp h
  obtain ⟨-, rfl⟩ := Binder.finish_eq_ok_iff.mp finished
  exact (serves_serve served).own

/-- **Settling modules one after the other is settling each by itself.** -/
theorem run_settleAll (platform : Platform) (context : Context) (front : Linker)
    (entries : List (String × Table String Wasm.FuncType))
    (distinct : entries.Pairwise fun a b => a.1 ≠ b.1) (h : w.ResolvesAs w')
    (lacks : ∀ e ∈ entries, front.Lacks e.1) (acyclic : front.Acyclic context.chain)
    (process : Posix.Process) :
    ((settleAll platform context entries front process).run w').1 =
      (entries.mapM fun e => settled platform context w e.1 e.2).map fun linkers =>
        (front ++ linkers.flatten,
          entries.foldl (fun process e => processOf platform context w process e.1) process) := by
  have alike : ∀ guest, Obeys w.ResolvesAs (Loading.load guest) fun _ => True :=
    fun guest w' hw => ⟨hw.trans (.load guest w'), fun _ _ => trivial⟩
  induction entries generalizing front process w' with
  | nil => simp [settleAll, Except.map, pure, Except.pure]; rfl
  | cons e rest ih =>
    obtain ⟨module, types⟩ := e
    obtain ⟨fresh, distinct⟩ := List.pairwise_cons.mp distinct
    have here := run_settle platform context types h (lacks _ List.mem_cons_self) process
    have obeys : Obeys w.ResolvesAs (settle platform context module types front process)
        fun settled => settled.1.Acyclic context.chain :=
      obeys_settle (fun _ event hw => hw.note event) alike module types acyclic process
    have spec := obeys w' h
    unfold settleAll
    rw [run_bind, here, List.mapM_cons]
    rw [here] at spec
    cases settles : settled platform context w module types with
    | error e => rfl
    | ok linker =>
      rw [settles] at spec
      dsimp only [Except.map]
      rw [ih _ distinct spec.1 ?_ (spec.2 _ rfl)]
      · cases rest.mapM fun e => settled platform context w e.1 e.2 with
        | error e => rfl
        | ok linkers =>
          simp only [Except.map, Bind.bind, Except.bind, Pure.pure, Except.pure,
            List.flatten_cons, List.append_assoc, List.foldl_cons]
      · intro e he f hf
        rcases List.mem_append.mp hf with hf | hf
        · exact lacks e (List.mem_cons_of_mem _ he) f hf
        · rw [own_of_settled settles f hf]
          exact fresh e he

end Resolver

end GuestHost
