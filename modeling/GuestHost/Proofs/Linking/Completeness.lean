import GuestHost.Host
import GuestHost.Proofs.Linking.Resolution
import Mathlib.Data.List.Forall2
/-!
# When a guest can be prepared

A module that a guest imports is settled if a resolver applies to it and the first one that does
succeeds and binds every name imported from it, `Resolver.Settles`; otherwise it is the first
resolver alone that says why not, `Resolver.Fails`. A guest is prepared exactly if each of the
modules that it imports is settled, and otherwise fails as the first that is not, in the order of
the bytes of their names: `Resolver.first_applicable_decides`.
-/

namespace GuestHost

open Stateful

/-! ## Traversals that stop at the first failure -/

namespace Traversal

variable {ε α β : Type} {f : α → Except ε β} {l : List α}

theorem mapM_eq_ok_iff {results : List β} :
    l.mapM f = .ok results ↔ List.Forall₂ (fun a b => f a = .ok b) l results := by
  induction l generalizing results with
  | nil => simp [pure, Except.pure, eq_comm]
  | cons a rest ih =>
    rw [List.mapM_cons, List.forall₂_cons_left_iff]
    simp only [← ih]
    cases first : f a with
    | error e => simp [bind, Except.bind]
    | ok b =>
      cases others : rest.mapM f with
      | error e => simp [bind, Except.bind]
      | ok bs => simp [bind, Except.bind, pure, Except.pure, eq_comm]

theorem mapM_isOk_iff : (∃ results, l.mapM f = .ok results) ↔ ∀ a ∈ l, ∃ b, f a = .ok b := by
  simp only [mapM_eq_ok_iff]
  induction l with
  | nil => simp
  | cons a rest ih => simp [List.forall₂_cons_left_iff, ← ih]

/-- **A traversal fails as the first element that does.** -/
theorem mapM_eq_error_iff {e : ε} :
    l.mapM f = .error e ↔ ∃ before a after, l = before ++ a :: after ∧
      (∀ b ∈ before, ∃ c, f b = .ok c) ∧ f a = .error e := by
  induction l with
  | nil => simp [pure, Except.pure]
  | cons a rest ih =>
    rw [List.mapM_cons]
    cases first : f a with
    | error e' =>
      change Except.error e' = Except.error e ↔ _
      constructor
      · intro h
        exact ⟨[], a, rest, rfl, by simp, by rw [first, Except.error.inj h]⟩
      · rintro ⟨before, b, after, split, good, bad⟩
        cases before with
        | nil =>
          obtain ⟨rfl, -⟩ := List.cons.inj split
          rw [Except.error.inj (first.symm.trans bad)]
        | cons b before =>
          obtain ⟨rfl, -⟩ := List.cons.inj split
          obtain ⟨c, hc⟩ := good a List.mem_cons_self
          cases first.symm.trans hc
    | ok b =>
      have later : (do return b :: (← rest.mapM f) : Except ε (List β)) = .error e ↔
          rest.mapM f = .error e := by
        cases rest.mapM f <;> simp [bind, Except.bind, pure, Except.pure]
      refine later.trans (ih.trans ⟨?_, ?_⟩)
      · rintro ⟨before, x, after, rfl, good, bad⟩
        exact ⟨a :: before, x, after, rfl, by simpa [first] using good, bad⟩
      · rintro ⟨before, x, after, split, good, bad⟩
        cases before with
        | nil =>
          obtain ⟨rfl, -⟩ := List.cons.inj split
          cases first.symm.trans bad
        | cons c before =>
          obtain ⟨rfl, rfl⟩ := List.cons.inj split
          exact ⟨before, x, after, rfl, fun y hy => good y (List.mem_cons_of_mem _ hy), bad⟩

theorem mapM_congr {g : α → Except ε β} (same : ∀ a ∈ l, f a = g a) : l.mapM f = l.mapM g := by
  induction l with
  | nil => rfl
  | cons a rest ih =>
    rw [List.mapM_cons, List.mapM_cons, same a List.mem_cons_self,
      ih fun b hb => same b (List.mem_cons_of_mem _ hb)]

/-- The first element of its kind in a sorted list is the least. -/
theorem exists_first_iff {κ : Type} [LT κ] [KeyOrder κ] (key : α → κ) {P Q : α → Prop}
    (sorted : l.Pairwise fun a b => key a < key b) :
    (∃ before a after, l = before ++ a :: after ∧ (∀ b ∈ before, P b) ∧ Q a) ↔
      ∃ a ∈ l, Q a ∧ ∀ b ∈ l, key b < key a → P b := by
  constructor
  · rintro ⟨before, a, after, rfl, passed, found⟩
    refine ⟨a, by simp, found, fun b hb less => ?_⟩
    obtain ⟨-, behind, -⟩ := List.pairwise_append.mp sorted
    rcases List.mem_append.mp hb with hb | hb
    · exact passed b hb
    · rcases List.mem_cons.mp hb with rfl | hb
      · exact absurd less (KeyOrder.irrefl _)
      · exact absurd (KeyOrder.trans less (List.rel_of_pairwise_cons behind hb))
          (KeyOrder.irrefl _)
  · rintro ⟨a, ha, found, passed⟩
    obtain ⟨before, after, rfl⟩ := List.append_of_mem ha
    obtain ⟨-, -, before_lt⟩ := List.pairwise_append.mp sorted
    exact ⟨before, a, after, rfl, fun b hb =>
      passed b (List.mem_append_left _ hb) (before_lt b hb a List.mem_cons_self), found⟩

end Traversal

/-- **A binder that cannot be finished fails as the least name that it leaves unbound**, in the order
of the bytes. -/
theorem Binder.finish_eq_error_iff_least {b : Binder} {e : Failure} :
    b.finish = .error e ↔ ∃ name ∈ b.importedNames, name ∉ b.bound ∧
      (∀ other ∈ b.importedNames, Utf8.encode other < Utf8.encode name → other ∈ b.bound) ∧
      e = .unresolvedImport b.module name := by
  rw [finish_eq_error_iff]
  refine (Traversal.exists_first_iff id b.imports.keys_sorted).trans ?_
  simp only [Utf8.encode_lt_iff]
  exact exists_congr fun name => and_congr_right' (and_assoc.trans (and_congr_right' and_comm))

namespace Resolver

/-! ## What settles a module, and why it is not settled -/

variable {platform : Platform} {context : Context} {w : World} {program : Wasm.Module}
  {module name : String}

/-- The functions that a program imports from a module. -/
def typesOf (program : Wasm.Module) (module : String) : Table String Wasm.FuncType :=
  .ofList (Imports.declared program.imports module)

/-- A program imports something from a module. -/
def Imported (program : Wasm.Module) (module : String) : Prop :=
  ∃ i ∈ program.imports, i.module = module

/-- All that a program imports are functions. -/
def OnlyFunctions (program : Wasm.Module) : Prop := ∀ i ∈ program.imports, i.type.isSome

/-- **A module is settled** if a resolver applies to it and the first one that does succeeds and
binds every name that is imported from it. -/
def Settles (platform : Platform) (context : Context) (w : World) (program : Wasm.Module)
    (module : String) : Prop :=
  ∃ resolver b, first? platform context w module = some resolver ∧
    serve platform context w module (typesOf program module) resolver = .ok b ∧
    ∀ i ∈ program.imports, i.module = module → i.name ∈ b.bound

/-- Why a module is not settled: no resolver applies, or the first one that does fails, or it
leaves names unbound. -/
inductive Fails (platform : Platform) (context : Context) (w : World) (program : Wasm.Module)
    (module : String) : Failure → Prop where
  | nobody (none : first? platform context w module = none) :
      Fails platform context w program module (.unresolvedModule module)
  | refused {resolver : Resolver} {e : Failure}
      (first : first? platform context w module = some resolver)
      (served : serve platform context w module (typesOf program module) resolver = .error e) :
      Fails platform context w program module e
  | incomplete {resolver : Resolver} {b : Binder} {i : Wasm.Import}
      (first : first? platform context w module = some resolver)
      (served : serve platform context w module (typesOf program module) resolver = .ok b)
      (imported : i ∈ program.imports) (own : i.module = module) (missing : i.name ∉ b.bound)
      (least : ∀ j ∈ program.imports, j.module = module →
        Utf8.encode j.name < Utf8.encode i.name → j.name ∈ b.bound) :
      Fails platform context w program module (.unresolvedImport module i.name)

theorem mem_keys_typesOf (functions : OnlyFunctions program) :
    name ∈ (typesOf program module).keys ↔
      ∃ i ∈ program.imports, i.module = module ∧ i.name = name := by
  rw [Table.mem_keys_iff, typesOf, Table.find?_ofList, List.lookup_isSome_iff]
  simp only [List.mem_reverse, Prod.exists, Imports.mem_declared, beq_iff_eq]
  constructor
  · rintro ⟨_, _, ⟨i, hi, own, rfl, -⟩, rfl⟩
    exact ⟨i, hi, own, rfl⟩
  · rintro ⟨i, hi, own, rfl⟩
    obtain ⟨type, function⟩ := Option.isSome_iff_exists.mp (functions i hi)
    exact ⟨i.name, type, ⟨i, hi, own, rfl, function⟩, rfl⟩

/-- A binder binds every name that is imported exactly if it is finished. -/
theorem finish_isOk_iff {b : Binder} (functions : OnlyFunctions program)
    (serves : b.Serves module (typesOf program module)) :
    (∃ linker, b.finish = .ok linker) ↔
      ∀ i ∈ program.imports, i.module = module → i.name ∈ b.bound := by
  simp only [Binder.finish_eq_ok_iff, exists_and_left, exists_eq', and_true, Binder.importedNames,
    serves.imports_eq, mem_keys_typesOf functions]
  constructor
  · exact fun complete i hi own => complete i.name ⟨i, hi, own, rfl⟩
  · rintro complete _ ⟨i, hi, own, rfl⟩
    exact complete i hi own

theorem settled_isOk_iff (functions : OnlyFunctions program) :
    (∃ linker, settled platform context w module (typesOf program module) = .ok linker) ↔
      Settles platform context w program module := by
  simp only [settled_eq_ok_iff]
  constructor
  · rintro ⟨linker, resolver, b, first, served, finished⟩
    exact ⟨resolver, b, first, served,
      (finish_isOk_iff functions (serves_serve served)).mp ⟨linker, finished⟩⟩
  · rintro ⟨resolver, b, first, served, complete⟩
    obtain ⟨linker, finished⟩ := (finish_isOk_iff functions (serves_serve served)).mpr complete
    exact ⟨linker, resolver, b, first, served, finished⟩

/-- The failure of a binder is the first import that it leaves unbound. -/
theorem finish_eq_error_iff {b : Binder} {e : Failure} (functions : OnlyFunctions program)
    (serves : b.Serves module (typesOf program module)) :
    b.finish = .error e ↔ ∃ i ∈ program.imports, i.module = module ∧ i.name ∉ b.bound ∧
      (∀ j ∈ program.imports, j.module = module →
        Utf8.encode j.name < Utf8.encode i.name → j.name ∈ b.bound) ∧
      e = .unresolvedImport module i.name := by
  have keys : ∀ name, name ∈ b.importedNames ↔ ∃ i ∈ program.imports, i.module = module ∧
      i.name = name := by
    intro name
    rw [Binder.importedNames, serves.imports_eq, mem_keys_typesOf functions]
  rw [Binder.finish_eq_error_iff_least, serves.module_eq]
  simp only [keys]
  constructor
  · rintro ⟨_, ⟨i, hi, own, rfl⟩, missing, least, rfl⟩
    exact ⟨i, hi, own, missing, fun j hj ownj less => least _ ⟨j, hj, ownj, rfl⟩ less, rfl⟩
  · rintro ⟨i, hi, own, missing, least, rfl⟩
    refine ⟨i.name, ⟨i, hi, own, rfl⟩, missing, ?_, rfl⟩
    rintro _ ⟨j, hj, ownj, rfl⟩ less
    exact least j hj ownj less

theorem settled_eq_error_iff {e : Failure} (functions : OnlyFunctions program) :
    settled platform context w module (typesOf program module) = .error e ↔
      Fails platform context w program module e := by
  unfold settled
  constructor
  · intro h
    split at h
    · rename_i none
      obtain rfl := Except.error.inj h
      exact .nobody none
    · rename_i resolver first
      cases served : serve platform context w module (typesOf program module) resolver with
      | error e' =>
        rw [served] at h
        obtain rfl := Except.error.inj h
        exact .refused first served
      | ok b =>
        rw [served] at h
        obtain ⟨i, hi, own, missing, least, rfl⟩ :=
          (finish_eq_error_iff functions (serves_serve served)).mp h
        exact .incomplete first served hi own missing least
  · intro fails
    cases fails with
    | nobody none => rw [none]
    | refused first served =>
      rw [first]
      dsimp only
      rw [served]
      rfl
    | incomplete first served hi own missing least =>
      rw [first]
      dsimp only
      rw [served]
      exact (finish_eq_error_iff functions (serves_serve served)).mpr
        ⟨_, hi, own, missing, least, rfl⟩

/-! ## Preparing -/

variable {imports : Imports}

/-- The imports of a program are grouped by the modules that it imports from. -/
theorem mem_entries_iff (functions : OnlyFunctions program)
    (collected : Imports.ofModule program = .ok imports) {types : Table String Wasm.FuncType} :
    (module, types) ∈ imports.entries ↔
      Imported program module ∧ types = typesOf program module := by
  have imported : Imports.declared program.imports module ≠ [] ↔ Imported program module := by
    simp only [ne_eq, List.eq_nil_iff_forall_not_mem, not_forall, not_not, Prod.exists,
      Imports.mem_declared]
    constructor
    · rintro ⟨_, _, i, hi, own, -, -⟩
      exact ⟨i, hi, own⟩
    · rintro ⟨i, hi, own⟩
      obtain ⟨type, function⟩ := Option.isSome_iff_exists.mp (functions i hi)
      exact ⟨i.name, type, i, hi, own, rfl, function⟩
  rw [← Table.find?_eq_some_iff, Imports.find?_ofModule collected, ← imported]
  by_cases none : Imports.declared program.imports module = []
  · simp [none]
  · simp [none, typesOf, eq_comm]

theorem distinct_entries (imports : Imports) :
    imports.entries.Pairwise fun a b => a.1 ≠ b.1 :=
  imports.sorted.imp fun {a b} less (same : a.1 = b.1) =>
    KeyOrder.irrefl b.1 (same ▸ less)

/-- Preparing a context comes as far as its imports: it is not too deep, and its guest can be
loaded, exports the entry, and imports functions only. -/
structure Reaches (platform : Platform) (context : Context) (w : World) (program : Wasm.Module) :
    Prop where
  depth : context.depth ≤ platform.config.maxLinkDepth
  loads : ((Loading.load context.guest).run w).1 = .ok program
  exported : (program.exported? context.entry).isSome
  functions : OnlyFunctions program

/-- **Preparing is settling each imported module by itself.** -/
theorem run_prepare (reaches : Reaches platform context w program)
    (collected : Imports.ofModule program = .ok imports) :
    ((Sandbox.prepare platform context).run w).1 =
      (imports.entries.mapM fun e => settled platform context w e.1 e.2).map fun linkers =>
        ⟨context, program, linkers.flatten,
          imports.entries.foldl (fun process e => processOf platform context w process e.1)
            .unbound⟩ := by
  have settles := run_settleAll platform context [] imports.entries (distinct_entries imports)
    (.load context.guest w) (fun _ _ _ h => nomatch h)
    (fun _ h => nomatch h) .unbound
  have entered : (program.exported? context.entry).isNone = false := by
    simpa using reaches.exported
  unfold Sandbox.prepare
  rw [if_neg (Nat.not_lt.mpr reaches.depth)]
  simp only [run_bind, reaches.loads, entered, collected]
  rw [if_neg (by simp), run_bind, run_ofExcept]
  dsimp only
  rw [run_bind, settles]
  cases imports.entries.mapM fun e => settled platform context w e.1 e.2 <;> rfl

/-- The functions that settle modules belong to these modules. -/
theorem exists_entry_of_mem {entries : List (String × Table String Wasm.FuncType)}
    {linkers : List Linker} {f : HostFunction}
    (settles : List.Forall₂ (fun e linker => settled platform context w e.1 e.2 = .ok linker)
      entries linkers) (hf : f ∈ linkers.flatten) : ∃ e ∈ entries, f.module = e.1 := by
  induction settles with
  | nil => cases hf
  | cons here others ih =>
    rw [List.flatten_cons] at hf
    rcases List.mem_append.mp hf with hf | hf
    · exact ⟨_, List.mem_cons_self, own_of_settled here f hf⟩
    · obtain ⟨e, he, own⟩ := ih hf
      exact ⟨e, List.mem_cons_of_mem _ he, own⟩

/-- The functions of a module in the linker of a guest are those that settle the module. -/
theorem filter_flatten {entries : List (String × Table String Wasm.FuncType)}
    {linkers : List Linker} (distinct : entries.Pairwise fun a b => a.1 ≠ b.1)
    (settles : List.Forall₂ (fun e linker => settled platform context w e.1 e.2 = .ok linker)
      entries linkers) {e : String × Table String Wasm.FuncType} (he : e ∈ entries) :
    settled platform context w e.1 e.2 =
      .ok (linkers.flatten.filter fun f => f.module == e.1) := by
  induction settles with
  | nil => cases he
  | @cons first linker rest linkers here others ih =>
    obtain ⟨fresh, distinct⟩ := List.pairwise_cons.mp distinct
    have own := own_of_settled here
    rw [List.flatten_cons, List.filter_append]
    rcases List.mem_cons.mp he with rfl | he
    · have mine : linker.filter (fun f => f.module == e.1) = linker :=
        List.filter_eq_self.mpr fun f hf => by simp [own f hf]
      have theirs : linkers.flatten.filter (fun f => f.module == e.1) = [] := by
        rw [List.filter_eq_nil_iff]
        intro f hf
        obtain ⟨e', he', own⟩ := exists_entry_of_mem others hf
        simpa [own] using (fresh e' he').symm
      rw [mine, theirs, List.append_nil, here]
    · have theirs : linker.filter (fun f => f.module == e.1) = [] := by
        rw [List.filter_eq_nil_iff]
        intro f hf
        simpa [own f hf] using fresh e he
      rw [theirs, List.nil_append, ih distinct he]

/-! ## What preparing comes to -/

/-- A guest is prepared if and only if each imported module is settled. -/
theorem prepare_isOk_iff (reaches : Reaches platform context w program) :
    (∃ s, ((Sandbox.prepare platform context).run w).1 = .ok s) ↔
      ∀ module, Imported program module → Settles platform context w program module := by
  obtain ⟨imports, collected⟩ := Imports.collect_isOk_iff.mpr reaches.functions
  have traversed : (∃ s, ((Sandbox.prepare platform context).run w).1 = .ok s) ↔
      ∃ linkers, (imports.entries.mapM fun e => settled platform context w e.1 e.2) =
        .ok linkers := by
    rw [run_prepare reaches collected]
    cases imports.entries.mapM fun e => settled platform context w e.1 e.2 <;> simp [Except.map]
  rw [traversed, Traversal.mapM_isOk_iff]
  constructor
  · intro all module imported
    exact (settled_isOk_iff reaches.functions).mp
      (all _ ((mem_entries_iff reaches.functions collected).mpr ⟨imported, rfl⟩))
  · rintro all ⟨module, types⟩ he
    obtain ⟨imported, rfl⟩ := (mem_entries_iff reaches.functions collected).mp he
    exact (settled_isOk_iff reaches.functions).mpr (all module imported)

/-- An import of a guest that is prepared has one function, which the first resolver bound. -/
theorem exists_function_of_prepare {s : Sandbox} (reaches : Reaches platform context w program)
    (h : ((Sandbox.prepare platform context).run w).1 = .ok s) {i : Wasm.Import}
    (hi : i ∈ program.imports) :
    ∃ resolver b f, first? platform context w i.module = some resolver ∧
      serve platform context w i.module (typesOf program i.module) resolver = .ok b ∧
      f ∈ b.linker ∧
      s.linker.filter (fun g => g.module == i.module && g.name == i.name) = [f] := by
  obtain ⟨imports, collected⟩ := Imports.collect_isOk_iff.mpr reaches.functions
  rw [run_prepare reaches collected] at h
  cases traversed : imports.entries.mapM fun e => settled platform context w e.1 e.2 with
  | error e =>
    rw [traversed] at h
    cases h
  | ok linkers =>
    rw [traversed] at h
    obtain rfl := Except.ok.inj h
    have entry := (mem_entries_iff reaches.functions collected).mpr ⟨⟨i, hi, rfl⟩, rfl⟩
    have here := filter_flatten (distinct_entries imports) (Traversal.mapM_eq_ok_iff.mp traversed)
      entry
    obtain ⟨resolver, b, first, served, finished⟩ := settled_eq_ok_iff.mp here
    have serves := serves_serve served
    have bound := (finish_isOk_iff reaches.functions serves).mp ⟨_, finished⟩ i hi rfl
    obtain ⟨f, hf, named⟩ := (serves.bound_iff i.name).mp bound
    refine ⟨resolver, b, f, first, served, hf, ?_⟩
    have alone := serves.filter_eq hf
    rw [named, (Binder.finish_eq_ok_iff.mp finished).2, List.filter_filter] at alone
    simpa only [Bool.and_comm] using alone

/-- A guest that is not prepared fails as the first imported module that is not settled. -/
theorem prepare_eq_error_iff {e : Failure} (reaches : Reaches platform context w program) :
    ((Sandbox.prepare platform context).run w).1 = .error e ↔
      ∃ module, Imported program module ∧ Fails platform context w program module e ∧
        ∀ other, Imported program other → Utf8.encode other < Utf8.encode module →
          Settles platform context w program other := by
  obtain ⟨imports, collected⟩ := Imports.collect_isOk_iff.mpr reaches.functions
  have traversed : ((Sandbox.prepare platform context).run w).1 = .error e ↔
      (imports.entries.mapM fun e => settled platform context w e.1 e.2) = .error e := by
    rw [run_prepare reaches collected]
    cases imports.entries.mapM fun e => settled platform context w e.1 e.2 <;> simp [Except.map]
  rw [traversed, Traversal.mapM_eq_error_iff, Traversal.exists_first_iff Prod.fst imports.sorted]
  simp only [Prod.exists, Prod.forall, mem_entries_iff reaches.functions collected,
    Utf8.encode_lt_iff]
  constructor
  · rintro ⟨module, _, ⟨imported, rfl⟩, fails, least⟩
    exact ⟨module, imported, (settled_eq_error_iff reaches.functions).mp fails,
      fun other hother less =>
        (settled_isOk_iff reaches.functions).mp (least other _ ⟨hother, rfl⟩ less)⟩
  · rintro ⟨module, imported, fails, least⟩
    refine ⟨module, _, ⟨imported, rfl⟩, (settled_eq_error_iff reaches.functions).mpr fails, ?_⟩
    rintro other _ ⟨hother, rfl⟩ less
    exact (settled_isOk_iff reaches.functions).mpr (least other hother less)

/-- Settling depends on the first resolver and what it does, and on nothing else. -/
theorem settled_congr {platform' : Platform} {w' : World}
    {types : Table String Wasm.FuncType}
    (first : first? platform' context w' module = first? platform context w module)
    (served : ∀ resolver, first? platform context w module = some resolver →
      serve platform' context w' module types resolver =
        serve platform context w module types resolver) :
    settled platform' context w' module types = settled platform context w module types := by
  unfold settled
  rw [first]
  cases h : first? platform context w module with
  | none => rfl
  | some resolver =>
    dsimp only
    rw [served resolver h]

theorem processOf_congr {platform' : Platform} {w' : World}
    (name : platform'.config.programName = platform.config.programName)
    (registry : w'.registry = w.registry)
    (first : first? platform' context w' module = first? platform context w module)
    (process : Posix.Process) :
    processOf platform' context w' process module =
      processOf platform context w process module := by
  unfold processOf
  rw [first]
  cases first? platform context w module with
  | none => rfl
  | some resolver =>
    cases resolver with
    | posix => simp only [Option.elim, processAfter, commandLine, name, registry]
    | _ => rfl

/-- The first resolvers and what they do settle what preparing comes to. -/
theorem prepare_congr {platform' : Platform} {w' : World}
    (reaches : Reaches platform context w program)
    (reaches' : Reaches platform' context w' program)
    (name : platform'.config.programName = platform.config.programName)
    (registry : w'.registry = w.registry)
    (same : ∀ module, Imported program module →
      first? platform' context w' module = first? platform context w module ∧
      ∀ resolver, first? platform context w module = some resolver →
        serve platform' context w' module (typesOf program module) resolver =
          serve platform context w module (typesOf program module) resolver) :
    ((Sandbox.prepare platform' context).run w').1 =
      ((Sandbox.prepare platform context).run w).1 := by
  obtain ⟨imports, collected⟩ := Imports.collect_isOk_iff.mpr reaches.functions
  have settles : ∀ e ∈ imports.entries,
      settled platform' context w' e.1 e.2 = settled platform context w e.1 e.2 := by
    rintro ⟨module, types⟩ he
    obtain ⟨imported, rfl⟩ := (mem_entries_iff reaches.functions collected).mp he
    exact settled_congr (same module imported).1 (same module imported).2
  have processes : imports.entries.foldl
      (fun process e => processOf platform' context w' process e.1) Posix.Process.unbound =
      imports.entries.foldl (fun process e => processOf platform context w process e.1)
        .unbound := by
    refine List.foldl_ext _ _ _ fun process e he => ?_
    obtain ⟨imported, -⟩ := (mem_entries_iff reaches.functions collected).mp he
    exact processOf_congr name registry (same e.1 imported).1 process
  rw [run_prepare reaches collected, run_prepare reaches' collected, processes,
    Traversal.mapM_congr settles]

/-- **The first resolver that applies decides.** Take a context that is not too deep, of a guest
that can be loaded, that exports the entry and imports functions only. The guest is prepared exactly
if each module that it imports is settled by the first resolver that applies, and then each import
has just one function, which is one that this resolver bound. Otherwise preparing fails as the first
of the modules that are not settled. Nothing else counts: another host in which the first resolvers
are the same and do the same prepares the same. -/
theorem first_applicable_decides (h : Host) (context : Context) (program : Wasm.Module)
    (reaches : Reaches h.platform context h.world program) :
    ((∃ s, (h.prepare context).1 = .ok s) ↔
      ∀ module, Imported program module →
        Settles h.platform context h.world program module) ∧
    (∀ s, (h.prepare context).1 = .ok s → ∀ i ∈ program.imports, ∃ resolver b f,
      first? h.platform context h.world i.module = some resolver ∧
      serve h.platform context h.world i.module (typesOf program i.module) resolver = .ok b ∧
      f ∈ b.linker ∧
      s.linker.filter (fun g => g.module == i.module && g.name == i.name) = [f]) ∧
    (∀ e, (h.prepare context).1 = .error e ↔ ∃ module, Imported program module ∧
      Fails h.platform context h.world program module e ∧
      ∀ other, Imported program other → Utf8.encode other < Utf8.encode module →
        Settles h.platform context h.world program other) ∧
    ∀ h' : Host, Reaches h'.platform context h'.world program →
      h'.platform.config.programName = h.platform.config.programName →
      h'.world.registry = h.world.registry →
      (∀ module, Imported program module →
        first? h'.platform context h'.world module = first? h.platform context h.world module ∧
        ∀ resolver, first? h.platform context h.world module = some resolver →
          serve h'.platform context h'.world module (typesOf program module) resolver =
            serve h.platform context h.world module (typesOf program module) resolver) →
      (h'.prepare context).1 = (h.prepare context).1 := by
  refine ⟨prepare_isOk_iff reaches, ?_, fun e => prepare_eq_error_iff reaches, ?_⟩
  · intro s prepared i hi
    exact exists_function_of_prepare reaches prepared hi
  · intro h' reaches' name registry same
    exact prepare_congr reaches reaches' name registry same

/-! ## A provider in front of a guest -/

/-- The guest of a context, if preparing comes as far as its imports. -/
def reached? (platform : Platform) (context : Context) (w : World) : Option Wasm.Module :=
  match ((Loading.load context.guest).run w).1 with
  | .ok program =>
    if context.depth ≤ platform.config.maxLinkDepth ∧ (program.exported? context.entry).isSome ∧
      ∀ i ∈ program.imports, i.type.isSome
    then some program else none
  | .error _ => none

theorem reaches_of_reached? (h : reached? platform context w = some program) :
    Reaches platform context w program := by
  unfold reached? at h
  split at h
  · rename_i loads
    split at h
    · rename_i holds
      obtain rfl := Option.some.inj h
      exact ⟨holds.1, loads, holds.2.1, holds.2.2⟩
    · cases h
  · cases h

/-- A guest that imports a function of "lib". -/
def importer : String :=
  "(module (import \"lib\" \"f\" (func (result i32))) (func (export \"run\") (result i32)" ++
    " i32.const 0))"

/-- A host of this guest with a guest "lib" that exports the function, and with a provider for
"lib" that binds nothing. -/
def shadowingHost : Host :=
  let h := Host.new .default .offline 0
  let h := (h.registerGuest "a" (Utf8.encode importer)).2
  let h := (h.registerGuest "lib" (Utf8.encode
    "(module (func (export \"f\") (result i32) i32.const 7))")).2
  h.registerProvider "lib" ⟨.done⟩

/-- The guest behind the provider is not tried: the import stays unbound. -/
theorem first_applicable_decides_shadowing : ∃ program,
    Reaches shadowingHost.platform (.top "a" "run") shadowingHost.world program ∧
    Store.Blob.hasAlias shadowingHost.world.shelf "lib" = .ok true ∧
    ∃ module, Imported program module ∧
      Fails shadowingHost.platform (.top "a" "run") shadowingHost.world program module
        (.unresolvedImport "lib" "f") := by
  have reached : (reached? shadowingHost.platform (.top "a" "run") shadowingHost.world).isSome := by
    decide +kernel
  have fails : (match (shadowingHost.prepare (.top "a" "run")).1 with
      | .error e => decide (e = .unresolvedImport "lib" "f")
      | .ok _ => false) = true := by
    decide +kernel
  obtain ⟨program, found⟩ := Option.isSome_iff_exists.mp reached
  have reaches := reaches_of_reached? found
  refine ⟨program, reaches, by decide +kernel, ?_⟩
  cases prepared : (shadowingHost.prepare (.top "a" "run")).1 with
  | ok s => simp [prepared] at fails
  | error e =>
    obtain rfl : e = .unresolvedImport "lib" "f" := by simpa [prepared] using fails
    obtain ⟨module, imported, why, -⟩ :=
      ((first_applicable_decides shadowingHost (.top "a" "run") program reaches).2.2.1 _).mp
        prepared
    exact ⟨module, imported, why⟩

end Resolver

end GuestHost
