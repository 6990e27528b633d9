import GuestHost.Proofs.Linking.Completeness
import GuestHost.Sandbox.Run
/-!
# The types that imports are bound with

Preparing binds every import to a function of the type that the last declaration of its name
states. An import that is declared more than once, with different types, is bound with one of them
only, and the guest cannot be instantiated: `Sandbox.misfit_iff_redeclared`. Nothing else about its
imports can keep a guest that has been prepared from starting.
-/

namespace GuestHost

open Stateful Resolver

namespace Imports

/-- The last declaration of a name. -/
def last? (declarations : List Wasm.Import) (module name : String) : Option Wasm.Import :=
  declarations.reverse.find? fun i => i.module == module && i.name == name

variable {declarations : List Wasm.Import} {module name : String}

/-- The type that counts is that of the last declaration. -/
theorem lookup_declared_reverse (functions : ∀ i ∈ declarations, i.type.isSome) :
    (declared declarations module).reverse.lookup name =
      (last? declarations module name).bind Wasm.Import.type := by
  unfold declared last?
  rw [← List.filterMap_reverse]
  have functions : ∀ i ∈ declarations.reverse, i.type.isSome := by simpa using functions
  revert functions
  induction declarations.reverse with
  | nil => intro; rfl
  | cons i rest ih =>
    intro functions
    obtain ⟨type, function⟩ := Option.isSome_iff_exists.mp (functions i List.mem_cons_self)
    have ih := ih fun j hj => functions j (List.mem_cons_of_mem _ hj)
    rw [List.filterMap_cons, List.find?_cons]
    by_cases own : i.module = module
    · by_cases named : i.name = name
      · simp [own, named, function]
      · simp [own, function, ih, List.lookup_cons, beq_eq_false_iff_ne.mpr named,
          beq_eq_false_iff_ne.mpr (Ne.symm named)]
    · simp [own, ih, beq_eq_false_iff_ne.mpr own]

end Imports

/-- A module declares two imports of one name with different types. -/
def Wasm.Module.Redeclares (program : Wasm.Module) : Prop :=
  ∃ i ∈ program.imports, ∃ j ∈ program.imports,
    j.module = i.module ∧ j.name = i.name ∧ j.type ≠ i.type

instance (program : Wasm.Module) : Decidable program.Redeclares :=
  inferInstanceAs (Decidable (∃ i ∈ program.imports, ∃ j ∈ program.imports, _))

namespace Sandbox

variable {platform : Platform} {context : Context} {w : World} {s : Sandbox}

/-- A guest has been prepared only if preparing came as far as its imports. -/
theorem reaches_of_prepare (h : ((prepare platform context).run w).1 = .ok s) :
    Reaches platform context w s.program ∧ s.context = context := by
  unfold prepare at h
  by_cases depth : platform.config.maxLinkDepth < context.depth
  · rw [if_pos depth] at h
    cases h
  rw [if_neg depth, run_bind] at h
  cases loads : ((Loading.load context.guest).run w).1 with
  | error e =>
    rw [loads] at h
    cases h
  | ok program =>
    rw [loads] at h
    dsimp only at h
    by_cases missing : (program.exported? context.entry).isNone
    · rw [if_pos missing] at h
      cases h
    rw [if_neg missing, run_bind, run_ofExcept] at h
    cases collected : Imports.ofModule program with
    | error e =>
      rw [collected] at h
      cases h
    | ok imports =>
      rw [collected] at h
      dsimp only at h
      rw [run_bind] at h
      split at h
      · obtain rfl := Except.ok.inj h
        refine ⟨⟨Nat.not_lt.mp depth, loads, ?_, ?_⟩, rfl⟩
        · simpa [Option.isSome_iff_ne_none] using missing
        · exact Imports.collect_isOk_iff.mp ⟨imports, collected⟩
      · cases h

/-- **An import is bound with the type that its last declaration states.** -/
theorem exists_function_of_last (h : ((prepare platform context).run w).1 = .ok s)
    {i : Wasm.Import} (hi : i ∈ s.program.imports) :
    ∃ f last, s.function? i = some f ∧
      Imports.last? s.program.imports i.module i.name = some last ∧ last.type = some f.type := by
  obtain ⟨reaches, -⟩ := reaches_of_prepare h
  obtain ⟨resolver, b, f, -, served, hf, alone⟩ := exists_function_of_prepare reaches h hi
  have serves := serves_serve served
  have found : s.function? i = some f := by
    unfold function? Linker.find?
    rw [← List.head?_filter, alone]
    rfl
  have named : f.name = i.name := by
    have mem : f ∈ s.linker.filter fun g => g.module == i.module && g.name == i.name := by
      rw [alone]
      exact List.mem_singleton_self f
    simpa using (Bool.and_eq_true_iff.mp (List.mem_filter.mp mem).2).2
  have declared := serves.declared f hf
  rw [typesOf, Table.find?_ofList, Imports.lookup_declared_reverse reaches.functions, named,
    Option.bind_eq_some_iff] at declared
  obtain ⟨last, last_eq, type⟩ := declared
  exact ⟨f, last, found, last_eq, type⟩

/-- The type of the function is all that can be wrong with an import that is bound. -/
theorem misfit?_eq_some_iff {i : Wasm.Import} {f : HostFunction} {cause : Cause}
    (bound : s.function? i = some f) (function : i.type.isSome) :
    s.misfit? i = some cause ↔ ∃ type, i.type = some type ∧ type ≠ f.type ∧
      cause = .importType i.module i.name type f.type := by
  obtain ⟨type, declared⟩ := Option.isSome_iff_exists.mp function
  by_cases fits : type = f.type
  · simp [misfit?, bound, declared, fits]
  · simp [misfit?, bound, declared, fits, eq_comm]

/-- An import fits if it is declared with the type of its function. -/
theorem misfit?_eq_none_iff {i : Wasm.Import} {f : HostFunction}
    (bound : s.function? i = some f) (function : i.type.isSome) :
    s.misfit? i = none ↔ i.type = some f.type := by
  obtain ⟨type, declared⟩ := Option.isSome_iff_exists.mp function
  simp [misfit?, bound, declared]

/-- The imports of a guest that has been prepared fit unless one is declared again with another
type. -/
theorem fits_iff (h : ((prepare platform context).run w).1 = .ok s) :
    (∀ i ∈ s.program.imports, s.misfit? i = none) ↔ ¬ s.program.Redeclares := by
  obtain ⟨reaches, -⟩ := reaches_of_prepare h
  constructor
  · rintro fits ⟨i, hi, j, hj, sameModule, sameName, differ⟩
    obtain ⟨f, -, bound, -⟩ := exists_function_of_last h hi
    have bound' : s.function? j = some f := by
      rw [← bound, function?, function?, sameModule, sameName]
    have first := (misfit?_eq_none_iff bound (reaches.functions i hi)).mp (fits i hi)
    have second := (misfit?_eq_none_iff bound' (reaches.functions j hj)).mp (fits j hj)
    exact differ (second.trans first.symm)
  · intro once i hi
    obtain ⟨f, last, bound, last_eq, type⟩ := exists_function_of_last h hi
    have mem : last ∈ s.program.imports :=
      List.mem_reverse.mp (List.mem_of_find?_eq_some last_eq)
    have named : last.module = i.module ∧ last.name = i.name := by
      simpa using List.find?_some last_eq
    rw [misfit?_eq_none_iff bound (reaches.functions i hi), ← type]
    by_contra differ
    exact once ⟨i, hi, last, mem, named.1, named.2, Ne.symm differ⟩

/-- A guest whose imports do not fit traps before it starts, whatever it is run with. -/
theorem run_of_misfit {cause : Cause} (h : s.program.imports.findSome? s.misfit? = some cause)
    (invoke : Invoke) (limit : Option Nat) (w : World) :
    ((s.run invoke limit).run w).1 = ended s.context (.fatal cause) := by
  have stuck : s.loaded = .error cause := by
    unfold loaded
    rw [h]
  have entry : (callEntry invoke s (limit.getD unlimited)).run (s.surroundings w) =
      (.error (.fatal cause), s.surroundings w) := by
    unfold callEntry instantiate
    rw [stuck]
    rfl
  simp only [run, run_bind, run_get, entry, run_set, run_ofExcept]

/-- **What a guest that has been prepared can be refused for.** Every import is bound to a function
of the type that the last declaration of its name states, and an import fits unless it is declared
with another type than that. So the imports fit if and only if no name is declared twice with
different types; where one is, every run of the guest ends in a trap that says so. -/
theorem misfit_iff_redeclared (h : Host) (context : Context) (s : Sandbox)
    (prepared : (h.prepare context).1 = .ok s) :
    (∀ i ∈ s.program.imports, ∃ f last, s.function? i = some f ∧
      Imports.last? s.program.imports i.module i.name = some last ∧ last.type = some f.type ∧
      ∀ cause, s.misfit? i = some cause ↔ ∃ type, i.type = some type ∧ type ≠ f.type ∧
        cause = .importType i.module i.name type f.type) ∧
    ((∀ i ∈ s.program.imports, s.misfit? i = none) ↔ ¬ s.program.Redeclares) ∧
    (s.program.Redeclares → ∀ invoke limit w, ∃ i ∈ s.program.imports, ∃ expected found,
      i.type = some expected ∧ expected ≠ found ∧
      ((s.run invoke limit).run w).1 = .error (.trap context.guest context.entry
        (.importType i.module i.name expected found))) := by
  obtain ⟨reaches, context_eq⟩ := reaches_of_prepare prepared
  have bound : ∀ i ∈ s.program.imports, ∃ f last, s.function? i = some f ∧
      Imports.last? s.program.imports i.module i.name = some last ∧
      last.type = some f.type ∧
      ∀ cause, s.misfit? i = some cause ↔ ∃ type, i.type = some type ∧ type ≠ f.type ∧
        cause = .importType i.module i.name type f.type := by
    intro i hi
    obtain ⟨f, last, found, last_eq, type⟩ := exists_function_of_last prepared hi
    exact ⟨f, last, found, last_eq, type,
      fun cause => misfit?_eq_some_iff found (reaches.functions i hi)⟩
  refine ⟨bound, fits_iff prepared, fun redeclared invoke limit w => ?_⟩
  have misfit : s.program.imports.findSome? s.misfit? ≠ none := by
    rw [ne_eq, List.findSome?_eq_none_iff]
    exact fun fits => (fits_iff prepared).mp fits redeclared
  obtain ⟨cause, found⟩ := Option.ne_none_iff_exists'.mp misfit
  obtain ⟨i, hi, why⟩ := List.exists_of_findSome?_eq_some found
  obtain ⟨f, -, -, -, -, causes⟩ := bound i hi
  obtain ⟨expected, declared, differ, rfl⟩ := (causes cause).mp why
  refine ⟨i, hi, expected, f.type, declared, differ, ?_⟩
  rw [run_of_misfit found, context_eq]
  rfl

/-! ## A guest that declares an import twice -/

/-- A guest that declares one core function with two types, the right one last. -/
def redeclarer : String :=
  "(module (import \"core\" \"get_status\" (func (param i32) (result i32)))" ++
    " (import \"core\" \"get_status\" (func (result i32)))" ++
    " (func (export \"run\") (result i32) i32.const 7))"

/-- A host of this guest. -/
def redeclarerHost : Host :=
  ((Host.new .default .offline 0).registerGuest "g" (Utf8.encode redeclarer)).2

/-- The guest is prepared, and cannot be run. -/
theorem misfit_iff_redeclared_core : ∃ s,
    (redeclarerHost.prepare (.top "g" "run")).1 = .ok s ∧ s.program.Redeclares ∧
    ∀ invoke limit w, ∃ expected found, expected ≠ found ∧
      ∃ i ∈ s.program.imports, ((s.run invoke limit).run w).1 =
        .error (.trap "g" "run" (.importType i.module i.name expected found)) := by
  have redeclares : (match (redeclarerHost.prepare (.top "g" "run")).1 with
      | .ok s => decide s.program.Redeclares
      | .error _ => false) = true := by
    decide +kernel
  cases prepared : (redeclarerHost.prepare (.top "g" "run")).1 with
  | error e => simp [prepared] at redeclares
  | ok s =>
    have redeclared : s.program.Redeclares := by simpa [prepared] using redeclares
    refine ⟨s, rfl, redeclared, fun invoke limit w => ?_⟩
    obtain ⟨i, hi, expected, found, -, differ, trap⟩ :=
      (misfit_iff_redeclared redeclarerHost (.top "g" "run") s prepared).2.2 redeclared invoke
        limit w
    exact ⟨expected, found, differ, i, hi, trap⟩

end Sandbox

end GuestHost
