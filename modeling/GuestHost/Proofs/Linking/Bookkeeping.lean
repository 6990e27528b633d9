import GuestHost.Proofs.Linking.Completeness
/-!
# The books of a binder

A binder keeps two books: the names that it has bound, and the linker with their functions. They are
written one after the other, and a provider may make calls of a binder in any order, over and over,
and pass over those that are refused. `Request.verdict_answer` tells what becomes of one call, and
`balanced_after` that the books agree after any row of them.
-/

namespace GuestHost

namespace Binder

/-- A call that is made of a binder. -/
inductive Request where
  | typed (name : String) (signature : Signature) (backing : Backing)
  | declared (name : String) (backing : Backing)
  | unimplemented (name : String)

variable {b b' : Binder} {linker front : Linker} {module : String}
  {imports : Table String Wasm.FuncType} {r : Request} {calls : List Request}

/-! ## One call -/

namespace Request

/-- The name that is to be bound. -/
def name : Request → String
  | typed name _ _ => name
  | declared name _ => name
  | unimplemented name => name

/-- What a binder answers to a call. -/
def answer (b : Binder) : Request → Except Failure Binder
  | typed name signature backing => b.bind name signature backing
  | declared name backing => b.bindDeclared name backing
  | unimplemented name => b.bindUnimplemented name

/-- The function that is to be bound, if the guest declares it with a type. -/
def function (module : String) (type : Wasm.FuncType) : Request → HostFunction
  | typed name signature backing => ⟨module, name, type, signature.result, backing⟩
  | declared name backing =>
    ⟨module, name, type, (Signature.ofType? type).bind Signature.result, backing⟩
  | unimplemented name =>
    ⟨module, name, type, (Signature.ofType? type).bind Signature.result,
      .handler (.stub module name)⟩

/-- The failure of a call with a signature, if the guest declares another type. -/
def mismatch? (module : String) (type : Wasm.FuncType) : Request → Option Failure
  | typed name signature _ =>
    if signature.Matches type then none
    else some (.signatureMismatch module name signature (Signature.ofType? type))
  | _ => none

/-- What becomes of a call. The guest does not import the name, and it is passed over; or the call
is refused, since the guest declares another type or the name is bound; or a function is added. -/
inductive Verdict (b : Binder) (r : Request) : Except Failure Binder → Prop where
  | passed : r.name ∉ b.imports.keys → Verdict b r (.ok b)
  | mismatched {type : Wasm.FuncType} {e : Failure} : b.imports.find? r.name = some type →
      r.mismatch? b.module type = some e → Verdict b r (.error e)
  | taken {type : Wasm.FuncType} : b.imports.find? r.name = some type →
      r.mismatch? b.module type = none → r.name ∈ b.bound →
      Verdict b r (.error (.boundTwice b.module r.name))
  | added {type : Wasm.FuncType} : b.imports.find? r.name = some type →
      r.mismatch? b.module type = none → r.name ∉ b.bound →
      Verdict b r (.ok { b with
        bound := r.name :: b.bound
        linker := b.linker ++ [r.function b.module type] })

/-- A call attaches its function where the guest imports its name with its type. -/
theorem answer_eq (b : Binder) (r : Request) : r.answer b =
    match b.imports.find? r.name with
    | none => .ok b
    | some type =>
      match r.mismatch? b.module type with
      | some e => .error e
      | none =>
        let f := r.function b.module type
        b.attach r.name type f.result f.backing := by
  cases r with
  | typed name signature backing =>
    simp only [answer, Binder.bind, Request.name, mismatch?]
    cases b.imports.find? name with
    | none => rfl
    | some type => by_cases fits : signature.Matches type <;> simp [fits, function]
  | declared name backing => rfl
  | unimplemented name => rfl

/-- **One call comes to its verdict**, whatever it is, while the books agree. -/
theorem verdict_answer (agree : ∀ name, name ∈ b.bound ↔ (b.linker.find? b.module name).isSome)
    (r : Request) : r.Verdict b (r.answer b) := by
  rw [answer_eq]
  cases declared : b.imports.find? r.name with
  | none => exact .passed (by rw [Table.mem_keys_iff, declared]; simp)
  | some type =>
    cases fits : r.mismatch? b.module type with
    | some e =>
      simp only [fits]
      exact .mismatched declared fits
    | none =>
      simp only [fits, attach]
      cases found : b.linker.find? b.module r.name with
      | some f => exact .taken declared fits ((agree _).mpr (by rw [found]; rfl))
      | none =>
        have free : r.name ∉ b.bound := fun bound => by
          have held := (agree _).mp bound
          rw [found] at held
          cases held
        have function : (⟨b.module, r.name, type, (r.function b.module type).result,
            (r.function b.module type).backing⟩ : HostFunction) = r.function b.module type := by
          cases r <;> rfl
        rw [function]
        exact .added declared fits free

theorem grows_answer (h : r.answer b = .ok b') : b.Grows (fun _ => True) b' := by
  cases r with
  | typed name signature backing => exact grows_bind (fun _ _ => trivial) h
  | declared name backing => exact grows_bindDeclared (fun _ _ => trivial) h
  | unimplemented name => exact grows_bindDeclared (fun _ _ => trivial) h

theorem answer_onto (h : front.Lacks b.module) (r : Request) :
    r.answer (b.onto front) = (r.answer b).map (onto front) := by
  cases r with
  | typed name signature backing => exact bind_onto h signature
  | declared name backing => exact bindDeclared_onto h
  | unimplemented name => exact bindDeclared_onto h

end Request

/-! ## Rows of calls -/

/-- A binder after a call. One that is refused leaves it as it is. -/
def next (b : Binder) (r : Request) : Binder := ((r.answer b).toOption).getD b

/-- A binder after calls one after the other, whether they are refused or not. -/
def after (b : Binder) (calls : List Request) : Binder := calls.foldl next b

theorem after_cons_of_ok (h : r.answer b = .ok b') (calls : List Request) :
    b.after (r :: calls) = b'.after calls := by
  rw [after, List.foldl_cons, next, h]
  rfl

theorem grows_next (b : Binder) (r : Request) : b.Grows (fun _ => True) (b.next r) := by
  unfold next
  cases answered : r.answer b with
  | ok b' => exact Request.grows_answer answered
  | error e => exact .same

theorem serves_after (hb : b.Serves module imports) (calls : List Request) :
    (b.after calls).Serves module imports := by
  induction calls generalizing b with
  | nil => exact hb
  | cons r rest ih => exact ih (hb.grows (b.grows_next r))

theorem next_onto (h : front.Lacks b.module) (r : Request) :
    (b.onto front).next r = (b.next r).onto front := by
  rw [next, next, Request.answer_onto h]
  cases r.answer b <;> rfl

/-- Functions of other modules in front make no difference to calls. -/
theorem after_onto (h : front.Lacks module) (hb : b.Serves module imports) (calls : List Request) :
    (b.onto front).after calls = (b.after calls).onto front := by
  induction calls generalizing b with
  | nil => rfl
  | cons r rest ih =>
    have first := next_onto (hb.module_eq ▸ h : front.Lacks b.module) r
    exact (congrArg (after · rest) first).trans (ih (hb.grows (b.grows_next r)))

/-! ## Who makes calls -/

/-- The call that a provider makes with a binding, unless it just looks. -/
def request? : Binding → Option Request
  | .typed name signature handler => some (.typed name signature (.handler handler))
  | .declared name handler => some (.declared name (.handler handler))
  | .unimplemented name => some (.unimplemented name)
  | .inspect _ => none

theorem fst_step (w : World) (b : Binder) (binding : Binding) :
    (Plan.step w b binding).1 =
      match request? binding with
      | some r => r.answer b
      | none => .ok b := by
  cases binding <;> rfl

/-- **A provider makes calls**, whatever it goes by and whichever failures it passes over. -/
theorem exists_after_run {plan : Plan} {w : World} (h : (plan.run w b).1 = .ok b') :
    ∃ calls, b' = b.after calls := by
  induction plan generalizing w b with
  | done => exact ⟨[], (Except.ok.inj h).symm⟩
  | refuse e => cases h
  | look next ih => exact ih b.view h
  | bind binding next ih =>
    have step := fst_step w b binding
    unfold Plan.run at h
    split at h
    · rename_i mid w' done
      rw [done] at step
      obtain ⟨calls, rfl⟩ := ih _ h
      cases made : request? binding with
      | none =>
        rw [made] at step
        obtain rfl := Except.ok.inj step
        exact ⟨calls, rfl⟩
      | some r =>
        rw [made] at step
        exact ⟨r :: calls, (after_cons_of_ok step.symm calls).symm⟩
    · exact ih _ h

/-- **A link makes calls.** -/
theorem exists_after_bindAll {guest : String} {target : Wasm.Module} {names : List String}
    (h : Link.bindAll guest target names b = .ok b') : ∃ calls, b' = b.after calls := by
  induction names generalizing b with
  | nil => exact ⟨[], (Except.ok.inj h).symm⟩
  | cons name rest ih =>
    unfold Link.bindAll at h
    split at h
    · exact ih h
    · split at h
      · cases h
      · rename_i signature _
        split at h
        · cases h
        · rename_i bound
          obtain ⟨calls, rfl⟩ := ih h
          let r : Request := .typed name signature (.guest guest name)
          have answered : r.answer b = .ok _ := bound
          exact ⟨r :: calls, (after_cons_of_ok answered calls).symm⟩

/-! ## The books -/

/-- The books of a binder that serves the imports of a module, on top of a linker, are in order. -/
structure Balanced (linker : Linker) (module : String) (imports : Table String Wasm.FuncType)
    (b : Binder) : Prop where
  /-- Bound names are imported. -/
  imported : ∀ name ∈ b.bound, name ∈ imports.keys
  /-- The linker has a function of the module for each bound name, and for no other. -/
  bound_iff : ∀ name, name ∈ b.bound ↔ ∃ f, b.linker.find? module name = some f
  /-- It has the type that the guest declares. -/
  declared : ∀ name f, b.linker.find? module name = some f →
    f.module = module ∧ f.name = name ∧ imports.find? name = some f.type
  /-- Nothing is added to other modules. -/
  others : ∀ other, other ≠ module → ∀ name, b.linker.find? other name = linker.find? other name
  /-- The next call comes to its verdict. -/
  verdict : ∀ r : Request, r.Verdict b (r.answer b)
  /-- It adds nothing if its name is not imported, is bound or is declared with another type. -/
  next_eq_iff : ∀ r : Request, b.next r = b ↔ r.name ∉ imports.keys ∨ r.name ∈ b.bound ∨
    ∃ type e, imports.find? r.name = some type ∧ r.mismatch? module type = some e
  /-- What is left is what is imported and not bound, -/
  mem_unbound_iff : ∀ name, name ∈ b.unbound ↔ name ∈ imports.keys ∧ name ∉ b.bound
  /-- in the order of the bytes. -/
  unbound_sorted : b.unbound.Pairwise fun name other => Utf8.encode name < Utf8.encode other
  /-- The binder can be finished exactly if nothing is left, -/
  finish_eq_ok_iff : ∀ result, b.finish = .ok result ↔
    (∀ name ∈ imports.keys, name ∈ b.bound) ∧ b.linker = result
  /-- and otherwise the least name that is left is the failure. -/
  finish_eq_error_iff : ∀ e, b.finish = .error e ↔ ∃ name ∈ imports.keys, name ∉ b.bound ∧
    (∀ other ∈ imports.keys, Utf8.encode other < Utf8.encode name → other ∈ b.bound) ∧
    e = .unresolvedImport module name

/-- A name is bound exactly if the linker has a function for it. -/
theorem Serves.bound_iff_find? (hb : b.Serves module imports) (name : String) :
    name ∈ b.bound ↔ ∃ f, b.linker.find? module name = some f := by
  rw [hb.bound_iff, ← Option.ne_none_iff_exists', Ne, Linker.find?_eq_none_iff]
  push Not
  exact exists_congr fun f => and_congr_right fun mem =>
    (and_iff_right (hb.own f mem)).symm

theorem Serves.declared_find? (hb : b.Serves module imports) {name : String} {f : HostFunction}
    (found : b.linker.find? module name = some f) :
    f.module = module ∧ f.name = name ∧ imports.find? name = some f.type := by
  have mem : f ∈ b.linker := List.mem_of_find?_eq_some found
  have named : f.name = name := by
    have key := List.find?_some found
    simpa using (Bool.and_eq_true_iff.mp key).2
  exact ⟨hb.own f mem, named, named ▸ hb.declared f mem⟩

/-- A call adds nothing exactly if its name is not imported, is bound, or is declared with another
type. -/
theorem next_eq_iff (verdict : r.Verdict b (r.answer b)) :
    b.next r = b ↔ r.name ∉ b.imports.keys ∨ r.name ∈ b.bound ∨
      ∃ type e, b.imports.find? r.name = some type ∧ r.mismatch? b.module type = some e := by
  unfold next
  revert verdict
  generalize r.answer b = answered
  intro verdict
  cases verdict with
  | passed absent => exact iff_of_true rfl (.inl absent)
  | mismatched declared refused => exact iff_of_true rfl (.inr (.inr ⟨_, _, declared, refused⟩))
  | taken declared fits bound => exact iff_of_true rfl (.inr (.inl bound))
  | added declared fits free =>
    refine iff_of_false (fun same => ?_) ?_
    · exact List.cons_ne_self _ _ (congrArg Binder.bound same)
    · rintro (absent | bound | ⟨type, e, declared', refused⟩)
      · exact absent (Table.mem_keys_iff.mpr (by rw [declared]; rfl))
      · exact free bound
      · obtain rfl := Option.some.inj (declared.symm.trans declared')
        rw [fits] at refused
        cases refused

theorem Serves.balanced (hb : b.Serves module imports) (lacks : front.Lacks module) :
    (b.onto front).Balanced front module imports := by
  obtain rfl := hb.module_eq
  obtain rfl := hb.imports_eq
  have find (name : String) :
      (b.onto front).linker.find? b.module name = b.linker.find? b.module name :=
    Linker.find?_append_of_lacks lacks b.linker
  have bound_iff (name : String) :
      name ∈ b.bound ↔ ∃ f, (b.onto front).linker.find? b.module name = some f := by
    rw [find, hb.bound_iff_find?]
  have verdict (r : Request) : r.Verdict (b.onto front) (r.answer (b.onto front)) :=
    Request.verdict_answer (b := b.onto front)
      (fun name => (bound_iff name).trans Option.isSome_iff_exists.symm) r
  refine ⟨fun name bound => ?_, bound_iff, fun name f found => ?_, fun other ne name => ?_, verdict,
    fun r => next_eq_iff (verdict r), fun name => ?_, ?_, fun result => finish_eq_ok_iff,
    fun e => finish_eq_error_iff_least⟩
  · obtain ⟨f, found⟩ := (hb.bound_iff_find? name).mp bound
    rw [Table.mem_keys_iff, (hb.declared_find? found).2.2]
    rfl
  · exact hb.declared_find? ((find name).symm.trans found)
  · have none : b.linker.find? other name = none :=
      Linker.find?_eq_none_iff.mpr fun f mem same => absurd (same.symm.trans (hb.own f mem)) ne
    rw [Linker.find?, onto, List.find?_append]
    exact (congrArg _ none).trans Option.or_none
  · simp [unbound, importedNames, onto]
  · exact (b.imports.keys_sorted.filter _).imp Utf8.encode_lt_iff.mpr

/-- **The books of a binder agree**, whatever is called of it. It starts on top of a linker in which
nothing is bound for its module. Calls are made one after the other, with whatever names and
signatures, and the failures of those that are refused are passed over. Then the bound names are
imported; the linker has functions of the module for just these, with the types that the guest
declares; the next call adds nothing if its name is not imported, is bound or has another signature,
and else just its function; what is left is told in the order of the bytes; and finishing succeeds
if nothing is left, and fails as the first of what is. Providers and links make such calls, and do
nothing else to a binder. -/
theorem balanced_after (lacks : linker.Lacks module) (imports : Table String Wasm.FuncType) :
    (∀ calls, ((new linker module imports).after calls).Balanced linker module imports) ∧
    (∀ (p : Provider) (w : World) (b : Binder),
      (p.bind w (new linker module imports)).1 = .ok b →
        ∃ calls, b = (new linker module imports).after calls) ∧
    ∀ (target : Wasm.Module) (b : Binder),
      Link.bind target (new linker module imports) = .ok b →
        ∃ calls, b = (new linker module imports).after calls := by
  refine ⟨fun calls => ?_, fun p w b bound => exists_after_run bound,
    fun target b bound => exists_after_bindAll bound⟩
  rw [← onto_new, after_onto lacks (serves_new module imports)]
  exact (serves_after (serves_new module imports) calls).balanced lacks

/-- Two imported functions. -/
def clocked : Table String Wasm.FuncType :=
  .ofList [("now", ⟨[], [.i64]⟩), ("log", ⟨[.i32, .i32], []⟩)]

/-- Calls of a name that is not imported, with another signature than the guest declares, and with
the right one, which is then made again. -/
def persistent : List Request :=
  [.unimplemented "exit", .typed "log" (.i32s 2) (.guest "g" "log"),
    .typed "log" ⟨[.i32, .i32], none⟩ (.guest "g" "log"), .declared "log" (.guest "g" "other")]

/-- One function is bound, with the type that the guest declares, and the other is left. -/
theorem balanced_after_persistent :
    let linker : Linker := [⟨"core", "log", ⟨[], []⟩, none, .guest "h" "log"⟩]
    let b := (new linker "env" clocked).after persistent
    linker.Lacks "env" ∧ b.bound = ["log"] ∧
      (∃ f, b.linker.find? "env" "log" = some f ∧ f.type = ⟨[.i32, .i32], []⟩) ∧
      b.linker.find? "core" "log" = linker.find? "core" "log" ∧
      (∀ r ∈ persistent, b.next r = b) ∧
      b.finish = .error (.unresolvedImport "env" "now") := by
  intro linker b
  have lacks : linker.Lacks "env" := by simp [Linker.Lacks, linker]
  obtain ⟨balanced, -, -⟩ := balanced_after lacks clocked
  have books : b.Balanced linker "env" clocked := balanced persistent
  have keys : clocked.keys = ["log", "now"] := by decide +kernel
  have log : clocked.find? "log" = some ⟨[.i32, .i32], []⟩ := by decide +kernel
  have bound : b.bound = ["log"] := by decide +kernel
  refine ⟨lacks, bound, ?_, books.others _ (by decide) _, ?_, ?_⟩
  · obtain ⟨f, found⟩ := (books.bound_iff "log").mp (by simp [bound])
    obtain ⟨-, -, declared⟩ := books.declared _ _ found
    exact ⟨f, found, (Option.some.inj (log.symm.trans declared)).symm⟩
  · intro r mem
    rw [books.next_eq_iff, keys, bound]
    simp only [persistent, List.mem_cons, List.not_mem_nil, or_false] at mem
    rcases mem with rfl | rfl | rfl | rfl <;> simp [Request.name]
  · rw [books.finish_eq_error_iff, keys, bound]
    exact ⟨"now", by simp, by simp, by simp, rfl⟩

end Binder

end GuestHost
