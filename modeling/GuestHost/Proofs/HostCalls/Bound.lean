import GuestHost.Proofs.HostCalls.Functions
import GuestHost.Proofs.Linking.Binder
/-!
# What providers bind

A provider binds a function with its signature or as a stub: `Core.offers_typed`,
`Posix.offers_typed` and `Managed.offers_typed` say which. What holds of all functions with these
signatures therefore holds of all functions of a guest that these providers serve,
`Plan.Offers.mono`.
-/

namespace GuestHost

/-! ## Signatures -/

theorem NumKind.type_of_ofType? {type : Wasm.ValType} {kind : NumKind}
    (h : ofType? type = some kind) : kind.type = type := by
  cases type <;> cases h <;> rfl

/-- A function type has the result that its signature has. -/
theorem Signature.results_of_matches {s : Signature} {type : Wasm.FuncType} (h : s.Matches type) :
    type.results = (s.result.map NumKind.type).toList := by
  obtain ⟨params, -, rest⟩ := Option.bind_eq_some_iff.mp h
  split at rest
  · rename_i none
    obtain rfl := Option.some.inj rest
    exact none
  · rename_i result one
    obtain ⟨kind, found, rest⟩ := Option.bind_eq_some_iff.mp rest
    obtain rfl := Option.some.inj rest
    simp [one, NumKind.type_of_ofType? found]
  · cases rest

/-- A function type has the parameters that its signature has. -/
theorem Signature.params_of_matches {s : Signature} {type : Wasm.FuncType} (h : s.Matches type) :
    type.params = s.params.map NumKind.type := by
  obtain ⟨params, found, rest⟩ := Option.bind_eq_some_iff.mp h
  have same : params = s.params := by
    split at rest
    · exact congrArg Signature.params (Option.some.inj rest)
    · obtain ⟨kind, -, rest⟩ := Option.bind_eq_some_iff.mp rest
      exact congrArg Signature.params (Option.some.inj rest)
    · cases rest
  rw [← same]
  clear same rest h
  -- only the parameters matter from here on, which are a list of their own
  generalize type.params = types at found ⊢
  induction types generalizing params with
  | nil =>
    obtain rfl := Option.some.inj found
    rfl
  | cons type rest ih =>
    rw [List.mapM_cons] at found
    obtain ⟨kind, first, found⟩ := Option.bind_eq_some_iff.mp found
    obtain ⟨kinds, others, found⟩ := Option.bind_eq_some_iff.mp found
    obtain rfl := Option.some.inj found
    rw [List.map_cons, NumKind.type_of_ofType? first, ← ih kinds others]

/-! ## Functions -/

/-- A function that is bound under a name with a signature. -/
structure HostFunction.Typed (f : HostFunction) (name : String) (signature : Signature)
    (handler : Handler) : Prop where
  name_eq : f.name = name
  fits : signature.Matches f.type
  result_eq : f.result = signature.result
  backing_eq : f.backing = .handler handler

theorem HostFunction.Typed.params_eq {f : HostFunction} {name : String} {signature : Signature}
    {handler : Handler} (h : f.Typed name signature handler) :
    f.type.params = signature.type.params := Signature.params_of_matches h.fits

/-- What a plan offers may be described by less. -/
theorem Plan.Offers.mono {P Q : HostFunction → Prop} {plan : Plan}
    (weaker : ∀ module name type result handler, P ⟨module, name, type, result, .handler handler⟩ →
      Q ⟨module, name, type, result, .handler handler⟩) (h : plan.Offers P) : plan.Offers Q := by
  induction plan with
  | done => trivial
  | refuse e => trivial
  | look next ih => exact fun view => ih view (h view)
  | bind binding next ih =>
    refine ⟨?_, fun outcome => ih outcome (h.2 outcome)⟩
    have offers := h.1
    cases binding with
    | typed name signature handler =>
      exact fun module type fits => weaker _ _ _ _ _ (offers module type fits)
    | declared name handler =>
      exact fun module type result => weaker _ _ _ _ _ (offers module type result)
    | unimplemented name =>
      exact fun module type result => weaker _ _ _ _ _ (offers module type result)
    | inspect name => trivial

/-- What holds of all that a plan offers may be said in two parts. -/
theorem Plan.Offers.and {P Q : HostFunction → Prop} {plan : Plan} (h : plan.Offers P)
    (h' : plan.Offers Q) : plan.Offers fun f => P f ∧ Q f := by
  induction plan with
  | done => trivial
  | refuse e => trivial
  | look next ih => exact fun view => ih view (h view) (h' view)
  | bind binding next ih =>
    refine ⟨?_, fun outcome => ih outcome (h.2 outcome) (h'.2 outcome)⟩
    have first := h.1
    have second := h'.1
    cases binding with
    | typed name signature handler =>
      exact fun module type fits => ⟨first module type fits, second module type fits⟩
    | declared name handler =>
      exact fun module type result => ⟨first module type result, second module type result⟩
    | unimplemented name =>
      exact fun module type result => ⟨first module type result, second module type result⟩
    | inspect name => trivial

/-! ## Providers -/

theorem Core.offers_typed : Core.provider.plan.Offers fun f =>
    (∃ call ∈ calls, f.Typed call.1 (.i32s call.2.1) (.native call.2.2)) ∨
      f.Typed "call_function" (.i32s 10) .callFunction := by
  refine Plan.offers_ofList fun binding hbinding => ?_
  rcases List.mem_append.mp hbinding with hbinding | hbinding
  · obtain ⟨call, hcall, rfl⟩ := List.mem_map.mp hbinding
    exact fun module type fits => .inl ⟨call, hcall, rfl, fits, rfl, rfl⟩
  · rw [List.mem_singleton.mp hbinding]
    exact fun module type fits => .inr ⟨rfl, fits, rfl, rfl⟩

theorem Posix.offers_typed (names : List String) : (Posix.provider names).plan.Offers fun f =>
    (∃ call ∈ Syscall.calls, f.Typed call.1 call.2.1 (.native (Syscall.answered call.2.2))) ∨
      f.Typed "proc_exit" ⟨[.i32], none⟩ (.native Syscall.exit) ∨
      (f.backing = .handler (.stub f.module f.name) ∧ f.name ≠ "proc_exit" ∧
        Syscall.calls.lookup f.name = none) := by
  refine Plan.offers_ofList fun binding hbinding => ?_
  rcases List.mem_append.mp hbinding with hbinding | hbinding
  · rcases List.mem_append.mp hbinding with hbinding | hbinding
    · obtain ⟨call, hcall, rfl⟩ := List.mem_map.mp hbinding
      exact fun module type fits => .inl ⟨call, hcall, rfl, fits, rfl, rfl⟩
    · rw [List.mem_singleton.mp hbinding]
      exact fun module type fits => .inr (.inl ⟨rfl, fits, rfl, rfl⟩)
  · obtain ⟨name, hname, rfl⟩ := List.mem_map.mp hbinding
    obtain ⟨other, missing⟩ := Bool.and_eq_true_iff.mp (List.mem_filter.mp hname).2
    exact fun _ _ _ =>
      .inr (.inr ⟨rfl, of_decide_eq_true other, Option.isNone_iff_eq_none.mp missing⟩)

theorem Managed.offers_typed (names : List String) : (Managed.provider names).plan.Offers fun f =>
    f.Typed "io_get_stdout" (.i32s 0) (.native standardOutput) ∨
      f.Typed "resource_write" (.i32s 3) (.native write) ∨
      (f.backing = .handler (.stub f.module f.name) ∧ isStub f.name = true) := by
  refine Plan.offers_ofList fun binding hbinding => ?_
  rcases List.mem_append.mp hbinding with hbinding | hbinding
  · simp only [List.mem_cons, List.not_mem_nil, or_false] at hbinding
    rcases hbinding with rfl | rfl
    · exact fun module type fits => .inl ⟨rfl, fits, rfl, rfl⟩
    · exact fun module type fits => .inr (.inl ⟨rfl, fits, rfl, rfl⟩)
  · obtain ⟨name, hname, rfl⟩ := List.mem_map.mp hbinding
    exact fun _ _ _ => .inr (.inr ⟨rfl, (List.mem_filter.mp hname).2⟩)

end GuestHost
