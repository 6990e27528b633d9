import GuestHost.Proofs.HostCalls.Safety
import GuestHost.Proofs.Linking.Offered
/-!
# What links call

A link is bound to an export of another guest, which has just the type that the import declares:
`Sandbox.exists_target_of_link`. It is the alias that is kept, though, and not the module: every
call loads what the alias stands for then. Before an entry is called its parameters are checked
against the arguments, but nobody tells the guest that is called what result the caller declares. So
what a link returns to its caller comes of an export with the parameters that were checked and any
result, which becomes a word: `Sandbox.links_agree_on_params`.
-/

namespace GuestHost

open Stateful

/-! ## Types -/

/-- A signature stands for one function type. -/
theorem Signature.type_unique {s : Signature} {type type' : Wasm.FuncType} (h : s.Matches type)
    (h' : s.Matches type') : type = type' := by
  have params : type.params = type'.params := by
    rw [params_of_matches h, params_of_matches h']
  have results : type.results = type'.results := by
    rw [results_of_matches h, results_of_matches h']
  cases type
  cases type'
  simp_all

/-- The parameters of a link are words. -/
theorem Link.params_of_isLinkable {s : Signature} (linkable : isLinkable s)
    {type : Wasm.FuncType} (fits : s.Matches type) :
    type.params = List.replicate type.params.length .i32 := by
  have words := (Bool.and_eq_true_iff.mp linkable).1
  refine List.eq_replicate_iff.mpr ⟨rfl, fun param mem => ?_⟩
  rw [Signature.params_of_matches fits] at mem
  obtain ⟨kind, hkind, rfl⟩ := List.mem_map.mp mem
  have word := List.all_eq_true.mp words kind hkind
  rw [eq_of_beq word]
  rfl

/-! ## Bound links -/

/-- A function that stands for an export of a guest: the module that it was bound to exports the
name with just the type that the function has, which a link can carry. -/
structure HostFunction.Targets (f : HostFunction) (guest : String) (target : Wasm.Module) :
    Prop where
  backing_eq : f.backing = .guest guest f.name
  exported : target.exportedType? f.name = some f.type
  linkable : ∃ s, Link.isLinkable s ∧ s.Matches f.type ∧ f.result = s.result

namespace HostFunction.Targets

variable {f : HostFunction} {guest : String} {target : Wasm.Module}

theorem params_eq (h : f.Targets guest target) :
    f.type.params = List.replicate f.type.params.length .i32 := by
  obtain ⟨s, linkable, fits, -⟩ := h.linkable
  exact Link.params_of_isLinkable linkable fits

theorem givesWords (h : f.Targets guest target) : f.GivesWords := by
  obtain ⟨s, linkable, fits, result⟩ := h.linkable
  exact givesWords_of_matches fits result
    (by simpa using (Bool.and_eq_true_iff.mp linkable).2)

end HostFunction.Targets

namespace Link

variable {guest : String} {target : Wasm.Module} {b b' : Binder} {names : List String}

theorem matches_of_signature {name : String} {type : Wasm.FuncType} {s : Signature}
    (h : signature guest name type = .ok s) : s.Matches type := by
  unfold signature at h
  split at h
  · rename_i found
    obtain rfl := Except.ok.inj h
    exact (Option.filter_eq_some_iff.mp found).1
  · cases h

/-- **Links are bound to exports with the types that are declared.** -/
theorem targets_bindAll (hb : b.linker.All fun f => f.Targets guest target)
    (h : bindAll guest target names b = .ok b') :
    b'.linker.All fun f => f.Targets guest target := by
  induction names generalizing b with
  | nil => exact Except.ok.inj h ▸ hb
  | cons name rest ih =>
    unfold bindAll at h
    split at h
    · exact ih hb h
    · rename_i type exported
      split at h
      · cases h
      · rename_i s linked
        split at h
        · cases h
        · rename_i next bound
          have linkable := isLinkable_of_signature linked
          have same := matches_of_signature linked
          have grows : b.Grows (fun f => f.Targets guest target) next := by
            refine Binder.grows_bind (fun declared fits => ?_) bound
            obtain rfl := Signature.type_unique same fits
            exact ⟨rfl, exported, s, linkable, fits, rfl⟩
          exact ih (grows.all hb) h

end Link

/-- A function that stands for no guest, as all do that providers bind. -/
def HostFunction.Handled (f : HostFunction) : Prop :=
  ∀ guest entry, f.backing ≠ .guest guest entry

theorem Provider.handled_bind {provider : Provider} {module : String}
    {types : Table String Wasm.FuncType} {w : World} {b : Binder}
    (h : (provider.bind w (.new [] module types)).1 = .ok b) : b.linker.All HostFunction.Handled := by
  have offers : ∀ binding : Binding, binding.Offers HostFunction.Handled := by
    intro binding
    cases binding <;> simp [Binding.Offers, HostFunction.Handled]
  exact Plan.keeps_run Binder.Grows.all (Plan.offers_of_forall offers provider.plan)
    (Binder.all_new _ module types) h

/-- What the resolver for links binds are exports of the guest that it loads. -/
theorem Resolver.targets_outcome {platform : Platform} {context : Context} {w : World}
    {module : String} {types : Table String Wasm.FuncType} {b : Binder}
    (h : outcome platform context w (.new [] module types) link = .ok b) :
    ∃ target, ((Loading.load module).run w).1 = .ok target ∧
      b.linker.All fun f => f.Targets module target := by
  dsimp only [outcome, Binder.new] at h
  split at h
  · cases h
  · cases loaded : ((Loading.load module).run w).1 with
    | error e =>
      rw [loaded] at h
      cases h
    | ok target =>
      rw [loaded] at h
      exact ⟨target, rfl, Link.targets_bindAll (Binder.all_new _ _ _) h⟩

/-! ## The functions of a sandbox -/

namespace Sandbox

variable {platform : Platform} {context : Context} {w : World} {s : Sandbox}
  {i : Wasm.Import} {f : HostFunction}

/-- **A link is bound to an export of the type that its import declares**: of the guest that the
imported module names, as it was loaded when the sandbox was prepared. -/
theorem exists_target_of_link (prepared : ((prepare platform context).run w).1 = .ok s)
    (hi : i ∈ s.program.imports) (bound : s.function? i = some f) {guest entry : String}
    (linked : f.backing = .guest guest entry) :
    guest = i.module ∧ entry = i.name ∧
      ∃ target, ((Loading.load guest).run w).1 = .ok target ∧ f.Targets guest target := by
  obtain ⟨resolver, b, -, outcome, hf, -, name⟩ := exists_resolver prepared hi bound
  have unhandled : ¬ f.Handled := fun handled => handled guest entry linked
  cases resolver with
  | link =>
    obtain ⟨target, loaded, targets⟩ := Resolver.targets_outcome outcome
    have same := linked.symm.trans (targets f hf).backing_eq
    injection same with guest_eq entry_eq
    subst guest_eq
    exact ⟨rfl, entry_eq.trans name, target, loaded, targets f hf⟩
  | provider => exact absurd (Provider.handled_bind outcome f hf) unhandled
  | posix => exact absurd (Provider.handled_bind outcome f hf) unhandled
  | managed => exact absurd (Provider.handled_bind outcome f hf) unhandled

/-- A guest that is not run as a POSIX program is bound to candid functions only. -/
theorem candid_of_direct (candid : platform.Candid) (direct : context.mode = .direct)
    (prepared : ((prepare platform context).run w).1 = .ok s)
    (hi : i ∈ s.program.imports) (bound : s.function? i = some f) : f.Candid := by
  obtain ⟨resolver, b, first, outcome, hf, -⟩ := exists_resolver prepared hi bound
  unfold Resolver.first? at first
  have applies : Resolver.Applies platform w.shelf context.mode i.module resolver := by
    simpa using List.find?_some first
  have planned (provider : Provider) (offers : provider.plan.Offers HostFunction.Candid)
      (bound : (provider.bind w (.new [] i.module
        (Resolver.typesOf s.program i.module))).1 = .ok b) : f.Candid :=
    Plan.keeps_run Binder.Grows.all offers (Binder.all_new _ _ _) bound f hf
  cases resolver with
  | provider =>
    refine planned _ ?_ outcome
    show Plan.Offers _ ((platform.providers.find? i.module).getD ⟨.done⟩).plan
    cases found : platform.providers.find? i.module with
    | none => trivial
    | some provider => exact candid i.module provider found
  | link =>
    -- behind a link is no host call
    intro call native
    obtain ⟨target, -, targets⟩ := Resolver.targets_outcome outcome
    cases native.symm.trans (targets f hf).backing_eq
  | posix => exact absurd (direct.symm.trans applies.1) (by decide)
  | managed =>
    refine planned _ ?_ outcome
    refine (Managed.offers_typed _).mono fun module name type result handler offered => ?_
    intro call native
    rcases offered with typed | typed | ⟨stub, -⟩
    · cases native.symm.trans typed.backing_eq
      exact .inl (Stateful.FailsAs.pure _)
    · cases native.symm.trans typed.backing_eq
      exact .inl (Managed.tame_write World.steady_true.calm).quiet
    · exact .inr stub

end Sandbox

/-- A candid function does not end its guest. -/
theorem HostCall.not_exit_of_candid {c : HostCall} {invoke : Invoke} (candid : c.function.Candid)
    (code : Int32) : c.outcome invoke ≠ .error (.exit code) := by
  intro failed
  have value := value_of_outcome failed id
  rcases HostFunction.value_error_cases value with
    ⟨call, native, behind⟩ | misread | ⟨_, _, _, _, _, never⟩
  · rcases candid call native with quiet | stub
    · exact quiet c.site _ behind
    · rw [stub] at native
      cases native
      cases behind
  · exact misread
  · cases never

/-! ## Calls of links -/

/-- Arguments that are all words are integers. -/
theorem Site.exists_integers {site : Site} {count : Nat}
    (fits : site.Fits (List.replicate count .i32)) :
    ∃ integers : List Int32, integers.length = count ∧
      site.arguments = integers.map fun n => .i32 n.toUInt32 := by
  have words : ∀ value ∈ site.arguments, ∃ n : Int32, value = .i32 n.toUInt32 := by
    intro value mem
    have word : value.type = .i32 := by
      have typed : value.type ∈ site.arguments.map Wasm.Value.type := List.mem_map_of_mem mem
      rw [show site.arguments.map Wasm.Value.type = _ from fits] at typed
      exact List.eq_of_mem_replicate typed
    cases value with
    | i32 w => exact ⟨w.toInt32, by rw [UInt32.toUInt32_toInt32]⟩
    | _ => cases word
  have length : site.arguments.length = count := by
    have lengths := congrArg List.length fits
    rwa [List.length_map, List.length_replicate] at lengths
  refine ⟨site.arguments.map fun value => Sandbox.report [value],
    by rw [List.length_map, length], ?_⟩
  rw [List.map_map]
  refine (List.map_id _).symm.trans (List.map_congr_left fun value mem => ?_)
  obtain ⟨n, rfl⟩ := words value mem
  rfl

/-- A link called with integers asks for its guest with these, one level deeper. -/
theorem Backing.exists_request {site : Site} {integers : List Int32}
    (arguments : site.arguments = integers.map fun n => .i32 n.toUInt32) (guest entry : String) :
    ∃ r, (Backing.guest guest entry).request? site = some r ∧ r.via = .link ∧
      r.context.guest = guest ∧ r.context.entry = entry ∧ r.context.mode = .direct ∧
      r.context.arguments = integers ∧ r.context.depth = site.invocation.depth + 1 ∧
      r.world.shelf = site.world.shelf ∧ r.world.modules = site.world.modules := by
  refine ⟨⟨.link, ((Context.nested site.invocation guest entry).withArguments integers).withBuffers
    site.world.create.1 site.world.create.2.create.1, site.world.create.2.create.2⟩, ?_,
    rfl, rfl, rfl, rfl, rfl, rfl, rfl, rfl⟩
  show Nesting.request? .link ((Nesting.linkContext guest entry).run site) = _
  rw [Nesting.run_linkContext arguments]
  rfl

/-- An invocation that ended well prepared its guest and ran it. -/
theorem Invocation.exists_prepared {platform : Platform} {context r : Context} {w : World}
    (well : ((invoke platform (levels platform context.depth) context).run w).1 = .ok r) :
    ∃ s after, (Sandbox.prepare platform context).run w = (.ok s, after) ∧
      ((s.run (s.invoking platform) platform.config.fuel).run after).1 = .ok r := by
  cases left : levels platform context.depth with
  | zero =>
    rw [left] at well
    cases well
  | succ levels =>
    rw [left] at well
    unfold invoke at well
    rw [run_bind] at well
    cases prepared : (Sandbox.prepare platform context).run w with
    | mk outcome after =>
      rw [prepared] at well
      cases outcome with
      | error e => cases well
      | ok s =>
        have context_eq := (Sandbox.reaches_of_prepare
          (show ((Sandbox.prepare platform context).run w).1 = .ok s by rw [prepared])).2
        have fewer : Invocation.levels platform (s.context.depth + 1) = levels := by
          rw [context_eq]
          unfold Invocation.levels at left ⊢
          omega
        refine ⟨s, after, rfl, ?_⟩
        unfold Sandbox.invoking
        rw [fewer]
        exact well

namespace Sandbox

/-- The entry that is called takes words, as many as the context passes, and returns a number or
nothing. -/
theorem type_of_entry {s : Sandbox} {memory : Memory} {machine : Wasm.Machine}
    (entered : s.entry memory = .ok machine) :
    ∃ found, s.program.exportedType? s.context.entry = some found ∧
      found.params = List.replicate (entryArguments s.context).length .i32 ∧
      ∃ result : Option NumKind, found.results = (result.map NumKind.type).toList := by
  unfold entry at entered
  split at entered
  · rename_i index found _ exported
    split at entered
    · cases entered
    · rename_i accepted
      dsimp only [refusal?] at accepted
      split at accepted
      · rename_i fits
        refine ⟨found, exported, ?_, _, Signature.results_of_matches fits⟩
        rw [Signature.params_of_matches fits, List.map_replicate]
        rfl
      · cases accepted
  · cases entered

variable {platform : Platform} {context : Context} {w : World} {s : Sandbox}
  {i : Wasm.Import} {f : HostFunction}

/-- On a candid platform, no host call ends a guest that is not run as a POSIX program. -/
theorem not_exit_of_direct (candid : platform.Candid) (direct : context.mode = .direct)
    (prepared : ((prepare platform context).run w).1 = .ok s) {invoke : Invoke}
    {limit : Option Nat} {world : World} {call : HostCall} {code : Int32} :
    ¬ s.EndedBy invoke limit world call (.exit code) := by
  rintro ⟨last, failed⟩
  have goes := goes_callEntry invoke s (limit.getD unlimited) (s.surroundings world)
  obtain ⟨around, ⟨index, called⟩, -⟩ := goes.makes (List.mem_of_getLast? last)
  obtain ⟨i, hi, bound⟩ := Option.bind_eq_some_iff.mp called
  have plain := candid_of_direct candid direct prepared (List.mem_of_getElem? hi) bound
  exact HostCall.not_exit_of_candid plain code failed

/-- **What a link returns comes of an export with the parameters that were checked.** Preparing has
bound an import to an export of just the type that it declares, of the guest as it was loaded then.
Later, whatever has become of the world, a call of it either fails for good or returns. If it
returns, then what the alias stands for at the time of the call was loaded and run, and its export of
that name returned: it takes the parameters that the import declares, and it has at most one result,
a number of any kind. That is also the type declared if the module is the one that was linked. Only
on a platform whose providers end guests may the call return because the guest was ended. -/
theorem links_agree_on_params (platform : Platform) (context : Context) (w : World) {s : Sandbox}
    (prepared : ((prepare platform context).run w).1 = .ok s) {i : Wasm.Import}
    (hi : i ∈ s.program.imports) {f : HostFunction} (bound : s.function? i = some f)
    {guest entry : String} (linked : f.backing = .guest guest entry) (site : Site)
    (fits : site.Fits f.type.params) :
    guest = i.module ∧ entry = i.name ∧ (s.misfit? i = none → i.type = some f.type) ∧
    ∃ target, ((Loading.load guest).run w).1 = .ok target ∧
      target.exportedType? entry = some f.type ∧
      (∀ e, f.outcomeAt platform site = .error e → ∃ failure, e = .fatal (.failure failure)) ∧
      ∀ values, f.outcomeAt platform site = .ok values → ∃ r nested after number,
        f.backing.request? site = some r ∧
        (prepare platform r.context).run r.world = (.ok nested, after) ∧
        ((Loading.load guest).run site.world).1 = .ok nested.program ∧
        values = f.type.results.map (fun _ => .i32 (Int32.toUInt32 number)) ∧
        ((¬ platform.Candid ∧ ∃ call,
            nested.EndedBy (nested.invoking platform) platform.config.fuel after call
              (.exit number)) ∨
          nested.Returns (nested.invoking platform) platform.config.fuel after number ∧
            ∃ found, nested.program.exportedType? entry = some found ∧
              found.params = f.type.params ∧
              (∃ result : Option NumKind, found.results = (result.map NumKind.type).toList) ∧
              (nested.program = target → found = f.type)) := by
  obtain ⟨guest_eq, entry_eq, target, loaded, targets⟩ :=
    exists_target_of_link prepared hi bound linked
  have reaches := (reaches_of_prepare prepared).1
  have named : f.name = entry := by
    have same := targets.backing_eq.symm.trans linked
    injection same
  have exported : target.exportedType? entry = some f.type := named ▸ targets.exported
  refine ⟨guest_eq, entry_eq, (misfit?_eq_none_iff bound (reaches.functions i hi)).mp, target, loaded,
    exported, ?_⟩
  -- what the call asks for: the guest with the arguments of the call
  rw [targets.params_eq] at fits
  obtain ⟨integers, count, arguments⟩ := site.exists_integers fits
  obtain ⟨r, asked, via, called, field, direct, passed, depth, shelf, modules⟩ :=
    Backing.exists_request arguments guest entry
  rw [← linked] at asked
  have outcome : f.outcomeAt platform site = _ := (HostFunction.run_call targets.givesWords _ site).1
  rw [f.run_value _ asked, via] at outcome
  rw [outcome]
  cases come : ((HostFunction.invokingAt platform site r.context).run r.world).1 with
  | error e =>
    refine ⟨fun fault failed => ⟨e, ?_⟩, fun values well => nomatch well⟩
    exact (Except.error.inj failed).symm
  | ok c =>
    refine ⟨fun fault failed => (nomatch failed), fun values well => ?_⟩
    rw [HostFunction.invokingAt, ← depth] at come
    obtain ⟨nested, after, ready, ran⟩ := Invocation.exists_prepared come
    have prepared' : ((prepare platform r.context).run r.world).1 = .ok nested := by rw [ready]
    obtain ⟨reaches', context_eq⟩ := reaches_of_prepare prepared'
    have loads : ((Loading.load guest).run site.world).1 = .ok nested.program := by
      rw [← Loading.load_congr shelf modules, ← called]
      exact reaches'.loads
    have values_eq := (Except.ok.inj well).symm
    rcases (run_ok_iff c).mp ran with ⟨number, returns, rfl⟩ | ⟨call, code, exits, rfl⟩
    · refine ⟨r, nested, after, number, asked, ready, loads, values_eq, .inr ⟨returns, ?_⟩⟩
      obtain ⟨rest, -, machine, -, -, entered, -⟩ := returns
      obtain ⟨found, exported', params, result⟩ := type_of_entry entered
      rw [context_eq, field] at exported'
      refine ⟨found, exported', ?_, result, fun same => ?_⟩
      · have words : (entryArguments nested.context).length = f.type.params.length := by
          rw [context_eq, entryArguments, direct, passed, count]
        rw [params, words, ← targets.params_eq]
      · rw [same, exported] at exported'
        exact (Option.some.inj exported').symm
    · refine ⟨r, nested, after, code, asked, ready, loads, values_eq,
        .inl ⟨fun candid => ?_, call, exits⟩⟩
      exact not_exit_of_direct candid direct prepared' exits

end Sandbox

/-! ## A link to a guest that is registered again -/

namespace Relink

/-- A guest whose entry returns a number. -/
def answering (type number : String) : String :=
  "(module (func (export \"run\") (result " ++ type ++ ") " ++ type ++ ".const " ++ number ++ "))"

/-- A guest whose entry calls that of the other, which is to return a word. -/
def calling : String :=
  "(module (import \"other\" \"run\" (func $f (result i32)))" ++
    " (func (export \"run\") (result i32) call $f))"

/-- The world of a host of two guests, one of which is linked to the other. -/
def world : World :=
  let h := ((Host.new .default .offline 0).registerGuest "other" (Utf8.encode (answering "i32" "7"))).2
  (h.registerGuest "calling" (Utf8.encode calling)).2.world

/-- The world after the other guest has been registered again, with an entry that returns a long
word. -/
def again : World :=
  ((Host.mk (.standard .default) world).registerGuest "other"
    (Utf8.encode (answering "i64" "4294967301"))).2.world

/-- What comes of preparing the guest that is linked. -/
def prepared : Except Failure Sandbox :=
  ((Sandbox.prepare (.standard .default) (.top "calling" "run")).run world).1

/-- Where the entry calls the other in a world. -/
def site (w : World) : Site := ⟨[], .none, (Context.top "calling" "run").toInvocation, .unbound, w⟩

theorem fits_site (w : World) : (site w).Fits [] := rfl

/-- Whether a link to the other guest returns a number in a world in which the entry of that guest
has a type. -/
def returns (f : HostFunction) (w : World) (number : UInt32) (type : Wasm.FuncType) : Bool :=
  (match f.outcomeAt (.standard .default) (site w) with
    | .ok [.i32 word] => word == number
    | _ => false) &&
  (match ((Loading.load "other").run w).1 with
    | .ok m => decide (m.exportedType? "run" = some type)
    | .error _ => false)

/-- Whether the link is one to the other guest, and returns before and after that guest is
registered again. -/
def holds (f : HostFunction) : Bool :=
  (match f.backing with
    | .guest guest entry => decide (guest = "other" ∧ entry = "run")
    | .handler _ => false) &&
  (decide (f.type = ⟨[], [.i32]⟩) &&
    (returns f world 7 ⟨[], [.i32]⟩ && returns f again 5 ⟨[], [.i64]⟩))

theorem linked : (prepared.toOption.any fun s => (s.called? 0).any holds) = true := by
  decide +kernel

theorem of_returns {f : HostFunction} {w : World} {number : UInt32} {type : Wasm.FuncType}
    (h : returns f w number type = true) :
    f.outcomeAt (.standard .default) (site w) = .ok [.i32 number] ∧
      ∃ m, ((Loading.load "other").run w).1 = .ok m ∧ m.exportedType? "run" = some type := by
  obtain ⟨outcome, exported⟩ := Bool.and_eq_true_iff.mp h
  constructor
  · split at outcome
    · rename_i word came
      rw [came, eq_of_beq outcome]
    · cases outcome
  · split at exported
    · rename_i m loaded
      exact ⟨m, loaded, of_decide_eq_true exported⟩
    · cases exported

/-- The link is one to the other guest, whose entry was to return a word. -/
theorem exists_linked : ∃ s f, prepared = .ok s ∧ s.called? 0 = some f ∧
    f.backing = .guest "other" "run" ∧ f.type = ⟨[], [.i32]⟩ ∧
    returns f world 7 ⟨[], [.i32]⟩ = true ∧ returns f again 5 ⟨[], [.i64]⟩ = true := by
  obtain ⟨s, ready, held⟩ := ok_of_toOption_any linked
  obtain ⟨f, called, held⟩ := (Option.any_eq_true _ _).mp held
  obtain ⟨backing, held⟩ := Bool.and_eq_true_iff.mp held
  obtain ⟨type, held⟩ := Bool.and_eq_true_iff.mp held
  obtain ⟨before, after⟩ := Bool.and_eq_true_iff.mp held
  refine ⟨s, f, ready, called, ?_, of_decide_eq_true type, before, after⟩
  split at backing
  · rename_i guest entry behind
    obtain ⟨rfl, rfl⟩ := of_decide_eq_true backing
    exact behind
  · cases backing

/-- Before the other guest is registered again, its entry returns what the link declares. -/
theorem links_agree_on_params_before : ∃ s f m,
    prepared = .ok s ∧ s.called? 0 = some f ∧
    f.outcomeAt (.standard .default) (site world) = .ok [.i32 7] ∧
    ((Loading.load "other").run world).1 = .ok m ∧ m.exportedType? "run" = some f.type := by
  obtain ⟨s, f, ready, called, backing, type, before, -⟩ := exists_linked
  obtain ⟨outcome, -⟩ := of_returns before
  obtain ⟨i, hi, bound⟩ := Option.bind_eq_some_iff.mp called
  have fits : (site world).Fits f.type.params := by
    rw [type]
    exact fits_site world
  have ready' :
      ((Sandbox.prepare (.standard .default) (.top "calling" "run")).run world).1 = .ok s := by
    rw [← ready, prepared]
  obtain ⟨-, -, -, target, loaded, exported, -⟩ :=
    Sandbox.links_agree_on_params (.standard .default) (.top "calling" "run") world ready'
      (List.mem_of_getElem? hi) bound backing (site world) fits
  exact ⟨s, f, target, ready, called, outcome, loaded, exported⟩

/-- After that, the link returns a word all the same: the lower half of a long one. -/
theorem link_returns_long : ∃ s f m,
    prepared = .ok s ∧ s.called? 0 = some f ∧
    f.backing = .guest "other" "run" ∧ f.type = ⟨[], [.i32]⟩ ∧
    f.outcomeAt (.standard .default) (site again) = .ok [.i32 5] ∧
    ((Loading.load "other").run again).1 = .ok m ∧
    m.exportedType? "run" = some ⟨[], [.i64]⟩ := by
  obtain ⟨s, f, ready, called, backing, type, -, after⟩ := exists_linked
  obtain ⟨outcome, m, loaded, exported⟩ := of_returns after
  exact ⟨s, f, m, ready, called, backing, type, outcome, loaded, exported⟩

end Relink

end GuestHost
