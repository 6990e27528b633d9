import GuestHost.Proofs.Invocation.Reports
import GuestHost.Proofs.Linking.Resolution
import GuestHost.Proofs.Linking.Signatures
import GuestHost.Proofs.Store.Aliases
/-!
# What an alias stands for

Two parts of a host read the same text: whether a module that a guest imports is another guest is
a question of whether an alias of that name exists, and what a guest is loaded as is a question of
what the text resolves to. They agree on every alias that does not give a content id outright,
whatever is registered in between: `alias_stands_for`. An alias that does exists all the same, and
links are made to it, but what is loaded is the blob of the id that it gives.
-/

namespace GuestHost

open Store Blob Stateful

/-! ## The store of a host -/

/-- The operation on the store that a change of a host is. -/
def Change.operation? : Change → Option Operation
  | .registerGuest guest code => some (.registerNamed guest Loading.contentType code)
  | .register contentType bytes => some (.register contentType bytes)
  | .registerNamed name contentType bytes => some (.registerNamed name contentType bytes)
  | .provide _ _ => none
  | .prepare _ => none

/-- The history that changes of a host are for its store, which has no faults. -/
def Change.steps (changes : List Change) : List Step :=
  (changes.filterMap operation?).map (Step.mk [])

theorem Change.faultless_steps (changes : List Change) : ∀ t ∈ steps changes, t.faults = [] := by
  intro t ht
  obtain ⟨operation, -, rfl⟩ := List.mem_map.mp ht
  rfl

theorem Change.steps_append (changes others : List Change) :
    steps (changes ++ others) = steps changes ++ steps others := by
  simp [steps]

namespace Host

variable {h : Host}

/-- Preparing a sandbox does not change the store. -/
theorem shelf_prepare (h : Host) (context : Context) :
    (h.prepare context).2.world.shelf = h.world.shelf :=
  (Sandbox.obeys_prepare (I := fun w => w.shelf = h.world.shelf) (fun _ _ same => same)
    (Loading.obeys_load fun _ _ same => same) h.platform context h.world rfl).1

/-- A change of a host changes the store as its operation does. -/
theorem shelf_change (h : Host) (c : Change) :
    (h.change c).world.shelf =
      match c.operation? with
      | some operation => (operation.run h.world.shelf).2
      | none => h.world.shelf := by
  cases c with
  | provide module provider => rfl
  | registerGuest guest code =>
    rw [change, world_registerGuest]
    rfl
  | register contentType bytes => rfl
  | registerNamed name contentType bytes => rfl
  | prepare context => exact h.shelf_prepare context

/-- What registering a guest comes to. -/
theorem outcome_registerGuest (h : Host) (guest : String) (code : Bytes) :
    (h.registerGuest guest code).1 =
      (registerNamed guest Loading.contentType code h.world.shelf).1.mapError .store := by
  unfold registerGuest Host.store World.store
  dsimp only
  cases (registerNamed guest Loading.contentType code h.world.shelf).1 <;> rfl

/-- **The store of a host is what its changes have made of it.** -/
theorem shelf_changed (config : Config) (web : Web) (clock : Nat) (changes : List Change) :
    ((new config web clock).changed changes).world.shelf = after (Change.steps changes) := by
  induction changes using List.reverseRecOn with
  | nil => rfl
  | append_singleton changes c ih =>
    rw [changed, List.foldl_append, List.foldl_cons, List.foldl_nil, ← changed, shelf_change, ih,
      Change.steps_append]
    cases op : c.operation? with
    | none => simp [Change.steps, op]
    | some operation =>
      have last : Change.steps [c] = [⟨[], operation⟩] := by simp [Change.steps, op]
      rw [last, after_snoc_of_faultless (Change.faultless_steps changes)]

end Host

/-! ## Loading an alias -/

/-- What an alias resolves to is loaded as the module that its bytes compile to, kept or not. -/
theorem World.Justified.load_of_points {w : World} (hw : w.Justified) {guest : String} {b : Bytes}
    {m : Wasm.Module} (points : Points w.shelf guest Loading.contentType b) (notable : Notable b)
    (compiled : Wasm.Module.ofBytes? b = some m)
    (resolved : Loading.resolve w.shelf guest = .ok (idOf b)) :
    ((Loading.load guest).run w).1 = .ok m := by
  rw [Loading.run_load, resolved]
  dsimp only
  cases kept : w.modules.find? (idOf b) with
  | some n =>
    obtain ⟨c, stored, compiled'⟩ := hw.compiled _ n kept
    obtain rfl := Option.some.inj (points.stored.symm.trans stored)
    rw [compiled] at compiled'
    rw [Option.some.inj compiled']
  | none =>
    have fresh := (Loading.compile_eq_ok_iff guest hw.faultless points.stored compiled).mpr
      ⟨_, points.abstractOf notable, rfl⟩
    rw [fresh]

theorem Loading.resolve_eq_ok_iff {shelf : Shelf} {guest : String} {id : ContentId} :
    resolve shelf guest = .ok id ↔ Blob.resolve shelf guest = .ok id := by
  unfold resolve
  cases found : Blob.resolve shelf guest with
  | ok other => simp
  | error e => cases e <;> simp

namespace Host

/-- What it is for an alias to stand for a module: it is what is loaded for the alias, what an
invocation of the alias prepares and runs, and what an imported module of that name is linked to,
if no provider of that name goes before. -/
structure StandsFor (h : Host) (guest : String) (m : Wasm.Module) : Prop where
  loads : ((Loading.load guest).run h.world).1 = .ok m
  runs : ∀ (context : Context) (s : Sandbox) (w : World), context.guest = guest →
    (Sandbox.prepare h.platform context).run h.world = (.ok s, w) →
      s.program = m ∧ (h.invoke context).1 =
        ((s.run (s.invoking h.platform) h.platform.config.fuel).run w).1
  chosen : h.hasProvider guest = false → ∀ mode,
    Resolver.choose h.platform h.world.shelf mode guest = .ok .link
  links : ∀ (context : Context) (process : Posix.Process) (b : Binder), b.module = guest →
    ((Resolver.link.bind h.platform context process b).run h.world).1 =
      match Link.cycle? context.chain guest with
      | some e => .error e
      | none => (Link.bind m b).map fun linked => (linked, process)

variable {h : Host} {guest : String} {m : Wasm.Module}

/-- An alias that is loaded as a module stands for it. -/
theorem standsFor_of_loads (aliased : Blob.hasAlias h.world.shelf guest = .ok true)
    (loads : ((Loading.load guest).run h.world).1 = .ok m) : h.StandsFor guest m := by
  refine ⟨loads, fun context s w same prepared => ⟨?_, (invoke_of_prepared prepared).2⟩,
    fun unprovided mode => ?_, fun context process b same => ?_⟩
  · obtain ⟨reaches, -⟩ := Sandbox.reaches_of_prepare (w := h.world) (by rw [prepared])
    have loads' := reaches.loads
    rw [same, loads] at loads'
    exact (Except.ok.inj loads').symm
  · unfold hasProvider at unprovided
    unfold Resolver.choose
    rw [unprovided, aliased]
    rfl
  · rw [Resolver.run_bind_eq]
    dsimp only [Resolver.outcome, Resolver.processAfter]
    rw [same, loads]
    cases Link.cycle? context.chain guest with
    | some e => rfl
    | none => rfl

end Host

/-- **An alias stands for what was registered under it unless it is a reference.** After a new host
has been changed in any way, a guest whose code compiles is registered under an alias, and changes
follow that neither register the alias again nor retype the blob. The registration succeeds, and
then the alias exists and resolves to the id of the code. Where the alias gives no other content id
outright, invocations of it and links to it load just the module that the code compiles to. Where it
does, both go by the id that it gives instead. -/
theorem alias_stands_for (config : Config) (web : Web) (clock : Nat) (before rest : List Change)
    (guest : String) (code : Bytes) (notable : Notable code) {m : Wasm.Module}
    (compiled : Wasm.Module.ofBytes? code = some m)
    (distinct : Set.InjOn Digest.sha256
      (Registers (Change.steps (before ++ .registerGuest guest code :: rest))))
    (spares : ∀ t ∈ Change.steps rest, t.operation.Spares guest Loading.contentType code) :
    let first := ((Host.new config web clock).changed before).registerGuest guest code
    let h := first.2.changed rest
    first.1 = .ok (idOf code) ∧
    Blob.hasAlias h.world.shelf guest = .ok true ∧
    Blob.resolveAlias h.world.shelf guest = .ok (idOf code) ∧
    (∀ id, guest = Blob.reference id → Loading.resolve h.world.shelf guest = .ok id) ∧
    ((∀ id, guest = Blob.reference id → id = idOf code) → h.StandsFor guest m) := by
  intro first h
  have history : h = (Host.new config web clock).changed
      (before ++ .registerGuest guest code :: rest) := by
    simp only [h, first, Host.changed, List.foldl_append, List.foldl_cons, Host.change]
  -- the history of the store: what came before, the registration, and the rest
  have steps : Change.steps (before ++ .registerGuest guest code :: rest) = Change.steps before ++
      ⟨[], .registerNamed guest Loading.contentType code⟩ :: Change.steps rest :=
    Change.steps_append before _
  rw [steps] at distinct
  obtain ⟨registered, points⟩ := points_after_registered (Change.faultless_steps before)
    (Change.faultless_steps rest) distinct notable spares
  rw [← steps, ← Host.shelf_changed config web clock, ← history] at points
  rw [← Host.shelf_changed config web clock] at registered
  have justified : h.world.Justified := history ▸ Host.justified_changed config web clock _
  refine ⟨?_, points.hasAlias, points.resolveAlias, fun id given => ?_, fun own => ?_⟩
  · rw [show first.1 = _ from Host.outcome_registerGuest _ guest code, registered]
    rfl
  · rw [given]
    exact Loading.resolve_eq_ok_iff.mpr (Blob.resolve_reference _ id)
  · have resolved := (Blob.resolve_eq_ok_iff points.resolveAlias).mpr own
    exact Host.standsFor_of_loads points.hasAlias
      (justified.load_of_points points notable compiled (Loading.resolve_eq_ok_iff.mpr resolved))

/-- The name of a text comes to be the alias of a guest, and the text is retyped. -/
theorem alias_stands_for_renamed :
    let first := ((Host.new .default .offline 0).changed
      [.registerNamed "g" "text/plain" [0x61]]).registerGuest "g" Wasm.emptyBinary
    first.1 = .ok (idOf Wasm.emptyBinary) ∧
    (first.2.changed [.prepare (.top "g" "run"), .register "text/html" [0x61]]).StandsFor "g"
      .empty := by
  have distinct : Set.InjOn Digest.sha256 {[0x61], Wasm.emptyBinary} := by
    have differ : Digest.sha256 [0x61] ≠ Digest.sha256 Wasm.emptyBinary := by decide +kernel
    exact Set.injOn_pair.mpr fun same => absurd same differ
  have notable : Notable Wasm.emptyBinary := by
    unfold Notable
    decide
  have differs : ∀ id, "g" ≠ Blob.reference id := by
    intro id same
    have first := congrArg (fun text => text.toList.head?) same
    simp [Blob.reference] at first
  obtain ⟨registered, -, -, -, stands⟩ := alias_stands_for .default .offline 0
    [.registerNamed "g" "text/plain" [0x61]]
    [.prepare (.top "g" "run"), .register "text/html" [0x61]] "g" Wasm.emptyBinary notable rfl
    (distinct.mono fun b ⟨t, ht, hb⟩ => by
      simp only [Change.steps, Change.operation?, List.cons_append, List.nil_append,
        List.filterMap_cons, List.filterMap_nil, List.map_cons, List.map_nil, List.mem_cons,
        List.not_mem_nil, or_false] at ht
      rcases ht with rfl | rfl | rfl <;> cases hb <;> simp)
    (fun t ht => by
      obtain rfl : t = ⟨[], .register "text/html" [0x61]⟩ := List.mem_singleton.mp ht
      refine ⟨fun _ _ never => (nomatch never), fun other registers => ?_⟩
      cases registers.bytes_eq)
  exact ⟨registered, stands fun id same => absurd same (differs id)⟩

/-- A guest that returns a number. -/
def sevenCode : Bytes :=
  Utf8.encode "(module (func (export \"run\") (result i32) i32.const 7))"

/-- A guest that is registered under a reference exists and is linked to, and cannot be loaded. -/
theorem alias_taken_for_reference :
    let first := (Host.new .default .offline 0).registerGuest "techID://g" sevenCode
    (Wasm.Module.ofBytes? sevenCode).isSome = true ∧
    first.1 = .ok (idOf sevenCode) ∧
    Blob.hasAlias first.2.world.shelf "techID://g" = .ok true ∧
    Blob.resolveAlias first.2.world.shelf "techID://g" = .ok (idOf sevenCode) ∧
    Resolver.choose first.2.platform first.2.world.shelf .direct "techID://g" = .ok .link ∧
    (first.2.invoke (.top "techID://g" "run")).1 = .error (.store (.notFound "g")) := by
  decide +kernel

end GuestHost
