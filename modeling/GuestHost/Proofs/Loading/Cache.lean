import GuestHost.Host
import GuestHost.Proofs.Preparation
import GuestHost.Proofs.Store.History
/-!
# The modules that a host keeps compiled

A module is compiled once and kept under the content id of its blob. The bytes of a blob never
change, so what is kept stays the compilation of what is stored: `justified_changed`. The content
type of a blob may change, and it is looked at only where a module is compiled. Hence loading is
the same with and without the modules kept, except that a kept module is still loaded after its
blob has been given another content type: `load_eq_uncached_iff`.
-/

namespace GuestHost

open Store Stateful

/-- What justifies the modules that a world keeps: the store has no faults, and every module is
the compilation of the bytes of a blob that is known to it. -/
structure World.Justified (w : World) : Prop where
  faultless : w.shelf.faults = []
  known : ∀ id m, w.modules.find? id = some m → w.shelf.value? (.abstract id) ≠ none
  compiled : ∀ id m, w.modules.find? id = some m →
    ∃ b, w.shelf.value? (.bytes id) = some b ∧ Wasm.Module.ofBytes? b = some m

/-- A blob that is recorded as a guest and compiles to a module. -/
def Store.Shelf.Compiles (shelf : Shelf) (id : ContentId) (m : Wasm.Module) : Prop :=
  ∃ abstract bytes, Blob.abstractOf shelf id = .ok abstract ∧
    abstract.contentType = Loading.contentType ∧ Blob.bytesOf shelf id = .ok bytes ∧
    Wasm.Module.ofBytes? bytes = some m

/-- The world without the modules it keeps. -/
def World.uncached (w : World) : World := { w with modules := .empty }

namespace Loading

variable {w : World} {guest : String} {id : ContentId} {m : Wasm.Module}

/-! ## Loading a module -/

/-- What loading comes to: the kept module of the content id, or one compiled now and kept. -/
theorem run_load (guest : String) (w : World) : (load guest).run w =
    match resolve w.shelf guest with
    | .error e => (.error e, w)
    | .ok id =>
      match w.modules.find? id with
      | some m => (.ok m, w)
      | none =>
        match compile w.shelf guest id with
        | .error e => (.error e, w)
        | .ok m => (.ok m, { w with modules := w.modules.insert id m }) := by
  unfold load
  simp only [run_bind, run_get, run_ofExcept]
  cases resolve w.shelf guest with
  | error e => rfl
  | ok id =>
    dsimp only
    cases w.modules.find? id with
    | some m => rfl
    | none =>
      simp only [run_bind, run_get, run_ofExcept]
      cases compile w.shelf guest id <;> rfl

/-- A kept module is loaded, and nothing changes. -/
theorem run_load_of_kept (resolved : resolve w.shelf guest = .ok id)
    (kept : w.modules.find? id = some m) : (load guest).run w = (.ok m, w) := by
  rw [run_load, resolved]
  dsimp only
  rw [kept]

/-- What a guest is loaded as depends on the store and on the modules kept. -/
theorem load_congr {w w' : World} (shelf : w'.shelf = w.shelf) (modules : w'.modules = w.modules)
    (guest : String) : ((load guest).run w').1 = ((load guest).run w).1 := by
  rw [run_load, run_load, shelf, modules]
  split
  · rfl
  · split
    · rfl
    · split <;> rfl

/-- Without the modules kept, loading is compiling what the alias stands for. -/
theorem run_load_uncached (guest : String) (w : World) :
    ((load guest).run w.uncached).1 = (resolve w.shelf guest).bind (compile w.shelf guest) := by
  have shelf : w.uncached.shelf = w.shelf := rfl
  have none : ∀ id, w.uncached.modules.find? id = none := fun _ => rfl
  simp only [run_load, shelf, none]
  cases resolve w.shelf guest with
  | error e => rfl
  | ok id =>
    dsimp only [Except.bind]
    cases compile w.shelf guest id <;> rfl

/-- What is compiled is recorded as a guest at that moment. -/
theorem compiles_of_compile {shelf : Shelf} (compiled : compile shelf guest id = .ok m) :
    shelf.Compiles id m := by
  unfold compile at compiled
  split at compiled
  · cases compiled
  · rename_i abstract known
    split at compiled
    · cases compiled
    · rename_i recorded
      split at compiled
      · cases compiled
      · rename_i bytes read
        split at compiled
        · rename_i module read_back
          obtain rfl := Except.ok.inj compiled
          exact ⟨abstract, bytes, known, Decidable.not_not.mp recorded, read, read_back⟩
        · cases compiled

/-- What is compiled comes from a known blob. -/
theorem compile_spec {shelf : Shelf} (h : compile shelf guest id = .ok m) :
    shelf.value? (.abstract id) ≠ none ∧
      ∃ b, shelf.value? (.bytes id) = some b ∧ Wasm.Module.ofBytes? b = some m := by
  obtain ⟨abstract, bytes, known, -, read, compiled⟩ := compiles_of_compile h
  exact ⟨Blob.value?_of_abstractOf known, bytes, Blob.value?_of_bytesOf read, compiled⟩

/-- A stored module compiles exactly if its blob has the content type of guests. -/
theorem compile_eq_ok_iff (guest : String) {shelf : Shelf} {b : Bytes}
    (faultless : shelf.faults = []) (stored : shelf.value? (.bytes id) = some b)
    (compiled : Wasm.Module.ofBytes? b = some m) :
    compile shelf guest id = .ok m ↔
      ∃ abstract, Blob.abstractOf shelf id = .ok abstract ∧
        abstract.contentType = contentType := by
  have read : Blob.bytesOf shelf id = .ok b := by
    rw [Blob.bytesOf_of_faultless faultless, stored]
  unfold compile
  cases Blob.abstractOf shelf id with
  | error e => simp
  | ok abstract =>
    by_cases htype : abstract.contentType = contentType
    · simp [htype, read, compiled]
    · simp [htype]

end Loading

/-! ## Justified worlds -/

namespace World.Justified

variable {w : World}

theorem note (hw : w.Justified) (event : Event) : (w.note event).Justified :=
  ⟨hw.faultless, hw.known, hw.compiled⟩

/-- A module compiled from the store may be kept. -/
theorem keep (hw : w.Justified) {guest : String} {id : ContentId} {m : Wasm.Module}
    (h : Loading.compile w.shelf guest id = .ok m) :
    { w with modules := w.modules.insert id m }.Justified := by
  have spec := Loading.compile_spec h
  refine ⟨hw.faultless, fun other n kept => ?_, fun other n kept => ?_⟩ <;>
    rw [Table.find?_insert] at kept <;> split at kept
  · rename_i same
    exact same ▸ spec.1
  · exact hw.known other n kept
  · rename_i same
    obtain rfl := Option.some.inj kept
    exact same ▸ spec.2
  · exact hw.compiled other n kept

/-- Loading leaves a justified world justified. -/
theorem load (guest : String) : Obeys Justified (Loading.load guest) fun _ => True := by
  refine fun w hw => ⟨?_, fun _ _ => trivial⟩
  rw [Loading.run_load]
  split
  · exact hw
  · split
    · exact hw
    · split
      · exact hw
      · exact hw.keep ‹_›

/-- Preparing a sandbox leaves a justified world justified. -/
theorem prepare (hw : w.Justified) (platform : Platform) (context : Context) :
    ((Sandbox.prepare platform context).run w).2.Justified :=
  (Sandbox.obeys_prepare (fun _ event h => h.note event) load platform context w hw).1

/-- An operation on the store does, since a blob that is known keeps its bytes. -/
theorem store (hw : w.Justified) {operation : Operation} {answer : Answer} {shelf : Shelf}
    (effect : Effect w.shelf operation (answer, shelf)) : { w with shelf := shelf }.Justified := by
  refine ⟨effect.faults_eq.trans hw.faultless, fun id m h => ?_, fun id m h => ?_⟩
  · exact (effect.known_kept (hw.known id m h)).1
  · obtain ⟨b, stored, compiled⟩ := hw.compiled id m h
    exact ⟨b, (effect.known_kept (hw.known id m h)).2.trans stored, compiled⟩

end World.Justified

/-! ## Histories of a host -/

/-- What may be done to a host between two loads. -/
inductive Change where
  | provide (module : String) (provider : Provider)
  | registerGuest (guest : String) (code : Bytes)
  | register (contentType : String) (bytes : Bytes)
  | registerNamed (name contentType : String) (bytes : Bytes)
  | prepare (context : Context)

namespace Host

variable {h : Host}

/-- A host changed, whether the change succeeds or fails. -/
def change (h : Host) : Change → Host
  | .provide module provider => h.registerProvider module provider
  | .registerGuest guest code => (h.registerGuest guest code).2
  | .register contentType bytes => (h.store (Blob.register contentType bytes)).2
  | .registerNamed name contentType bytes =>
    (h.store (Blob.registerNamed name contentType bytes)).2
  | .prepare context => (h.prepare context).2

/-- A host after changes. -/
def changed (h : Host) (changes : List Change) : Host := changes.foldl change h

theorem world_registerGuest (h : Host) (guest : String) (code : Bytes) :
    (h.registerGuest guest code).2.world =
      (h.world.store (Blob.registerNamed guest Loading.contentType code)).2 := by
  simp only [registerGuest, Host.store]
  cases (h.world.store (Blob.registerNamed guest Loading.contentType code)).1 <;> rfl

/-- No change makes what a host keeps unjustified. -/
theorem justified_change (hw : h.world.Justified) (c : Change) :
    (h.change c).world.Justified := by
  cases c with
  | provide module provider => exact hw
  | registerGuest guest code =>
    have effect := Operation.effect (.registerNamed guest Loading.contentType code) h.world.shelf
    simp only [change, world_registerGuest]
    exact hw.store effect
  | register contentType bytes =>
    exact hw.store (Operation.effect (.register contentType bytes) h.world.shelf)
  | registerNamed name contentType bytes =>
    exact hw.store (Operation.effect (.registerNamed name contentType bytes) h.world.shelf)
  | prepare context => exact hw.prepare h.platform context

theorem justified_fresh (web : Web) (clock : Nat) : (World.fresh web clock).Justified :=
  ⟨rfl, fun _ _ h => (nomatch h), fun _ _ h => (nomatch h)⟩

/-- **Whatever is done to a new host, what it keeps compiled is justified.** -/
theorem justified_changed (config : Config) (web : Web) (clock : Nat) (changes : List Change) :
    ((new config web clock).changed changes).world.Justified := by
  induction changes using List.reverseRecOn with
  | nil => exact justified_fresh web clock
  | append_singleton changes c ih =>
    rw [changed, List.foldl_append]
    exact justified_change ih c

end Host

/-! ## The modules kept and the store -/

/-- **Loading comes to the same without the modules kept** exactly if the module kept for the
guest, where there is one, is of a blob that still has the content type of guests. -/
theorem World.Justified.load_eq_iff {w : World} (hw : w.Justified) (guest : String) :
    ((Loading.load guest).run w).1 = ((Loading.load guest).run w.uncached).1 ↔
      ∀ id m, Loading.resolve w.shelf guest = .ok id → w.modules.find? id = some m →
        ∃ abstract, Blob.abstractOf w.shelf id = .ok abstract ∧
          abstract.contentType = Loading.contentType := by
  rw [Loading.run_load, Loading.run_load_uncached]
  cases Loading.resolve w.shelf guest with
  | error e => simp [Except.bind]
  | ok id =>
    -- the condition is about the one content id that the alias stands for
    have focus : (∀ other m, (.ok id : Except Failure ContentId) = .ok other →
        w.modules.find? other = some m → ∃ abstract, Blob.abstractOf w.shelf other = .ok abstract ∧
          abstract.contentType = Loading.contentType) ↔
        ∀ m, w.modules.find? id = some m → ∃ abstract, Blob.abstractOf w.shelf id = .ok abstract ∧
          abstract.contentType = Loading.contentType := by
      constructor
      · exact fun h m => h id m rfl
      · rintro h other m ⟨⟩
        exact h m
    rw [focus]
    dsimp only [Except.bind]
    cases kept : w.modules.find? id with
    | none => cases Loading.compile w.shelf guest id <;> simp
    | some m =>
      -- both sides say that compiling now would yield the module kept
      obtain ⟨b, stored, compiled⟩ := hw.compiled id m kept
      have typed := Loading.compile_eq_ok_iff guest hw.faultless stored compiled
      simp only [Option.some.injEq, forall_eq', ← typed]
      cases Loading.compile w.shelf guest id <;> simp [eq_comm]

/-- What is loaded is the compilation of the bytes stored under the content id of the alias. -/
theorem World.Justified.load_ok {w : World} (hw : w.Justified) {guest : String} {m : Wasm.Module}
    (h : ((Loading.load guest).run w).1 = .ok m) :
    ∃ id b, Loading.resolve w.shelf guest = .ok id ∧ Blob.bytesOf w.shelf id = .ok b ∧
      Wasm.Module.ofBytes? b = some m := by
  have of_stored {id : ContentId} (spec : ∃ b, w.shelf.value? (.bytes id) = some b ∧
      Wasm.Module.ofBytes? b = some m) :
      ∃ b, Blob.bytesOf w.shelf id = .ok b ∧ Wasm.Module.ofBytes? b = some m := by
    obtain ⟨b, stored, compiled⟩ := spec
    exact ⟨b, by rw [Blob.bytesOf_of_faultless hw.faultless, stored], compiled⟩
  rw [Loading.run_load] at h
  cases resolved : Loading.resolve w.shelf guest with
  | error e => simp [resolved] at h
  | ok id =>
    refine ⟨id, ?_⟩
    simp only [resolved] at h
    cases kept : w.modules.find? id with
    | some n =>
      rw [kept] at h
      obtain rfl := Except.ok.inj h
      obtain ⟨b, hb⟩ := of_stored (hw.compiled id n kept)
      exact ⟨b, rfl, hb⟩
    | none =>
      cases compiled : Loading.compile w.shelf guest id with
      | error e => simp [kept, compiled] at h
      | ok n =>
        simp only [kept, compiled] at h
        obtain rfl := Except.ok.inj h
        obtain ⟨b, hb⟩ := of_stored (Loading.compile_spec compiled).2
        exact ⟨b, rfl, hb⟩

/-- **The modules kept are transparent but for content types.** Whatever has been done to a new
host, loading a guest yields the compilation of the bytes stored under its content id, and comes
to the same with and without the modules kept exactly if no module is kept under that content id
or the blob still has the content type of guests. -/
theorem load_eq_uncached_iff (config : Config) (web : Web) (clock : Nat) (changes : List Change)
    (guest : String) :
    let w := ((Host.new config web clock).changed changes).world
    (((Loading.load guest).run w).1 = ((Loading.load guest).run w.uncached).1 ↔
      ∀ id m, Loading.resolve w.shelf guest = .ok id → w.modules.find? id = some m →
        ∃ abstract, Blob.abstractOf w.shelf id = .ok abstract ∧
          abstract.contentType = Loading.contentType) ∧
      ∀ m, ((Loading.load guest).run w).1 = .ok m →
        ∃ id b, Loading.resolve w.shelf guest = .ok id ∧ Blob.bytesOf w.shelf id = .ok b ∧
          Wasm.Module.ofBytes? b = some m := by
  have hw := Host.justified_changed config web clock changes
  exact ⟨hw.load_eq_iff guest, fun m => hw.load_ok⟩

/-- A guest that was kept before its blob was retyped is loaded, and would not be otherwise. -/
example :
    let h := (Host.new .default .offline 0).changed
      [.registerGuest "g" Wasm.emptyBinary, .prepare (.top "g" "run"),
        .register "text/plain" Wasm.emptyBinary]
    ((Loading.load "g").run h.world).1.isOk = true ∧
      ((Loading.load "g").run h.world.uncached).1.isOk = false := by
  decide +kernel

end GuestHost
