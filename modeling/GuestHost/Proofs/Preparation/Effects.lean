import GuestHost.Proofs.Loading.Cache
/-!
# What preparing leaves alone

Preparing a sandbox looks at the registry and at the store and changes neither, however it ends. All
that it leaves is what loading compiled and what was noted on the way, `World.Readied`: it is a
relation between the world before and the one after, which loading preserves and so does a note, and
`Host.prepare_effects` follows as preparing does nothing else.
-/

namespace GuestHost

open Store Stateful

/-- What readying guests may make of a world. -/
structure World.Readied (w w' : World) : Prop where
  registry_eq : w'.registry = w.registry
  shelf_eq : w'.shelf = w.shelf
  web_eq : w'.web = w.web
  clock_eq : w'.clock = w.clock
  /-- What has been noted stays noted. -/
  noted : w.log.toList <+: w'.log.toList
  /-- The modules kept are kept. -/
  kept : ∀ id m, w.modules.find? id = some m → w'.modules.find? id = some m
  /-- The other modules are compiled from blobs that are recorded as guests. -/
  compiled : ∀ id m, w'.modules.find? id = some m →
    w.modules.find? id = some m ∨ w.shelf.Compiles id m

namespace World.Readied

variable {w w' : World}

theorem refl (w : World) : w.Readied w :=
  ⟨rfl, rfl, rfl, rfl, List.prefix_rfl, fun _ _ kept => kept, fun _ _ kept => .inl kept⟩

theorem note (readied : w.Readied w') (event : Event) : w.Readied (w'.note event) where
  registry_eq := readied.registry_eq
  shelf_eq := readied.shelf_eq
  web_eq := readied.web_eq
  clock_eq := readied.clock_eq
  noted := by
    rw [World.note, Array.toList_push]
    exact readied.noted.trans (List.prefix_append _ _)
  kept := readied.kept
  compiled := readied.compiled

/-- A module that is not kept yet may be kept once it is compiled. -/
theorem keep (readied : w.Readied w') {guest : String} {id : ContentId} {m : Wasm.Module}
    (new : w'.modules.find? id = none) (compiled : Loading.compile w'.shelf guest id = .ok m) :
    w.Readied { w' with modules := w'.modules.insert id m } where
  registry_eq := readied.registry_eq
  shelf_eq := readied.shelf_eq
  web_eq := readied.web_eq
  clock_eq := readied.clock_eq
  noted := readied.noted
  kept other n kept := by
    have later := readied.kept other n kept
    have others : other ≠ id := by
      rintro rfl
      rw [new] at later
      cases later
    rw [Table.find?_insert, if_neg others, later]
  compiled other n kept := by
    rw [Table.find?_insert] at kept
    split at kept
    · rename_i same
      obtain rfl := Option.some.inj kept
      exact .inr (same ▸ readied.shelf_eq ▸ Loading.compiles_of_compile compiled)
    · exact readied.compiled other n kept

/-- **Loading** compiles and keeps what it compiles. -/
theorem load (w : World) (guest : String) :
    Obeys w.Readied (Loading.load guest) fun _ => True := by
  refine fun w' readied => ⟨?_, fun _ _ => trivial⟩
  rw [Loading.run_load]
  split
  · exact readied
  · split
    · exact readied
    · split
      · exact readied
      · exact readied.keep ‹_› ‹_›

end World.Readied

/-- **Preparing has no effects.** On any host, with or without faults in its store, for any context
and whether it succeeds or fails, preparing a sandbox leaves the registry with all its buffers and
counts, the store, the web and the clock as they are, and the sandbox has the context that was asked
for. Modules that are kept stay kept, and those that come to be kept are compiled from blobs that
are recorded as guests. -/
theorem Host.prepare_effects (h : Host) (context : Context) :
    (h.prepare context).2.platform = h.platform ∧
      h.world.Readied (h.prepare context).2.world ∧
      ∀ s, (h.prepare context).1 = .ok s → s.context = context := by
  obtain ⟨readied, prepared⟩ := Sandbox.obeys_prepare (fun _ event readied => readied.note event)
    (World.Readied.load h.world) h.platform context h.world (.refl h.world)
  exact ⟨rfl, readied, fun s ready => (prepared s ready).context_eq⟩

/-- A guest that imports a core function and a function of another guest. -/
def importer : String :=
  "(module (import \"core\" \"get_status\" (func (result i32)))" ++
    " (import \"idler\" \"run\" (func)) (func (export \"run\")))"

/-- A host of this guest and the one that it imports from. -/
@[irreducible]
def importingHost : Host :=
  let idler := "(module (func (export \"run\")))"
  let h := ((Host.new .default .offline 0).registerGuest "idler" (Utf8.encode idler)).2
  (h.registerGuest "importer" (Utf8.encode importer)).2

/-- Preparing the guest for the first time settles both imports, keeps the modules of the two guests
and changes nothing else. -/
theorem Host.prepare_effects_importer :
    importingHost.cachedModules = 0 ∧
      (importingHost.prepare (.top "importer" "run")).2.cachedModules = 2 ∧
      importingHost.world.Readied (importingHost.prepare (.top "importer" "run")).2.world ∧
      ∃ s, (importingHost.prepare (.top "importer" "run")).1 = .ok s ∧
        s.linker.length = 2 ∧ s.context = .top "importer" "run" := by
  obtain ⟨-, readied, prepared⟩ := Host.prepare_effects importingHost (.top "importer" "run")
  have kept : (importingHost.prepare (.top "importer" "run")).1.toOption.any
        (fun s => s.linker.length == 2) ∧
      (importingHost.prepare (.top "importer" "run")).2.cachedModules = 2 := by
    decide +kernel
  obtain ⟨s, ready, both⟩ := ok_of_toOption_any kept.1
  exact ⟨by decide +kernel, kept.2, readied, s, ready, beq_iff_eq.mp both, prepared s ready⟩

end GuestHost
