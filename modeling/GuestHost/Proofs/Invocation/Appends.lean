import GuestHost.Proofs.HostCalls.Appends
import GuestHost.Proofs.Invocation.Buffers
import GuestHost.Proofs.Sandbox.Processes
/-!
# What all of a host writes to buffers

What a tree of invocations writes at a place are the writes of its host calls in the order in which
they are made, `Invocation.writes`, those of nested guests among them. A `Ledger` is what holds of a
world together with what has been written at a place so far; it holds on behind host calls,
`Ledger.hostCall`, and behind whole trees, `Ledger.invoke`. A `Scene` is a world with any number of
guests in it that run beside one another, and a `Deed` is one thing that one of them, or the host,
does. `appends_kept` reads off all rows of deeds that a memory buffer holds what it held at first
and behind it what has been written since, whoever has written it, by a handle or without one.
-/

namespace GuestHost

open Stateful Exchange

/-! ## What trees of invocations write -/

/-- What a host call writes at a place, given what the invocation that it may ask for writes. -/
def HostCall.writes (place : Place) (nested : Context → World → List Bytes) (c : HostCall) :
    List Bytes :=
  match c.request? with
  | some r => nested r.context r.world
  | none => c.function.writes place c.site

/-- What an invocation with so many levels left writes at a place, with all that comes of it. -/
def Invocation.writes (platform : Platform) (place : Place) : Nat → Context → World → List Bytes
  | 0, _, _ => []
  | levels + 1, context, w =>
    (Activation.calls platform ⟨levels + 1, context, w⟩).flatMap
      (HostCall.writes place (writes platform place levels))

/-- What is served changes the process of its guest as a system call can. -/
theorem Platform.Serves.orderly {config : Config} {f : HostFunction}
    (served : (standard config).Serves f) : f.Orderly :=
  served _ (offers_orderly (aloof_standard config))

/-! ## Ledgers -/

variable {config : Config} {place : Place} {J : List Bytes → World → Prop}

/-- Something that holds of the registry of a world together with what has been written at a place
so far goes on to hold, whatever is done to the registry on a host with nothing but the core
functions. -/
structure Ledger (config : Config) (place : Place) (J : List Bytes → World → Prop) : Prop where
  registry : ∀ {written : List Bytes} {w w' : World}, J written w →
    w'.registry = w.registry → J written w'
  register : ∀ {written : List Bytes} {w : World} (buffer : Buffer),
    J written w → J written (w.register buffer).2
  release : ∀ {written : List Bytes} {w : World} (handle : Nat),
    J written w → J written (w.release handle).2
  usedAt : ∀ {written : List Bytes} {w : World} {α : Type} (target : Place) (u : Usage α),
    J written w → J (written ++ w.writesAt place target u) (w.useAt target u.operation).2
  native : ∀ {f : HostFunction} {call : Call UInt32}, (Platform.standard config).Serves f →
    f.backing = .handler (.native call) → ∀ {written : List Bytes} {site : Site},
      J written site.world → J (written ++ f.writes place site) (call.run site).2.world

/-- **What a memory buffer holds is in the ledger.** -/
theorem ledger_has (config : Config) (place : Place) (content : Bytes) :
    Ledger config place fun written w => w.Has place (content ++ written.flatten) where
  registry h same := by
    obtain ⟨b, held, content⟩ := h
    exact ⟨b, same ▸ held, content⟩
  register buffer h := (World.roomy_has _ _).register _ buffer h
  release handle h := (World.roomy_has _ _).release _ handle h
  usedAt target u h := by
    rw [List.flatten_append, ← List.append_assoc]
    exact h.usedAt target u
  native served native _ _ h := by
    rw [List.flatten_append, ← List.append_assoc]
    exact served _ (Platform.offers_adds config) _ native place _ _ h

/-- What holds of a registry whatever is written holds in a ledger. -/
theorem ledger_of_steady {P : Registry → Prop} (steady : World.Steady fun w => P w.registry)
    (roomy : World.Roomy fun w => P w.registry) (config : Config) (place : Place) :
    Ledger config place fun _ w => P w.registry where
  registry h same := same ▸ h
  register buffer h := roomy.register _ buffer h
  release handle h := roomy.release _ handle h
  usedAt target _ h := steady.useAt _ target _ h
  native served native _ _ h :=
    served _ (Platform.offers_keeps steady config) (fun _ => roomy) _ native _ h

namespace Ledger

variable (ledger : Ledger config place J) {written : List Bytes} {w : World}
include ledger

theorem used {α : Type} (handle : Nat) (u : Usage α) (h : J written w) :
    J (written ++ w.writes place handle u) (w.use handle u.operation).2 := by
  rcases w.use_cases place handle u with ⟨target, same, adds⟩ | ⟨same, nothing⟩
  · rw [same, adds]
    exact ledger.usedAt target u h
  · rw [same, nothing, List.append_nil]
    exact h

/-- **A host call adds what it writes**, if the invocation that it asks for does. A link makes two
buffers before and frees them afterwards. -/
theorem hostCall (invoke : Invoke) (nested : Context → World → List Bytes)
    (adds : ∀ {written : List Bytes} {context : Context} {w : World}, J written w →
      J (written ++ nested context w) ((invoke context).run w).2)
    {c : HostCall} (served : (Platform.standard config).Serves c.function)
    (h : J written c.site.world) :
    J (written ++ c.writes place nested) (c.after invoke).world := by
  unfold HostCall.writes HostCall.after
  refine ledger.registry ?_ (HostFunction.registry_call _ invoke _)
  cases asked : c.request? with
  | none =>
    by_cases native : ∃ call, c.function.backing = .handler (.native call)
    · obtain ⟨call, native⟩ := native
      have behind : c.function.backing.run invoke = call := by rw [native, Backing.run]
      rw [behind]
      exact ledger.native served native h
    · have asks := fun call same => native ⟨call, same⟩
      have nothing : c.function.writes place c.site = [] := by
        unfold HostFunction.writes
        split
        · rename_i call same
          exact absurd same (asks call)
        · rfl
      rw [Backing.run_of_unasked asked asks, nothing, List.append_nil]
      exact h
  | some r =>
    rw [Backing.world_of_request asked]
    cases via : r.via with
    | link =>
      obtain ⟨entry, linked⟩ := (Backing.nestedIn_request asked).2 via
      rw [HostCall.request?, linked] at asked
      obtain ⟨-, -, world⟩ := Backing.request_link asked
      have begun : J written r.world := by
        rw [world]
        exact ledger.registry (ledger.register Nesting.blank (ledger.register Nesting.blank h)) rfl
      exact ledger.release _ (ledger.release _ (adds begun))
    | name =>
      refine adds ?_
      rw [Backing.request_name asked via]
      exact h

/-- **A tree of invocations adds what it writes.** -/
theorem invoke {levels : Nat} {context : Context} (h : J written w) :
    J (written ++ Invocation.writes (.standard config) place levels context w)
      ((Invocation.invoke (.standard config) levels context).run w).2 := by
  -- on the levels left: a host call adds what the guests below it add
  induction levels generalizing written context w with
  | zero =>
    rw [Invocation.writes, List.append_nil]
    exact h
  | succ levels ih =>
    have preparing := (Sandbox.obeys_prepare (I := J written) (fun _ _ h => ledger.registry h rfl)
      (Loading.obeys_load fun _ _ h => ledger.registry h rfl) (.standard config) context w h).1
    rw [Invocation.writes, Invocation.invoke, run_bind]
    cases prepared : (Sandbox.prepare (.standard config) context).run w with
    | mk outcome t =>
      rw [prepared] at preparing
      cases outcome with
      | error e =>
        have nothing : Activation.calls (.standard config) ⟨levels + 1, context, w⟩ = [] := by
          unfold Activation.calls Activation.sandbox?
          rw [prepared]
        rw [nothing, List.flatMap_nil, List.append_nil]
        exact preparing
      | ok s =>
        rw [Activation.calls_eq prepared]
        refine Sandbox.collects_run _ (fun c hc before h => ?_) written preparing
        obtain ⟨around, ⟨index, called⟩, -⟩ := (Sandbox.goes_callEntry _ _ _ _).makes hc
        have served := Sandbox.serves_called (by rw [prepared]) called
        exact ledger.hostCall _ (Invocation.writes _ place levels) ih served h

end Ledger

/-! ## Guests beside one another -/

/-- A world, and the processes of the guests in it. -/
structure Scene where
  world : World
  process : Nat → Posix.Process

/-- What somebody does in a scene: the host uses a buffer through a handle or at its place, it
registers a buffer or releases a handle; a guest is prepared, with a process that has opened nothing
by itself yet, or begins to run, or makes a host call; a guest is invoked and runs to its end; or
something is done that has nothing to do with buffers. -/
inductive Deed (config : Config) : Type 1 where
  | use {α : Type} (handle : Nat) (usage : Usage α)
  | useAt {α : Type} (target : Place) (usage : Usage α)
  | register (buffer : Buffer)
  | release (handle : Nat)
  | prepare (guest : Nat) (process : Posix.Process) (fresh : process.Fresh)
  | start (guest : Nat)
  | call (guest levels : Nat) (f : HostFunction) (served : (Platform.standard config).Serves f)
      (arguments : List Wasm.Value) (memory : Memory) (invocation : Invocation)
  | invoke (levels : Nat) (context : Context)
  | elsewhere (world : World)

namespace Scene

/-- A scene at its beginning. -/
def opening (web : Web) (clock : Nat) : Scene := ⟨.fresh web clock, fun _ => .unbound⟩

/-- What a guest shows to a host call. -/
def site (scene : Scene) (guest : Nat) (arguments : List Wasm.Value) (memory : Memory)
    (invocation : Invocation) : Site :=
  ⟨arguments, memory, invocation, scene.process guest, scene.world⟩

end Scene

namespace Deed

/-- A deed done. -/
def perform (scene : Scene) : Deed config → Scene
  | use handle usage => { scene with world := (scene.world.use handle usage.operation).2 }
  | useAt target usage => { scene with world := (scene.world.useAt target usage.operation).2 }
  | register buffer => { scene with world := (scene.world.register buffer).2 }
  | release handle => { scene with world := (scene.world.release handle).2 }
  | prepare guest process _ =>
    { scene with process := Function.update scene.process guest process }
  | start guest =>
    { scene with process :=
        Function.update scene.process guest (scene.process guest).start }
  | call guest levels f _ arguments memory invocation =>
    let site := HostCall.after (Invocation.invoke (.standard config) levels)
      ⟨f, scene.site guest arguments memory invocation⟩
    ⟨site.world, Function.update scene.process guest site.process⟩
  | invoke levels context =>
    { scene with world :=
        ((Invocation.invoke (.standard config) levels context).run scene.world).2 }
  | elsewhere world => { scene with world := { world with registry := scene.world.registry } }

/-- What a deed writes at a place. -/
def writes (place : Place) (scene : Scene) : Deed config → List Bytes
  | use handle usage => scene.world.writes place handle usage
  | useAt target usage => scene.world.writesAt place target usage
  | call guest levels f _ arguments memory invocation =>
    HostCall.writes place (Invocation.writes (.standard config) place levels)
      ⟨f, scene.site guest arguments memory invocation⟩
  | invoke levels context =>
    Invocation.writes (.standard config) place levels context scene.world
  | register _ | release _ | prepare _ _ _ | start _ | elsewhere _ => []

/-- A deed neither closes a descriptor of a guest, nor opens another file under its number, which
is next again after 2^32 openings, nor gives the guest another process. -/
def Spares (scene : Scene) (guest d : Nat) : Deed config → Prop
  | prepare other _ _ => other ≠ guest
  | call other _ f _ arguments _ _ => other = guest →
      (f.name = "fd_close" → ∀ word, arguments[0]? = some (.i32 word) → word.toNat ≠ d) ∧
        (f.name = "path_open" → (scene.process guest).next ≠ d)
  | _ => True

end Deed

namespace Scene

/-- A scene after deeds. -/
def after (scene : Scene) : List (Deed config) → Scene
  | [] => scene
  | deed :: rest => (deed.perform scene).after rest

/-- What deeds write at a place, in their order. -/
def writes (place : Place) (scene : Scene) : List (Deed config) → List Bytes
  | [] => []
  | deed :: rest => deed.writes place scene ++ (deed.perform scene).writes place rest

/-- Deeds spare a descriptor of a guest, each in the scene that it finds. -/
def Spared (scene : Scene) (guest d : Nat) : List (Deed config) → Prop
  | [] => True
  | deed :: rest => deed.Spares scene guest d ∧ (deed.perform scene).Spared guest d rest

end Scene

namespace Ledger

variable (ledger : Ledger config place J) {written : List Bytes}
include ledger

/-- **A deed adds what it writes.** -/
theorem deed {scene : Scene} (deed : Deed config) (h : J written scene.world) :
    J (written ++ deed.writes place scene) (deed.perform scene).world := by
  have silent {w : World} (h : J written w) : J (written ++ []) w := by rwa [List.append_nil]
  cases deed with
  | use handle usage => exact ledger.used handle usage h
  | useAt target usage => exact ledger.usedAt target usage h
  | call guest levels f served arguments memory invocation =>
    exact ledger.hostCall _ (Invocation.writes _ place levels) ledger.invoke served h
  | invoke levels context => exact ledger.invoke h
  -- the others write nothing, and those that change a process leave the world alone
  | register buffer => exact silent (ledger.register buffer h)
  | release handle => exact silent (ledger.release handle h)
  | prepare guest process fresh => exact silent h
  | start guest => exact silent h
  | elsewhere world => exact silent (ledger.registry h rfl)

/-- **Deeds add what they write, in their order.** -/
theorem deeds (written : List Bytes) {scene : Scene} (deeds : List (Deed config))
    (h : J written scene.world) :
    J (written ++ scene.writes place deeds) (scene.after deeds).world := by
  induction deeds generalizing written scene with
  | nil =>
    rw [Scene.writes, List.append_nil]
    exact h
  | cons first rest ih =>
    rw [Scene.writes, ← List.append_assoc]
    exact ih _ (ledger.deed first h)

end Ledger

namespace Scene

variable {scene : Scene} {handle : Nat} {who : Nat → Prop}

/-- **A memory buffer holds on to its content and what is written behind it.** -/
theorem has_after {content : Bytes} (h : scene.world.Has place content)
    (deeds : List (Deed config)) :
    (scene.after deeds).world.Has place (content ++ (scene.writes place deeds).flatten) := by
  have begun : scene.world.Has place (content ++ ([] : List Bytes).flatten) := h.append_nil
  have added := (ledger_has config place content).deeds [] deeds begun
  rwa [List.nil_append] at added

theorem distinct_after (h : scene.world.registry.Distinct) (deeds : List (Deed config)) :
    (scene.after deeds).world.registry.Distinct :=
  (ledger_of_steady World.steady_distinct World.roomy_distinct config 0).deeds [] deeds h

/-- **No other handles come to stand for a place.** -/
theorem namedBy_after (h : scene.world.registry.NamedBy who place) (deeds : List (Deed config)) :
    (scene.after deeds).world.registry.NamedBy who place :=
  (ledger_of_steady (World.steady_namedBy who place) (World.roomy_namedBy who place) config
    place).deeds [] deeds h

end Scene

/-! ## Descriptors of guests beside one another -/

namespace Scene

/-- A deed that spares a descriptor for an output leaves it open. -/
theorem output_deed {scene : Scene} {guest d : Nat}
    (opened : (scene.process guest).file? d = some (.output place)) {deed : Deed config}
    (spared : deed.Spares scene guest d) :
    ((deed.perform scene).process guest).file? d = some (.output place) := by
  have given {other : Nat} {process : Posix.Process}
      (own : guest = other → process.file? d = some (.output place)) :
      (Function.update scene.process other process guest).file? d = some (.output place) := by
    rw [Function.update_apply]
    split
    · exact own ‹_›
    · exact opened
  cases deed with
  | prepare other process fresh => exact given fun same => absurd same.symm spared
  | start other => exact given fun same => (Posix.Process.file?_start _ d).trans (same ▸ opened)
  | call other levels f served arguments memory invocation =>
    refine given fun same => ?_
    subst same
    obtain ⟨closing, opening⟩ := spared rfl
    refine served.orderly.output _ opened (fun closes passed => ?_) opening
    unfold Posix.Syscall.argument? at passed
    split at passed
    · rename_i word first
      exact closing closes word first (Option.some.inj passed)
    · cases passed
  | _ => exact opened

/-- **A descriptor for an output stays open** as long as it is spared. -/
theorem output_deeds {scene : Scene} {guest d : Nat}
    (opened : (scene.process guest).file? d = some (.output place)) {deeds : List (Deed config)}
    (spared : scene.Spared guest d deeds) :
    ((scene.after deeds).process guest).file? d = some (.output place) := by
  induction deeds generalizing scene with
  | nil => exact opened
  | cons first rest ih => exact ih (output_deed opened spared.1) spared.2

end Scene

/-! ## Appends are kept -/

open Posix in
/-- **Appends are kept, from every path.** On a host with nothing but the core functions, a memory
buffer that is there after some deeds holds, after any others, what it held at first and behind it
the bytes of all that has been written since, in order: by the host through the handle or at the
place, by the core function, by the descriptors of any guests, one write for each vector that a
system call gets through, and by the guests of whole trees of invocations. Reading gives all of it
and changes nothing. A descriptor that stands for the buffer appends to it, and it goes on to stand
for it until it is closed or its number is handed out again, be the handle live or not. While the
handle is live it is the only one of the buffer, and the descriptors of an invocation that has it
for its output stand for the buffer.
Once it is no longer live, as it is not after its release, no handle is ever given out for the
buffer again, and no call through one reaches it. -/
theorem appends_kept (config : Config) (web : Web) (clock : Nat) (before : List (Deed config)) :
    let reached := (Scene.opening web clock).after before
    ∀ place b, reached.world.registry.at? place = some (.memory b) →
      (∀ later : List (Deed config),
        let now := reached.after later
        let content := b.content ++ (reached.writes place later).flatten
        now.world.Has place content ∧
        ((now.world.useAt place Buffer.read).1 = .ok content ∧
          (now.world.useAt place Buffer.read).2.Has place content) ∧
        ∀ (guest : Nat) (d : UInt32),
          (now.process guest).file? d.toNat = some (.output place) →
          (∀ (memory : Memory) (invocation : Invocation) (table count result : UInt32),
            let site :=
              now.site guest [.i32 d, .i32 table, .i32 count, .i32 result] memory invocation
            (Syscall.write.run site).2.world.Has place
              (content ++ (Syscall.gathered memory table.toNat count.toNat 0).flatten)) ∧
          ∀ rest : List (Deed config), now.Spared guest d.toNat rest →
            ((now.after rest).process guest).file? d.toNat = some (.output place)) ∧
      ∀ handle, reached.world.registry.place? handle = some place →
        ∀ during : List (Deed config),
          let since := reached.after during
          (∀ other, since.world.registry.place? other = some place → other = handle) ∧
          (since.world.registry.place? handle = some place → ∀ invocation : Invocation,
            invocation.output = handle →
              (∀ p arguments, (Process.bind p since.world.registry invocation arguments).file? 1 =
                some (.output place)) ∧
              Syscall.fileOf since.world invocation "api://output" = .ok (.output place)) ∧
          ((Deed.release handle : Deed config).perform since).world.registry.place? handle ≠
            some place ∧
          (since.world.registry.place? handle ≠ some place → ∀ later : List (Deed config),
            let now := since.after later
            (∀ other, now.world.registry.place? other ≠ some place) ∧
            ∀ (other : Nat) {α : Type} (operation : Buffer → Except Error α × Buffer),
              (now.world.use other operation).2.registry.at? place =
                now.world.registry.at? place) := by
  intro reached place b held
  have begun : reached.world.Has place b.content := ⟨b, held, rfl⟩
  have distinct : reached.world.registry.Distinct := by
    have first : (Scene.opening web clock).world.registry.Distinct := Registry.distinct_empty
    exact Scene.distinct_after first before
  refine ⟨fun later => ?_, fun handle live during => ?_⟩
  · have has := Scene.has_after begun later
    refine ⟨has, has.read, fun guest d opened => ⟨fun memory invocation table count result => ?_,
      fun rest spared => Scene.output_deeds opened spared⟩⟩
    exact Syscall.has_write_output has rfl opened
  · have named := Scene.namedBy_after (distinct.namedBy live) during
    refine ⟨named.named, fun still invocation output => ?_, ?_, fun gone later => ?_⟩
    · subst output
      exact ⟨fun p arguments => Process.file?_bind_output still p arguments,
        Syscall.fileOf_output still⟩
    · show (Registry.release _ handle).place? handle ≠ some place
      rw [Registry.place?_release, if_pos rfl]
      exact nofun
    · have unnamed := Scene.namedBy_after (named.none_of_ne gone) later
      refine ⟨unnamed.named, fun other α operation => ?_⟩
      rw [World.registry_use]
      exact unnamed.at?_use other operation

/-! ## A guest that writes to its standard output -/

/-- A guest whose entry writes two bytes to its standard output. -/
def appender : String :=
  "(module (import \"wasi_unstable\" \"fd_write\"" ++
    " (func $write (param i32 i32 i32 i32) (result i32)))" ++
    " (memory (export \"memory\") 1)" ++
    " (data (i32.const 0) \"\\08\\00\\00\\00\\02\\00\\00\\00hi\")" ++
    " (func (export \"run\") (result i32)" ++
    " i32.const 1 i32.const 0 i32.const 1 i32.const 12 call $write))"

/-- The guest as it is compiled. -/
def appenderModule : Wasm.Module where
  imports := [⟨"wasi_unstable", "fd_write", .function ⟨[.i32, .i32, .i32, .i32], [.i32]⟩⟩]
  functions := #[
    ⟨⟨[], [.i32]⟩, [], [.const (.i32 1), .const (.i32 0), .const (.i32 1), .const (.i32 12),
      .call 0]⟩]
  exports := [("run", .function 1), ("memory", .memory 0)]
  memories := [1]
  data := [⟨0, [8, 0, 0, 0, 2, 0, 0, 0, 104, 105]⟩]
  start := none

/-- The world of a host that has compiled the guest. -/
@[irreducible]
def appenderWorld : World :=
  let h := ((Host.new .default .offline 0).registerGuest "appender" (Utf8.encode appender)).2
  { h.world with modules := .ofList [(Store.Blob.idOf (Utf8.encode appender), appenderModule)] }

/-- The context of its invocation; its output is the buffer of the first handle. -/
def appenderContext : Context :=
  ((Context.top "appender" "run").withMode .posix).withBuffers 0 1

/-- A buffer with one byte in it, and a guest that has it for its output. -/
def appenderBefore : List (Deed .default) :=
  let w := (World.fresh .offline 0).register (.memory (.ofContent [65]))
  [.register (.memory (.ofContent [65])),
    .prepare 0 (Posix.Process.unbound.bind w.2.registry appenderContext.toInvocation [])
      (Posix.Process.fresh_unbound.bind _ _ _)]

/-- One byte is written through the handle, two by the guest that is invoked, and one after the
handle has been released. -/
def appenderLater : List (Deed .default) :=
  [.elsewhere appenderWorld, .use 1 (.write [98]), .invoke 1 appenderContext, .release 1,
    .useAt 0 (.write [99])]

theorem appender_row :
    let reached := (Scene.opening .offline 0).after appenderBefore
    reached.writes 0 appenderLater = [[98], [104, 105], [99]] ∧
      (reached.after appenderLater).world.registry.place? 1 = none := by
  decide +kernel

/-- All of them are there, no handle names the buffer, and the descriptor of the first guest still
stands for it. -/
theorem appends_kept_appender :
    let now := ((Scene.opening .offline 0).after appenderBefore).after appenderLater
    now.world.Has 0 [65, 98, 104, 105, 99] ∧
      (∀ other, now.world.registry.place? other ≠ some 0) ∧
      (now.process 0).file? 1 = some (.output 0) := by
  obtain ⟨written, gone⟩ := appender_row
  obtain ⟨appends, named⟩ :=
    appends_kept .default .offline 0 appenderBefore 0 (.ofContent [65]) rfl
  obtain ⟨-, -, descriptors⟩ := appends []
  obtain ⟨-, spared⟩ := descriptors 0 1 rfl
  obtain ⟨-, -, -, unreached⟩ := named 1 rfl appenderLater
  refine ⟨?_, (unreached (by rw [gone]; nofun) []).1, spared appenderLater ?_⟩
  · have has := (appends appenderLater).1
    rw [written] at has
    exact has
  · simp [appenderLater, Scene.Spared, Deed.Spares]

end GuestHost
