import GuestHost.Proofs.Invocation.Buffers
import GuestHost.Proofs.Linking.Signatures
import GuestHost.Proofs.Preparation.Effects
import GuestHost.Proofs.Sandbox.Endings
/-!
# Invocations that fail before the entry is called

A failure that is neither a trap nor a missing implementation comes from preparing a sandbox or from
the check of the entry's type. Preparing runs no code of the guest. The check comes behind the start
function, which may have called the host by then: the host calls of such an invocation are just
those of the start function, and it leaves everything as it was exactly if there are none,
`Host.setup_failure_clean_iff`.
-/

namespace GuestHost

open Stateful

/-- A failure that an invocation meets before its entry is called. -/
def Failure.Setup : Failure → Prop
  | .trap _ _ _ => False
  | .unimplemented _ _ => False
  | _ => True

instance (e : Failure) : Decidable e.Setup := by
  unfold Failure.Setup
  split <;> infer_instance

namespace Sandbox

variable {invoke : Invoke} {limit : Option Nat} {s : Sandbox} {world : World} {e : Failure}

/-- A run fails so only if its entry is refused. -/
theorem refuses_of_setup (failed : ((s.run invoke limit).run world).1 = .error e)
    (setup : e.Setup) : s.Refuses invoke limit world e := by
  rcases run_error_cases failed with refused | ⟨fault, -, ended⟩
  · exact refused
  · rcases eq_trap_of_ended ended with ⟨module, name, rfl⟩ | ⟨cause, rfl⟩ <;> exact setup.elim

/-- An entry that is refused calls nothing. -/
theorem calls_of_refuses (refused : s.Refuses invoke limit world e) :
    s.calls invoke limit world =
      s.callsStart invoke (limit.getD unlimited) (s.surroundings world) := by
  obtain ⟨rest, after, instantiated, entered⟩ := refused
  unfold calls callsEntry
  rw [instantiated]
  dsimp only
  rw [entered]
  exact List.append_nil _

/-- An entry is refused for its type. -/
theorem refusal_of_entry {memory : Memory} {type : Wasm.FuncType}
    (refused : s.entry memory = .error e)
    (exported : s.program.exportedType? s.context.entry = some type) :
    refusal? s.context type = some e := by
  obtain ⟨index, there, -⟩ := Option.bind_eq_some_iff.mp exported
  unfold entry at refused
  rw [exported, there] at refused
  dsimp only at refused
  split at refused
  · rw [← Except.error.inj refused]
    assumption
  · cases refused

/-- Without a start function nothing is called before the entry. -/
theorem start_of_callsStart {fuel : Nat} {around : Surroundings}
    (called : s.callsStart invoke fuel around ≠ []) : s.program.start.isSome := by
  unfold callsStart at called
  split at called
  · rename_i starts
    rw [starts]
    rfl
  · exact absurd rfl called

end Sandbox

namespace Activation

variable {platform : Platform} {a : Activation} {e : Failure} {s : Sandbox} {w : World}

/-- The host calls that an activation makes before its entry can be called. -/
def startCalls (platform : Platform) (a : Activation) : List HostCall :=
  match a.sandbox? platform with
  | some (s, w) =>
    s.callsStart (Invocation.invoke platform (a.levels - 1))
      (platform.config.fuel.getD Sandbox.unlimited) (s.surroundings w)
  | none => []

/-- What an activation leaves of the world. -/
def left (platform : Platform) (a : Activation) : World :=
  ((Invocation.invoke platform a.levels a.context).run a.world).2

/-- An activation that has no sandbox calls nothing, and one that has comes to what its run comes
to. -/
theorem run_cases (platform : Platform) (a : Activation) :
    (a.sandbox? platform = none ∧ a.world.Readied (a.left platform)) ∨
      ∃ s w, a.sandbox? platform = some (s, w) ∧ a.world.Readied w ∧
        ((Sandbox.prepare platform a.context).run a.world).1 = .ok s ∧
        (Invocation.invoke platform a.levels a.context).run a.world =
          (s.run (Invocation.invoke platform (a.levels - 1)) platform.config.fuel).run w := by
  obtain ⟨levels, context, world⟩ := a
  cases levels with
  | zero => exact .inl ⟨rfl, .refl world⟩
  | succ levels =>
    have readied := ((Host.mk platform world).prepare_effects context).2.1
    unfold sandbox? left
    simp only [Invocation.invoke, run_bind, Nat.add_sub_cancel]
    revert readied
    show World.Readied world ((Sandbox.prepare platform context).run world).2 → _
    cases (Sandbox.prepare platform context).run world with
    | mk outcome w =>
      cases outcome with
      | error e => exact fun readied => .inl ⟨rfl, readied⟩
      | ok s => exact fun readied => .inr ⟨s, w, rfl, readied, rfl, rfl⟩

/-- **An activation that fails so calls what its start function calls**, and nothing else. -/
theorem calls_eq_startCalls (failed : a.outcome platform = .error e) (setup : e.Setup) :
    a.calls platform = a.startCalls platform ∧
      ∀ s w, a.sandbox? platform = some (s, w) →
        s.Refuses (Invocation.invoke platform (a.levels - 1)) platform.config.fuel w e := by
  rcases a.run_cases platform with ⟨none, -⟩ | ⟨s, w, some, -, -, run⟩
  · unfold calls startCalls
    rw [none]
    exact ⟨rfl, fun s w some => nomatch some⟩
  · unfold outcome at failed
    rw [run] at failed
    have refused := Sandbox.refuses_of_setup failed setup
    unfold calls startCalls
    rw [some]
    refine ⟨Sandbox.calls_of_refuses refused, fun s' w' same => ?_⟩
    obtain ⟨rfl, rfl⟩ := Prod.mk.inj (Option.some.inj same)
    exact refused

/-- **An activation that calls nothing** readies guests at most. -/
theorem readied_of_uncalled (uncalled : a.calls platform = []) :
    a.world.Readied (a.left platform) := by
  rcases a.run_cases platform with ⟨-, readied⟩ | ⟨s, w, some, readied, -, run⟩
  · exact readied
  · unfold calls at uncalled
    rw [some] at uncalled
    dsimp only at uncalled
    unfold left
    rw [run]
    refine Sandbox.keeps_run (fun c hc => ?_) readied
    rw [uncalled] at hc
    cases hc

/-- What has been called before an entry was refused was called by a start function, and the entry
is refused for its type, which does not fit the arguments. -/
theorem mismatch_of_started (failed : a.outcome platform = .error e) (setup : e.Setup)
    (started : a.startCalls platform ≠ []) :
    ∃ s w, a.sandbox? platform = some (s, w) ∧ s.program.start.isSome ∧
      ∀ type, s.program.exportedType? a.context.entry = some type →
        Sandbox.refusal? a.context type = some e := by
  obtain ⟨-, refuses⟩ := calls_eq_startCalls failed setup
  rcases a.run_cases platform with ⟨none, -⟩ | ⟨s, w, some, -, prepared, -⟩
  · unfold startCalls at started
    rw [none] at started
    exact absurd rfl started
  · obtain ⟨-, context_eq⟩ := Sandbox.reaches_of_prepare prepared
    obtain ⟨rest, -, -, refused⟩ := refuses s w some
    unfold startCalls at started
    rw [some] at started
    refine ⟨s, w, some, Sandbox.start_of_callsStart started, fun type exported => ?_⟩
    rw [← context_eq] at exported ⊢
    exact Sandbox.refusal_of_entry refused exported

end Activation

/-- **A failure before the entry is called leaves everything as it was exactly if no start function
has called the host.** Whatever the guest, if invoking it fails neither with a trap nor with a
function that is not implemented, its host calls are those of its start function. If there are none,
the registry with all its buffers and the store are as before. If there are some, the guest has a
start function, and the failure is that of its entry, whose type does not fit the arguments. -/
theorem Host.setup_failure_clean_iff (h : Host) (context : Context) {e : Failure}
    (failed : (h.invoke context).1 = .error e) (setup : e.Setup) :
    let a := Activation.root h context
    a.calls h.platform = a.startCalls h.platform ∧
      ((a.calls h.platform = [] ∧
          (h.invoke context).2.world.registry = h.world.registry ∧
          (h.invoke context).2.world.shelf = h.world.shelf) ↔
        a.startCalls h.platform = []) ∧
      (a.startCalls h.platform ≠ [] → ∃ s w, a.sandbox? h.platform = some (s, w) ∧
        s.program.start.isSome ∧
        ∀ type, s.program.exportedType? context.entry = some type →
          Sandbox.refusal? context type = some e) := by
  intro a
  obtain ⟨same, -⟩ := Activation.calls_eq_startCalls (a := a) failed setup
  refine ⟨same, ⟨fun clean => same ▸ clean.1, fun uncalled => ?_⟩,
    Activation.mismatch_of_started (a := a) failed setup⟩
  have readied := Activation.readied_of_uncalled (same.trans uncalled)
  exact ⟨same.trans uncalled, readied.registry_eq, readied.shelf_eq⟩

/-! ## A guest that calls the host before it is refused -/

namespace Host

/-- A guest that makes a buffer when it starts and whose entry takes a word. -/
def starter : String :=
  "(module (import \"core\" \"create_exchange_buffer\" (func $c (result i32)))" ++
    " (func $s call $c drop) (start $s)" ++
    " (func (export \"run\") (param i32) (result i32) i32.const 7))"

/-- A host of this guest. -/
@[irreducible]
def startingHost : Host :=
  ((Host.new .default .offline 0).registerGuest "g" (Utf8.encode starter)).2

/-- The failure that it is told when the guest is invoked without a word. -/
def unfitted : Failure :=
  .signatureMismatch "g" "run" ⟨[], some .i32⟩ (some ⟨[.i32], some .i32⟩)

theorem startingHost_fails :
    (startingHost.invoke (.top "g" "run")).1 = .error unfitted ∧
      (startingHost.invoke (.top "g" "run")).2.world.registry.created = 1 := by
  decide +kernel

/-- The guest is refused for the arguments that it is invoked with, and by then its start function
has made a buffer, which stays. -/
theorem setup_failure_clean_iff_started :
    let a := Activation.root startingHost (.top "g" "run")
    (startingHost.invoke (.top "g" "run")).1 = .error unfitted ∧ unfitted.Setup ∧
      a.calls startingHost.platform = a.startCalls startingHost.platform ∧
      a.startCalls startingHost.platform ≠ [] ∧
      startingHost.world.registry.created = 0 ∧
      (startingHost.invoke (.top "g" "run")).2.world.registry.created = 1 := by
  obtain ⟨failed, created⟩ := startingHost_fails
  have before : startingHost.world.registry.created = 0 := by decide +kernel
  obtain ⟨same, clean, -⟩ :=
    setup_failure_clean_iff startingHost (.top "g" "run") failed (by decide)
  refine ⟨failed, by decide, same, fun uncalled => ?_, before, created⟩
  obtain ⟨-, registry, -⟩ := clean.mpr uncalled
  rw [registry, before] at created
  cases created

end Host

end GuestHost
