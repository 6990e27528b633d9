import GuestHost.Proofs.HostCalls.Bound
import GuestHost.Proofs.Linking.Offered
import GuestHost.Proofs.Reentry.Calls
import GuestHost.Proofs.Sandbox.Calls
/-!
# What host calls leave

A host function leaves the registry that what stands behind it leaves, `HostFunction.registry_call`,
and a function that asks for a nested invocation leaves the world that the invocation ends in, but
for the buffers of a link, `Backing.world_of_request`. What the functions that every host offers do
to the world is known: they keep all that notes, accesses to the store and operations on buffers
keep, and all but a few make no buffers and free none, `Platform.offers_keeps`.
-/

namespace GuestHost

open Stateful

variable {I : World → Prop}

/-! ## What is left of the registry -/

/-- Beside what stands behind it, a host function takes notes only. -/
theorem HostFunction.registry_call (f : HostFunction) (invoke : Invoke) (site : Site) :
    ((f.call invoke).run site).2.world.registry =
      ((f.backing.run invoke).run site).2.world.registry := by
  have value : ((f.value invoke).run site).2.world.registry =
      ((f.backing.run invoke).run site).2.world.registry := by
    unfold value
    rw [run_tryCatch]
    cases come : ((f.backing.run invoke).run site).1 with
    | ok word => rfl
    | error e => cases e <;> rfl
  rw [← value]
  cases come : ((f.value invoke).run site).1 with
  | error e =>
    unfold call
    rw [run_bind, come]
  | ok word =>
    -- the note of a traced call changes the world, but not its registry
    rw [(f.run_call_of_value come).2]
    split <;> rfl

namespace Backing

variable {backing : Backing} {site : Site} {invoke : Invoke} {r : Request}

/-- A link or a call by name leaves what its caller makes of the world that the invocation ends
in. -/
theorem world_of_request (asked : backing.request? site = some r) :
    ((backing.run invoke).run site).2.world =
      r.via.after r.context ((invoke r.context).run r.world).2 := by
  cases backing with
  | handler handler =>
    cases handler with
    | native call => cases asked
    | callFunction =>
      obtain ⟨-, via, -⟩ := Nesting.request?_eq_some asked
      rw [via]
      exact (Nesting.after_byName invoke asked).1
  | guest guest entry =>
    obtain ⟨-, via, -⟩ := Nesting.request?_eq_some asked
    rw [via]
    exact (Nesting.after_link invoke asked).1

/-- Without a request a link or a call by name changes nothing. -/
theorem run_of_unasked (unasked : backing.request? site = none)
    (asks : ∀ call, backing ≠ .handler (.native call)) :
    ((backing.run invoke).run site).2 = site := by
  cases backing with
  | handler handler =>
    cases handler with
    | native call => exact absurd rfl (asks call)
    | callFunction =>
      simp only [run, Nesting.byName, run_bind]
      rw [request?, Nesting.run_namedContext] at unasked
      rw [Nesting.run_namedContext]
      cases come : (Nesting.namedContext.run site).1 with
      | error e => rfl
      | ok context =>
        rw [come] at unasked
        cases unasked
  | guest guest entry =>
    simp only [run, Nesting.link, run_bind]
    rw [request?, Nesting.run_linkContext_eq] at unasked
    rw [Nesting.run_linkContext_eq]
    cases come : (Call.words.run site).1 with
    | error e => rfl
    | ok arguments =>
      rw [come] at unasked
      cases unasked

end Backing

/-! ## What functions keep -/

/-- A function behind which there is a host call that keeps an invariant, if there is one. -/
def HostFunction.Keeps (I : World → Prop) (f : HostFunction) : Prop :=
  ∀ call, f.backing = .handler (.native call) → ∀ site, I site.world → I (call.run site).2.world

theorem HostFunction.keeps_of_native {f : HostFunction} {call : Call UInt32}
    (native : f.backing = .handler (.native call))
    (keeps : ∀ site, I site.world → I (call.run site).2.world) : f.Keeps I := by
  intro other same
  cases native.symm.trans same
  exact keeps

/-- A stub takes a note. -/
theorem HostFunction.keeps_stub (hI : World.Steady I) {f : HostFunction}
    (stub : f.backing = .handler (.stub f.module f.name)) : f.Keeps I :=
  keeps_of_native stub fun site hsite => hI.note site.world _ hsite

theorem Posix.Syscall.world_exit (site : Site) : (exit.run site).2.world = site.world := by
  have obeys : Obeys (fun s : Site => s.world = site.world) exit fun _ => True :=
    Obeys.bind (Nesting.obeys_signed 0) fun _ _ =>
      Obeys.bind (P := fun _ => True) (Obeys.bind Obeys.get fun _ _ => Obeys.pure trivial)
        fun _ _ => Obeys.bind (Obeys.update fun _ hs => hs) fun _ _ => Obeys.throw _
  exact (obeys site rfl).1

/-- **What the functions of a host with nothing but the core functions keep**: all that is steady,
and what those that make buffers or free them keep has to be roomy as well. -/
theorem Platform.offers_keeps (hI : World.Steady I) (config : Config) :
    (standard config).Offers fun f => (f.name ∈ Core.buffering → World.Roomy I) → f.Keeps I := by
  refine ⟨fun module provider found => ?_, fun _ _ _ _ _ _ _ _ _ linked => (nomatch linked),
    fun names => ?_, fun names => ?_⟩
  · rw [provider_of_standard found]
    refine Core.offers_typed.mono fun module name type result handler offered roomy => ?_
    rcases offered with ⟨call, hcall, typed⟩ | typed
    · have tame := Core.tame_calls hI call hcall fun listed => roomy (typed.name_eq ▸ listed)
      exact HostFunction.keeps_of_native typed.backing_eq fun site hsite => (tame site hsite).2.1
    · exact fun call native => nomatch typed.backing_eq.symm.trans native
  · refine (Posix.offers_typed names).mono fun module name type result handler offered _ => ?_
    rcases offered with ⟨call, hcall, typed⟩ | typed | ⟨stub, -⟩
    · have tame := Posix.Syscall.tame_calls hI call hcall
      refine HostFunction.keeps_of_native typed.backing_eq fun site hsite => ?_
      rw [Posix.Syscall.site_answered]
      exact (tame site hsite).2.1
    · refine HostFunction.keeps_of_native typed.backing_eq fun site hsite => ?_
      rw [Posix.Syscall.world_exit]
      exact hsite
    · exact HostFunction.keeps_stub hI stub
  · refine (Managed.offers_typed names).mono fun module name type result handler offered _ => ?_
    rcases offered with typed | typed | ⟨stub, -⟩
    · exact HostFunction.keeps_of_native typed.backing_eq fun site hsite => hsite
    · exact HostFunction.keeps_of_native typed.backing_eq fun site hsite =>
        (Managed.tame_write hI.calm site hsite).2.1
    · exact HostFunction.keeps_stub hI stub

end GuestHost
