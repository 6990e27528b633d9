import GuestHost.Proofs.HostCalls.Outcomes
import GuestHost.Proofs.Reentry.Outermost
/-!
# How runs end

A run ends well if its entry returns or a host call of the guest itself exits, and it says that a
function is not implemented if a host call of the guest said so; the check of the entry has failures
of its own, and everything else is a trap of this very guest: `Sandbox.run_ok_iff`,
`Sandbox.run_unimplemented_iff`, `Sandbox.run_error_cases`. What a nested invocation says of a
function that is not implemented climbs through links, `Activation.unimplemented_of_links`, while
its exit is a word like any other to the guest that called it.
-/

namespace GuestHost

open Stateful

namespace Sandbox

variable {invoke : Invoke} {limit : Option Nat} {s : Sandbox} {world : World} {call : HostCall}
  {e : CallError}

/-! ## Endings -/

/-- The entry of a run is called and returns a number. -/
def Returns (invoke : Invoke) (limit : Option Nat) (s : Sandbox) (world : World) (value : Int32) :
    Prop :=
  ∃ rest after machine last,
    (instantiate invoke s (limit.getD unlimited)).run (s.surroundings world) = (.ok rest, after) ∧
    s.entry rest.memory = .ok machine ∧
    ((drive invoke s rest.fuel machine).run after).1 = .ok last ∧ report last.results = value

/-- The entry of a run is not called, for a failure of the check before it. -/
def Refuses (invoke : Invoke) (limit : Option Nat) (s : Sandbox) (world : World) (e : Failure) :
    Prop :=
  ∃ rest after,
    (instantiate invoke s (limit.getD unlimited)).run (s.surroundings world) = (.ok rest, after) ∧
    s.entry rest.memory = .error e

/-- A host call ends a run with an error: it is the last that the run makes. -/
def EndedBy (invoke : Invoke) (limit : Option Nat) (s : Sandbox) (world : World) (call : HostCall)
    (e : CallError) : Prop :=
  (s.calls invoke limit world).getLast? = some call ∧ call.outcome invoke = .error e

theorem run_callEntry (fuel : Nat) (around : Surroundings) :
    ((callEntry invoke s fuel).run around).1 =
      match (instantiate invoke s fuel).run around with
      | (.error e, _) => .error e
      | (.ok rest, after) =>
        match s.entry rest.memory with
        | .error e => .ok (.error e)
        | .ok machine =>
          match ((drive invoke s rest.fuel machine).run after).1 with
          | .error e => .error e
          | .ok last => .ok (.ok (report last.results)) := by
  unfold callEntry
  simp only [run_bind]
  obtain ⟨outcome, after⟩ := (instantiate invoke s fuel).run around
  cases outcome with
  | error e => rfl
  | ok rest =>
    dsimp only
    cases s.entry rest.memory with
    | error e => rfl
    | ok machine =>
      simp only [run_bind]
      cases ((drive invoke s rest.fuel machine).run after).1 <;> rfl

theorem callEntry_returns_iff {value : Int32} :
    ((callEntry invoke s (limit.getD unlimited)).run (s.surroundings world)).1 =
      .ok (.ok value) ↔ s.Returns invoke limit world value := by
  rw [run_callEntry]
  unfold Returns
  cases instantiated : (instantiate invoke s (limit.getD unlimited)).run (s.surroundings world) with
  | mk outcome after =>
    constructor
    · intro came
      cases outcome with
      | error e => cases came
      | ok rest =>
        dsimp only at came
        cases entered : s.entry rest.memory with
        | error e =>
          rw [entered] at came
          cases came
        | ok machine =>
          rw [entered] at came
          dsimp only at came
          cases driven : ((drive invoke s rest.fuel machine).run after).1 with
          | error e =>
            rw [driven] at came
            cases came
          | ok last =>
            rw [driven] at came
            cases came
            exact ⟨rest, after, machine, last, rfl, entered, driven, rfl⟩
    · rintro ⟨rest, after', machine, last, same, entered, driven, rfl⟩
      cases same
      simp only [entered, driven]

theorem callEntry_refuses_iff {e : Failure} :
    ((callEntry invoke s (limit.getD unlimited)).run (s.surroundings world)).1 =
      .ok (.error e) ↔ s.Refuses invoke limit world e := by
  rw [run_callEntry]
  unfold Refuses
  cases instantiated : (instantiate invoke s (limit.getD unlimited)).run (s.surroundings world) with
  | mk outcome after =>
    constructor
    · intro came
      cases outcome with
      | error e => cases came
      | ok rest =>
        dsimp only at came
        cases entered : s.entry rest.memory with
        | error e' =>
          rw [entered] at came
          cases came
          exact ⟨rest, after, rfl, entered⟩
        | ok machine =>
          rw [entered] at came
          dsimp only at came
          split at came <;> cases came
    · rintro ⟨rest, after', same, entered⟩
      cases same
      simp only [entered]

theorem run_eq : ((s.run invoke limit).run world).1 =
    match ((callEntry invoke s (limit.getD unlimited)).run (s.surroundings world)).1 with
    | .ok (.ok value) => .ok (s.context.returned value)
    | .ok (.error e) => .error e
    | .error e => ended s.context e := by
  rw [run_run]
  obtain ⟨outcome, after⟩ :=
    (callEntry invoke s (limit.getD unlimited)).run (s.surroundings world)
  rcases outcome with e | e | value <;> rfl

/-- A guest is not told of nested invocations when it fails by itself. -/
theorem not_failure_of_faults {cause : Cause} (own : s.Faults cause) (failure : Failure) :
    cause ≠ .failure failure := by
  rintro rfl
  rcases own with unloaded | ⟨trap, never⟩
  · unfold loaded at unloaded
    split at unloaded
    · rename_i fault found
      obtain rfl := Except.error.inj unloaded
      obtain ⟨i, -, misfit⟩ := List.exists_of_findSome?_eq_some found
      unfold misfit? at misfit
      split at misfit
      · cases misfit
      · split at misfit
        · split at misfit <;> cases misfit
        · cases misfit
    · split at unloaded <;> cases unloaded
  · cases never

/-- **An error that is not of the guest's own code ends a run** exactly if a host call does. -/
theorem callEntry_error_iff (foreign : ∀ cause, e = .fatal cause → ¬ s.Faults cause) :
    ((callEntry invoke s (limit.getD unlimited)).run (s.surroundings world)).1 = .error e ↔
      ∃ call, s.EndedBy invoke limit world call e := by
  have goes := goes_callEntry invoke s (limit.getD unlimited) (s.surroundings world)
  rw [goes.error_iff foreign]
  constructor
  · rintro ⟨call, made, failed⟩
    exact ⟨call, goes.getLast?_of_error made failed, failed⟩
  · rintro ⟨call, last, failed⟩
    exact ⟨call, List.mem_of_getLast? last, failed⟩

/-! ## Classification -/

theorem ended_eq_ok_iff {c r : Context} :
    ended c e = .ok r ↔ ∃ code, e = .exit code ∧ r = c.exited code := by
  cases e with
  | exit code => simp [ended, eq_comm]
  | fatal cause =>
    unfold ended
    split <;> simp_all
  | _ => simp [ended]

theorem ended_eq_unimplemented_iff {c : Context} {module name : String} :
    ended c e = .error (.unimplemented module name) ↔
      e = .fatal (.failure (.unimplemented module name)) := by
  unfold ended
  split <;> simp_all

/-- **A run ends well** exactly if its entry returns or a host call of it exits. -/
theorem run_ok_iff (r : Context) : ((s.run invoke limit).run world).1 = .ok r ↔
    (∃ value, s.Returns invoke limit world value ∧ r = s.context.returned value) ∨
      ∃ call code, s.EndedBy invoke limit world call (.exit code) ∧ r = s.context.exited code := by
  have exits (code : Int32) :
      ((callEntry invoke s (limit.getD unlimited)).run (s.surroundings world)).1 =
        .error (.exit code) ↔ ∃ call, s.EndedBy invoke limit world call (.exit code) :=
    callEntry_error_iff fun _ never => nomatch never
  simp only [← callEntry_returns_iff, run_eq]
  constructor
  · intro came
    cases outcome : ((callEntry invoke s (limit.getD unlimited)).run (s.surroundings world)).1 with
    | ok entered =>
      rw [outcome] at came
      cases entered with
      | ok value => exact .inl ⟨value, rfl, (Except.ok.inj came).symm⟩
      | error e => cases came
    | error e =>
      rw [outcome] at came
      obtain ⟨code, rfl, same⟩ := ended_eq_ok_iff.mp came
      obtain ⟨call, ended⟩ := (exits code).mp outcome
      exact .inr ⟨call, code, ended, same⟩
  · rintro (⟨value, returned, rfl⟩ | ⟨call, code, ended, rfl⟩)
    · rw [returned]
    · rw [(exits code).mpr ⟨call, ended⟩]
      rfl

/-- The check of the entry has two failures, which name the guest and the entry. -/
theorem entry_eq_error {memory : Memory} {e : Failure} (refused : s.entry memory = .error e) :
    (∃ expected found, e = .signatureMismatch s.context.guest s.context.entry expected found) ∨
      e = .missingEntry s.context.guest s.context.entry := by
  unfold entry at refused
  split at refused
  · split at refused
    · rename_i fault refusal
      unfold refusal? at refusal
      dsimp only at refusal
      split at refusal
      · cases refusal
      · rw [← Except.error.inj refused, ← Option.some.inj refusal]
        exact .inl ⟨_, _, rfl⟩
    · cases refused
  · exact .inr (Except.error.inj refused).symm

/-- **A refusal is what the run comes to.** -/
theorem run_of_refuses {e : Failure} (refused : s.Refuses invoke limit world e) :
    ((s.run invoke limit).run world).1 = .error e := by
  rw [run_eq, callEntry_refuses_iff.mpr refused]

/-- **A run fails** by a refusal, which comes from the check of the entry, or by an error that ends
it. -/
theorem run_error_cases {e : Failure} (failed : ((s.run invoke limit).run world).1 = .error e) :
    s.Refuses invoke limit world e ∨ ∃ fault,
      ((callEntry invoke s (limit.getD unlimited)).run (s.surroundings world)).1 = .error fault ∧
        ended s.context fault = .error e := by
  rw [run_eq] at failed
  cases outcome : ((callEntry invoke s (limit.getD unlimited)).run (s.surroundings world)).1 with
  | ok entered =>
    rw [outcome] at failed
    cases entered with
    | ok value => cases failed
    | error fault =>
      rw [← Except.error.inj failed]
      exact .inl (callEntry_refuses_iff.mp outcome)
  | error fault =>
    rw [outcome] at failed
    exact .inr ⟨fault, rfl, failed⟩

/-- **A run says that a function is not implemented** exactly if the host call that ended it did. -/
theorem run_unimplemented_iff (module name : String) :
    ((s.run invoke limit).run world).1 = .error (.unimplemented module name) ↔
      ∃ call, s.EndedBy invoke limit world call
        (.fatal (.failure (.unimplemented module name))) := by
  rw [← callEntry_error_iff fun cause same own =>
    not_failure_of_faults own _ (CallError.fatal.inj same).symm]
  constructor
  · intro failed
    rcases run_error_cases failed with ⟨rest, after, -, refused⟩ | ⟨fault, outcome, same⟩
    · rcases entry_eq_error refused with ⟨expected, found, never⟩ | never <;> cases never
    · rw [outcome, ended_eq_unimplemented_iff.mp same]
  · intro outcome
    rw [run_eq, outcome]
    rfl

/-- What is no refusal and does not say that a function is not implemented is a trap of the guest
itself. -/
theorem eq_trap_of_ended {c : Context} {fault : CallError} {e : Failure}
    (h : ended c fault = .error e) :
    (∃ module name, e = .unimplemented module name) ∨ ∃ cause, e = .trap c.guest c.entry cause := by
  unfold ended at h
  split at h
  · cases h
  · exact .inl ⟨_, _, (Except.error.inj h).symm⟩
  · exact .inr ⟨_, (Except.error.inj h).symm⟩
  · exact .inr ⟨_, (Except.error.inj h).symm⟩

end Sandbox

/-! ## Through nested invocations -/

/-- **That a function is not implemented passes through links unchanged**, however many there
are. -/
theorem Activation.unimplemented_of_links {platform : Platform} {a b : Activation}
    {module name : String} (h : Relation.ReflTransGen (Links platform) a b)
    (hb : b.outcome platform = .error (.unimplemented module name)) :
    a.outcome platform = .error (.unimplemented module name) := by
  induction h using Relation.ReflTransGen.head_induction_on with
  | refl => exact hb
  | head link _ ih =>
    obtain ⟨n, hn, via, rfl⟩ := link
    exact (outcome_of_stops hn ih (by rw [via]; trivial)).2

namespace HostCall

variable {call : HostCall} {invoke : Invoke} {r : Request}

/-- A guest that is called through a link is called by a function that hands words over. -/
theorem givesWords_of_link (settled : call.function.Settled) (asked : call.request? = some r)
    (link : r.via = .link) : call.function.GivesWords := by
  obtain ⟨entry, linked⟩ := (Backing.nestedIn_request asked).2 link
  exact settled.link _ entry linked

/-- **A nested invocation that ended well ends no guest that called it**, by whatever it ended: its
number is handed over, and all that can fail is that the guest declares another type for it. -/
theorem value_of_nested (asked : call.request? = some r) {c : Context}
    (well : ((invoke r.context).run r.world).1 = .ok c) :
    ((call.function.value invoke).run call.site).1 = .ok (Nesting.returned c) ∧
      ∀ e, call.outcome invoke = .error e → e.Unfit := by
  have value : ((call.function.value invoke).run call.site).1 = .ok (Nesting.returned c) := by
    rw [call.function.run_value invoke asked, well]
    cases r.via <;> rfl
  refine ⟨value, fun e failed => ?_⟩
  rcases HostFunction.call_error_cases failed with never | unfit
  · rw [value] at never
    cases never
  · exact unfit

end HostCall

namespace Sandbox

/-- **The outcomes of runs are told apart rightly, whatever is nested in them.** On a host whose
providers neither end guests nor say that something is not implemented, a guest that has been
prepared and is run ends well exactly if its entry returns or a host call of its own exits, and says
that a function is not implemented exactly if the host call that ended it did. Otherwise it fails as
the check of its entry does, or it traps, with its own name and entry. Of its host calls only the
system call for it exits. A function is said to be not implemented by its stub or through a link to
a guest whose invocation came to just that, and so it climbs through any number of links; and the
number of a nested invocation that ended well, by an exit or not, is handed over as any other. -/
theorem outcomes_told_apart (h : Host) (candid : h.platform.Candid) (context : Context) (w : World)
    {s : Sandbox} (prepared : ((Host.mk h.platform w).prepare context).1 = .ok s) :
    let invoke := s.invoking h.platform
    let limit := h.platform.config.fuel
    (∀ r, (h.run s).1 = .ok r ↔
      (∃ value, s.Returns invoke limit h.world value ∧ r = s.context.returned value) ∨
        ∃ call code, s.EndedBy invoke limit h.world call (.exit code) ∧
          r = s.context.exited code) ∧
    (∀ module name, (h.run s).1 = .error (.unimplemented module name) ↔
      ∃ call, s.EndedBy invoke limit h.world call
        (.fatal (.failure (.unimplemented module name)))) ∧
    (∀ e, (h.run s).1 = .error e → (∃ module name, e = .unimplemented module name) ∨
      (s.Refuses invoke limit h.world e ∧
        ((∃ expected found,
            e = .signatureMismatch s.context.guest s.context.entry expected found) ∨
          e = .missingEntry s.context.guest s.context.entry)) ∨
      ∃ cause, e = .trap s.context.guest s.context.entry cause) ∧
    (∀ e, s.Refuses invoke limit h.world e → (h.run s).1 = .error e) ∧
    ∀ call ∈ s.calls invoke limit h.world,
      (∀ code, call.outcome invoke = .error (.exit code) →
        call.function.backing = .handler (.native Posix.Syscall.exit)) ∧
      (∀ module name,
        call.outcome invoke = .error (.fatal (.failure (.unimplemented module name))) ↔
        (call.function.backing = .handler (.stub module name) ∧
          call.function.module = module ∧ call.function.name = name) ∨
        ∃ r, call.request? = some r ∧ r.via = .link ∧
          ((invoke r.context).run r.world).1 = .error (.unimplemented module name)) ∧
      ∀ r, call.request? = some r →
        (∀ c, ((invoke r.context).run r.world).1 = .ok c →
          ((call.function.value invoke).run call.site).1 = .ok (Nesting.returned c) ∧
          (r.via = .link → call.outcome invoke =
            .ok (call.function.type.results.map fun _ => .i32 (Nesting.returned c))) ∧
          ∀ e, call.outcome invoke = .error e → e.Unfit) ∧
        (r.via = .link → ∀ (b : Activation) (module name : String),
          Relation.ReflTransGen (Activation.Links h.platform)
            ⟨Invocation.levels h.platform (s.context.depth + 1), r.context, r.world⟩ b →
          b.outcome h.platform = .error (.unimplemented module name) →
          (h.run s).1 = .error (.unimplemented module name)) := by
  intro invoke limit
  have goes := goes_callEntry invoke s (limit.getD unlimited) (s.surroundings h.world)
  refine ⟨fun r => run_ok_iff r, run_unimplemented_iff, fun e failed => ?_,
    fun e refused => run_of_refuses refused, fun call made => ?_⟩
  · rcases run_error_cases failed with refused | ⟨fault, -, same⟩
    · obtain ⟨rest, after, -, entered⟩ := id refused
      exact .inr (.inl ⟨refused, entry_eq_error entered⟩)
    · exact (eq_trap_of_ended same).imp_right .inr
  · -- the function is one that was on offer when the sandbox was prepared
    have settled : call.function.Settled := by
      obtain ⟨around, ⟨index, called⟩, -⟩ := goes.makes made
      exact offered_called (Platform.offers_settled candid) prepared called
    refine ⟨fun code => HostCall.exit_of_outcome settled,
      fun module name => HostCall.unimplemented_iff settled,
      fun r asked => ⟨fun c well => ?_, fun link b module name links said => ?_⟩⟩
    · obtain ⟨value, unfit⟩ := HostCall.value_of_nested asked well
      refine ⟨value, fun link => ?_, unfit⟩
      have words := HostCall.givesWords_of_link settled asked link
      refine (HostFunction.run_call words invoke call.site).1.trans ?_
      rw [value]
      rfl
    · -- the call says it, being the last of the run
      have climbed := Activation.unimplemented_of_links links said
      have outcome := (HostCall.unimplemented_iff settled).mpr (.inr ⟨r, asked, link, climbed⟩)
      exact (run_unimplemented_iff module name).mpr
        ⟨call, goes.getLast?_of_error made outcome, outcome⟩

/-- A guest whose entry calls a function that is not implemented. -/
def sleeper : String :=
  "(module (import \"env\" \"runtime.ticks\" (func $t (result i32)))" ++
    " (func (export \"run\") (result i32) call $t))"

/-- A guest whose entry calls the entry of the other. -/
def waker : String :=
  "(module (import \"sleeper\" \"run\" (func $r (result i32)))" ++
    " (func (export \"run\") (result i32) call $r))"

/-- The world of a host of these two guests. -/
def sleepingWorld : World :=
  let h := ((Host.new .default .offline 0).registerGuest "sleeper" (Utf8.encode sleeper)).2
  (h.registerGuest "waker" (Utf8.encode waker)).2.world

/-- Whether the caller is prepared to call the other guest only, and is told that what the other
calls is not implemented. -/
theorem sleeping :
    (((Host.mk (.standard .default) sleepingWorld).prepare (.top "waker" "run")).1.toOption.any
      fun s => s.linker.all (fun f => f.module == "sleeper") &&
        decide (((Host.mk (.standard .default) sleepingWorld).run s).1 =
          .error (.unimplemented "env" "runtime.ticks"))) = true := by
  decide +kernel

/-- The guest that calls another is ended by its link, since the other called what is not
implemented. -/
theorem outcomes_told_apart_sleeper : ∃ s call r,
    ((Host.mk (.standard .default) sleepingWorld).prepare (.top "waker" "run")).1 = .ok s ∧
    s.EndedBy (s.invoking (.standard .default)) (Platform.standard .default).config.fuel sleepingWorld
      call (.fatal (.failure (.unimplemented "env" "runtime.ticks"))) ∧
    call.request? = some r ∧ r.via = .link ∧
    ((s.invoking (.standard .default) r.context).run r.world).1 =
      .error (.unimplemented "env" "runtime.ticks") := by
  obtain ⟨s, prepared, holds⟩ := ok_of_toOption_any sleeping
  obtain ⟨foreign, said⟩ := Bool.and_eq_true_iff.mp holds
  obtain ⟨-, unimplemented, -, -, calls⟩ :=
    outcomes_told_apart ⟨.standard .default, sleepingWorld⟩ (Platform.candid_standard .default)
      (.top "waker" "run") sleepingWorld prepared
  dsimp only at unimplemented calls
  obtain ⟨call, ended⟩ := (unimplemented _ _).mp (of_decide_eq_true said)
  have made := List.mem_of_getLast? ended.1
  rcases ((calls call made).2.1 _ _).mp ended.2 with ⟨-, own, -⟩ | ⟨r, asked, link, nested⟩
  · -- the caller has no function of that module
    obtain ⟨around, ⟨index, called⟩, -⟩ := (goes_callEntry _ _ _ _).makes made
    have other := List.all_eq_true.mp foreign _ (function_mem called)
    rw [own] at other
    exact absurd other (by decide)
  · exact ⟨s, call, r, prepared, ended, asked, link, nested⟩

end Sandbox

end GuestHost
