import GuestHost.Proofs.Sandbox.Nested
/-!
# The host calls of a run

`Sandbox.calls` lists the host calls that a run makes, in the order in which it makes them, each
with what it sees; the nested invocations of the run are those that these calls ask for,
`Sandbox.nested_eq_flatMap`. A run is nothing but a row of host calls between steps of the guest's
own code, `Sandbox.goes_callEntry`. So it ends with the error of a host call exactly if one of them
fails, `Sandbox.Goes.error_iff`, what they give is collected in their order,
`Sandbox.collects_run`, and what all of them leave standing the run leaves standing,
`Sandbox.keeps_run`.
-/

namespace GuestHost

open Stateful

/-- A host call: the function that is called and what it sees. -/
structure HostCall where
  function : HostFunction
  site : Site

namespace HostCall

/-- What a host call comes to. -/
def outcome (invoke : Invoke) (c : HostCall) : Except CallError (List Wasm.Value) :=
  ((c.function.call invoke).run c.site).1

/-- What a host call leaves. -/
def after (invoke : Invoke) (c : HostCall) : Site := ((c.function.call invoke).run c.site).2

/-- The nested invocation that a host call asks for. -/
def request? (c : HostCall) : Option Request := c.function.backing.request? c.site

/-- The nested invocation that a host call makes, if it makes one. -/
def nested (invoke : Invoke) (c : HostCall) : List Nested :=
  match c.request? with
  | none => []
  | some r => [⟨r, ((c.function.value invoke).run c.site).1⟩]

end HostCall

namespace Sandbox

/-- The host call made for an imported function. -/
def callAt (s : Sandbox) (index : Nat) (arguments : List Wasm.Value) (memory : Memory)
    (around : Surroundings) : List HostCall :=
  match s.called? index with
  | none => []
  | some f => [⟨f, s.site arguments memory around⟩]

/-- The host calls made while a machine is driven to its end. -/
def callsDrive (invoke : Invoke) (s : Sandbox) :
    Nat → Wasm.Machine → Surroundings → List HostCall
  | 0, _, _ => []
  | fuel + 1, machine, around =>
    match machine.step with
    | .running machine => callsDrive invoke s fuel machine around
    | .finished _ _ => []
    | .trapped _ => []
    | .calling index arguments machine =>
      s.callAt index arguments machine.memory around ++
        match (hostCall invoke s index arguments machine.memory).run around with
        | (.ok (results, memory), around) =>
          callsDrive invoke s fuel (machine.resume results memory) around
        | (.error _, _) => []

/-- The host calls made before the entry can be called. -/
def callsStart (invoke : Invoke) (s : Sandbox) (fuel : Nat) (around : Surroundings) :
    List HostCall :=
  match s.loaded, s.program.start with
  | .ok memory, some index => callsDrive invoke s fuel (.start s.program memory index []) around
  | _, _ => []

/-- The host calls made until the entry has returned. -/
def callsEntry (invoke : Invoke) (s : Sandbox) (fuel : Nat) (around : Surroundings) :
    List HostCall :=
  callsStart invoke s fuel around ++
    match (instantiate invoke s fuel).run around with
    | (.ok rest, around) =>
      match s.entry rest.memory with
      | .ok machine => callsDrive invoke s rest.fuel machine around
      | .error _ => []
    | (.error _, _) => []

/-- The host calls that a run makes. -/
def calls (invoke : Invoke) (limit : Option Nat) (s : Sandbox) (world : World) : List HostCall :=
  callsEntry invoke s (limit.getD unlimited) (s.surroundings world)

variable {invoke : Invoke} {s : Sandbox} {c : HostCall} {α β : Type}
  {around mid after : Surroundings} {calls calls' : List HostCall} {e : CallError}

/-! ## Stretches of a run -/

/-- A guest comes from one machine to another in a number of steps, and to other surroundings. -/
def Comes (invoke : Invoke) (s : Sandbox) (n : Nat) (machine : Wasm.Machine)
    (around : Surroundings) (machine' : Wasm.Machine) (after : Surroundings) : Prop :=
  ∀ fuel, (drive invoke s (fuel + n) machine).run around =
    (drive invoke s fuel machine').run after

theorem Comes.trans {n n' : Nat} {machine machine' machine'' : Wasm.Machine}
    (h : Comes invoke s n machine around machine' mid)
    (h' : Comes invoke s n' machine' mid machine'' after) :
    Comes invoke s (n + n') machine around machine'' after := fun fuel => by
  rw [Nat.add_comm n, ← Nat.add_assoc, h, h']

/-- A machine goes on with the results of a host call. -/
theorem Comes.of_calling {machine waiting : Wasm.Machine} {index : Nat}
    {arguments results : List Wasm.Value} {memory : Memory}
    (asks : machine.step = .calling index arguments waiting)
    (comes : (hostCall invoke s index arguments waiting.memory).run around =
      (.ok (results, memory), mid)) :
    Comes invoke s 1 machine around (waiting.resume results memory) mid := fun fuel => by
  rw [run_drive_calling around asks, comes]

/-- A machine that calls a function which comes back makes that host call first. -/
theorem callsDrive_of_calling {machine waiting : Wasm.Machine} {index : Nat}
    {arguments results : List Wasm.Value} {memory : Memory} (fuel : Nat)
    (asks : machine.step = .calling index arguments waiting)
    (comes : (hostCall invoke s index arguments waiting.memory).run around =
      (.ok (results, memory), mid)) :
    callsDrive invoke s (fuel + 1) machine around =
      s.callAt index arguments waiting.memory around ++
        callsDrive invoke s fuel (waiting.resume results memory) mid := by
  rw [callsDrive, asks]
  dsimp only
  rw [comes]

/-- A loop that counts down has one turn less to go. -/
theorem ofNat_succ_sub_one (turns : Nat) :
    UInt32.ofNat (turns + 1) - 1 = UInt32.ofNat turns := by
  rw [UInt32.ofNat_add]
  exact UInt32.add_sub_cancel _ _

/-- There are more turns to go as long as words are not used up. -/
theorem ofNat_ne_zero {turns : Nat} (more : 0 < turns) (word : turns ≤ maxWord) :
    UInt32.ofNat turns ≠ 0 := by
  intro same
  have value := congrArg UInt32.toNat same
  simp only [maxWord] at word
  rw [UInt32.toNat_ofNat_of_lt' (by simp only [UInt32.size]; omega)] at value
  exact absurd value (Nat.ne_of_gt more)

/-! ## Nested invocations among the host calls -/

theorem nestedCall_eq (index : Nat) (arguments : List Wasm.Value) (memory : Memory)
    (around : Surroundings) :
    nestedCall invoke s index arguments memory around =
      (s.callAt index arguments memory around).flatMap (HostCall.nested invoke) := by
  unfold nestedCall callAt
  cases s.called? index with
  | none => rfl
  | some f => exact (List.flatMap_singleton _ _).symm

theorem nestedDrive_eq (fuel : Nat) (machine : Wasm.Machine) (around : Surroundings) :
    nestedDrive invoke s fuel machine around =
      (callsDrive invoke s fuel machine around).flatMap (HostCall.nested invoke) := by
  induction fuel generalizing machine around with
  | zero => rfl
  | succ fuel ih =>
    unfold nestedDrive callsDrive
    cases machine.step with
    | running next => exact ih next around
    | finished results memory => rfl
    | trapped trap => rfl
    | calling index arguments next =>
      dsimp only
      rw [List.flatMap_append, nestedCall_eq]
      obtain ⟨outcome, after⟩ := (hostCall invoke s index arguments next.memory).run around
      cases outcome with
      | error e => rfl
      | ok come => exact congrArg _ (ih _ after)

theorem nestedStart_eq (fuel : Nat) (around : Surroundings) :
    nestedStart invoke s fuel around =
      (callsStart invoke s fuel around).flatMap (HostCall.nested invoke) := by
  unfold nestedStart callsStart
  cases s.loaded with
  | error cause => rfl
  | ok memory =>
    cases s.program.start with
    | none => rfl
    | some index => exact nestedDrive_eq _ _ _

/-- **A run makes the nested invocations that its host calls ask for.** -/
theorem nested_eq_flatMap (invoke : Invoke) (limit : Option Nat) (s : Sandbox) (world : World) :
    s.nested invoke limit world =
      (s.calls invoke limit world).flatMap (HostCall.nested invoke) := by
  unfold nested Sandbox.calls nestedEntry callsEntry
  rw [List.flatMap_append, ← nestedStart_eq]
  obtain ⟨outcome, after⟩ :=
    (instantiate invoke s (limit.getD unlimited)).run (s.surroundings world)
  cases outcome with
  | error e => rfl
  | ok rest =>
    dsimp only
    cases s.entry rest.memory with
    | error e => rfl
    | ok machine => exact congrArg _ (nestedDrive_eq _ _ _)

theorem nested_of_request {limit : Option Nat} {world : World} {r : Request}
    (hc : c ∈ s.calls invoke limit world) (asked : c.request? = some r) :
    ⟨r, ((c.function.value invoke).run c.site).1⟩ ∈ s.nested invoke limit world := by
  rw [nested_eq_flatMap, List.mem_flatMap]
  refine ⟨c, hc, ?_⟩
  unfold HostCall.nested
  rw [asked]
  exact List.mem_singleton_self _

/-! ## A run is a row of host calls -/

/-- A host call is made by a sandbox with something around it. -/
structure MakesCall (s : Sandbox) (around : Surroundings) (c : HostCall) : Prop where
  called : ∃ index, s.called? index = some c.function
  invocation_eq : c.site.invocation = s.context.toInvocation
  world_eq : c.site.world = around.world

/-- Why the code of a guest stops by itself: it cannot be started, or the machine traps. -/
def Faults (s : Sandbox) (cause : Cause) : Prop :=
  s.loaded = .error cause ∨ ∃ trap, cause = .machine trap

/-- How a part of a run goes, from what is around it before to what is around it afterwards: the
host calls that it makes, and what it ends with. -/
inductive Goes (invoke : Invoke) (s : Sandbox) :
    Surroundings → List HostCall → Except CallError α → Surroundings → Prop where
  | ends (around : Surroundings) (a : α) : Goes invoke s around [] (.ok a) around
  | faults (around : Surroundings) {cause : Cause} (own : s.Faults cause) :
      Goes invoke s around [] (.error (.fatal cause)) around
  | fails {around after : Surroundings} {c : HostCall} {e : CallError}
      (made : s.MakesCall around c) (failed : c.outcome invoke = .error e)
      (left : after.world = (c.after invoke).world) : Goes invoke s around [c] (.error e) after
  | goesOn {around mid after : Surroundings} {c : HostCall} {results : List Wasm.Value}
      {calls : List HostCall} {out : Except CallError α}
      (made : s.MakesCall around c) (answered : c.outcome invoke = .ok results)
      (left : mid.world = (c.after invoke).world) (rest : Goes invoke s mid calls out after) :
      Goes invoke s around (c :: calls) out after

/-- A host call leaves the world that its function leaves, and the guest goes on with the results
of the function or not at all. -/
theorem run_hostCall (invoke : Invoke) {index : Nat} {f : HostFunction}
    (called : s.called? index = some f) (arguments : List Wasm.Value) (memory : Memory)
    (around : Surroundings) :
    ∃ memory', ((hostCall invoke s index arguments memory).run around).1 =
        (HostCall.outcome invoke ⟨f, s.site arguments memory around⟩).map (·, memory') ∧
      ((hostCall invoke s index arguments memory).run around).2.world =
        (HostCall.after invoke ⟨f, s.site arguments memory around⟩).world := by
  unfold hostCall HostCall.outcome HostCall.after
  simp only [called, run_bind, run_get]
  obtain ⟨outcome, site⟩ := (f.call invoke).run (s.site arguments memory around)
  cases outcome with
  | error e => exact ⟨memory, rfl, rfl⟩
  | ok results => exact ⟨_, rfl, rfl⟩

theorem goes_drive (invoke : Invoke) (s : Sandbox) (fuel : Nat) (machine : Wasm.Machine)
    (around : Surroundings) :
    Goes invoke s around (callsDrive invoke s fuel machine around)
      ((drive invoke s fuel machine).run around).1
      ((drive invoke s fuel machine).run around).2 := by
  induction fuel generalizing machine around with
  | zero => exact .faults around (.inr ⟨_, rfl⟩)
  | succ fuel ih =>
    cases step : machine.step with
    | running next =>
      simp only [callsDrive, drive, step]
      exact ih next around
    | finished results memory =>
      simp only [callsDrive, drive, step]
      exact .ends around _
    | trapped trap =>
      simp only [callsDrive, drive, step]
      exact .faults around (.inr ⟨trap, rfl⟩)
    | calling index arguments next =>
      rw [run_drive_calling around step]
      simp only [callsDrive, step, callAt]
      cases called : s.called? index with
      | none =>
        -- an index without a function stops the machine, as a trap of its own does
        have stopped : (hostCall invoke s index arguments next.memory).run around =
            (.error (.fatal (.machine .unreachable)), around) := by
          simp only [hostCall, called]
          rfl
        rw [stopped]
        exact .faults around (.inr ⟨_, rfl⟩)
      | some f =>
        obtain ⟨memory', outcome, left⟩ :=
          run_hostCall invoke called arguments next.memory around
        have made : s.MakesCall around ⟨f, s.site arguments next.memory around⟩ :=
          ⟨⟨index, called⟩, rfl, rfl⟩
        revert outcome left
        obtain ⟨out, after⟩ := (hostCall invoke s index arguments next.memory).run around
        cases answer : HostCall.outcome invoke ⟨f, s.site arguments next.memory around⟩ with
        | error e =>
          rintro rfl left
          exact .fails made answer left
        | ok results =>
          rintro rfl left
          exact .goesOn made answer left (ih _ after)

theorem goes_instantiate (invoke : Invoke) (s : Sandbox) (fuel : Nat) (around : Surroundings) :
    Goes invoke s around (callsStart invoke s fuel around)
      ((instantiate invoke s fuel).run around).1
      ((instantiate invoke s fuel).run around).2 := by
  unfold instantiate callsStart
  cases loaded : s.loaded with
  | error cause => exact .faults around (.inl loaded)
  | ok memory =>
    cases s.program.start with
    | none => exact .ends around _
    | some index => exact goes_drive _ _ _ _ around

/-- A part that ended well goes on with the part behind it. -/
theorem Goes.append {a : α} {out : Except CallError β}
    (first : Goes invoke s around calls (.ok a) mid) (second : Goes invoke s mid calls' out after) :
    Goes invoke s around (calls ++ calls') out after := by
  -- the induction is on a part with any outcome
  generalize ended : (Except.ok a : Except CallError α) = first' at first
  induction first with
  | ends => exact second
  | faults | fails => cases ended
  | goesOn made answered left _ ih => exact .goesOn made answered left (ih second ended)

/-- A part that ended badly is all there is. -/
theorem Goes.error_cast (first : Goes (α := α) invoke s around calls (.error e) mid) :
    Goes (α := β) invoke s around calls (.error e) mid := by
  generalize ended : (Except.error e : Except CallError α) = first' at first
  induction first with
  | ends => cases ended
  | faults around own =>
    cases ended
    exact .faults around own
  | fails made failed left =>
    cases ended
    exact .fails made failed left
  | goesOn made answered left _ ih => exact .goesOn made answered left (ih ended)

/-- What comes of a part of a run whose value is changed into another. -/
theorem Goes.map {out : Except CallError α} (f : α → β)
    (goes : Goes invoke s around calls out after) :
    Goes invoke s around calls (out.map f) after := by
  induction goes with
  | ends around a => exact .ends around (f a)
  | faults around own => exact .faults around own
  | fails made failed left => exact .fails made failed left
  | goesOn made answered left _ ih => exact .goesOn made answered left ih

/-- **A run is a row of host calls.** -/
theorem goes_callEntry (invoke : Invoke) (s : Sandbox) (fuel : Nat) (around : Surroundings) :
    Goes invoke s around (callsEntry invoke s fuel around)
      ((callEntry invoke s fuel).run around).1 ((callEntry invoke s fuel).run around).2 := by
  have start := goes_instantiate invoke s fuel around
  unfold callsEntry callEntry
  simp only [run_bind]
  revert start
  obtain ⟨outcome, mid⟩ := (instantiate invoke s fuel).run around
  cases outcome with
  | error e =>
    intro start
    rw [List.append_nil]
    exact start.error_cast
  | ok rest =>
    intro start
    refine start.append ?_
    dsimp only
    cases s.entry rest.memory with
    | error e => exact .ends mid _
    | ok machine =>
      have driven := (goes_drive invoke s rest.fuel machine mid).map
        fun rest => (Except.ok (report rest.results) : Except Failure Int32)
      simp only [run_bind]
      revert driven
      obtain ⟨outcome, after⟩ := (drive invoke s rest.fuel machine).run mid
      cases outcome <;> exact id

namespace Goes

variable {out : Except CallError α}

/-- Every host call of a run is made by one of the functions of the sandbox in its context. -/
theorem makes (goes : Goes invoke s around calls out after) (hc : c ∈ calls) :
    ∃ around, s.MakesCall around c := by
  induction goes with
  | ends | faults => cases hc
  | fails made => exact ⟨_, List.mem_singleton.mp hc ▸ made⟩
  | goesOn made _ _ _ ih =>
    rcases List.mem_cons.mp hc with rfl | hc
    · exact ⟨_, made⟩
    · exact ih hc

/-- **A run ends with an error exactly if the guest's own code stops with it or a host call fails
with it.** -/
theorem error_iff (goes : Goes invoke s around calls out after)
    (foreign : ∀ cause, e = .fatal cause → ¬ s.Faults cause) :
    out = .error e ↔ ∃ c ∈ calls, c.outcome invoke = .error e := by
  induction goes with
  | ends => simp
  | faults around own =>
    refine iff_of_false (fun same => ?_) (by simp)
    exact foreign _ (Except.error.inj same).symm own
  | fails made failed => simp [failed]
  | goesOn made answered left _ ih => simp [ih, answered]

/-- A run makes no host call after one that has failed. -/
theorem getLast?_of_error (goes : Goes invoke s around calls out after) (hc : c ∈ calls)
    (failed : c.outcome invoke = .error e) : calls.getLast? = some c := by
  induction goes with
  | ends | faults => cases hc
  | fails => rw [List.mem_singleton.mp hc, List.getLast?_singleton]
  | goesOn made answered _ _ ih =>
    rcases List.mem_cons.mp hc with rfl | hc
    · cases answered.symm.trans failed
    · rw [List.getLast?_cons, ih hc, Option.getD_some]

/-- **What the host calls of a run give is collected in their order.** What holds of a world
together with what has been given so far holds behind each call with what the call gives, and so it
holds behind the run with all that its calls give. -/
theorem collects {G : Type} {J : List G → World → Prop}
    (goes : Goes invoke s around calls out after) (given : HostCall → List G)
    (each : ∀ c ∈ calls, ∀ before, J before c.site.world →
      J (before ++ given c) (c.after invoke).world)
    (before : List G) (h : J before around.world) :
    J (before ++ calls.flatMap given) after.world := by
  -- a call meets the world around it, and what it leaves is around the next
  have next : ∀ {around after : Surroundings} {c : HostCall} {before : List G},
      s.MakesCall around c → after.world = (c.after invoke).world →
      (J before c.site.world → J (before ++ given c) (c.after invoke).world) →
      J before around.world → J (before ++ given c) after.world := by
    intro around after c before made left adds h
    rw [left]
    exact adds (made.world_eq ▸ h)
  induction goes generalizing before with
  | ends | faults =>
    rw [List.flatMap_nil, List.append_nil]
    exact h
  | fails made _ left =>
    rw [List.flatMap_singleton]
    exact next made left (each _ List.mem_cons_self _) h
  | goesOn made _ left _ ih =>
    rw [List.flatMap_cons, ← List.append_assoc]
    exact ih (fun c hc => each c (List.mem_cons_of_mem _ hc)) _
      (next made left (each _ List.mem_cons_self _) h)

end Goes

/-- A run leaves the world that its entry leaves. -/
theorem world_run (invoke : Invoke) (limit : Option Nat) (s : Sandbox) (world : World) :
    ((s.run invoke limit).run world).2 =
      ((callEntry invoke s (limit.getD unlimited)).run (s.surroundings world)).2.world := by
  rw [run_run]
  obtain ⟨outcome, around⟩ :=
    (callEntry invoke s (limit.getD unlimited)).run (s.surroundings world)
  rcases outcome with e | e | result <;> rfl

variable {limit : Option Nat} {world : World}

/-- What the host calls of a run give is collected, whatever the run ends with. -/
theorem collects_run {G : Type} {J : List G → World → Prop} (given : HostCall → List G)
    (each : ∀ c ∈ s.calls invoke limit world, ∀ before, J before c.site.world →
      J (before ++ given c) (c.after invoke).world)
    (before : List G) (h : J before world) :
    J (before ++ (s.calls invoke limit world).flatMap given)
      ((s.run invoke limit).run world).2 := by
  rw [world_run]
  exact (goes_callEntry _ _ _ _).collects given each before h

/-- **What every host call of a run leaves standing the run leaves standing.** -/
theorem keeps_run {I : World → Prop}
    (each : ∀ c ∈ s.calls invoke limit world, I c.site.world → I (c.after invoke).world)
    (h : I world) : I ((s.run invoke limit).run world).2 :=
  collects_run (G := Empty) (J := fun _ => I) (fun _ => []) (fun c hc _ => each c hc) [] h

end Sandbox

end GuestHost
