import GuestHost.Proofs.Nesting
import GuestHost.Sandbox.Run
/-!
# The nested invocations of a run

`Sandbox.nested` lists the nested invocations that a run makes, in the order in which it makes
them, each with what the guest's host call came to. Nothing is missing from the list: runs under
two ways to carry out invocations that agree on it are the same, `Sandbox.run_congr`. A host call
that the guest does not survive ends the run with its error, `Sandbox.run_of_error`.
-/

namespace GuestHost

open Stateful

/-- A nested invocation that has been made, and what the host call came to. -/
structure Nested extends Request where
  answer : Except CallError UInt32

namespace Sandbox

/-- The nested invocation that a host call makes, if it makes one. -/
def nestedCall (invoke : Invoke) (s : Sandbox) (index : Nat) (arguments : List Wasm.Value)
    (memory : Memory) (around : Surroundings) : List Nested :=
  match s.called? index with
  | none => []
  | some f =>
    let site := s.site arguments memory around
    match f.backing.request? site with
    | none => []
    | some r => [⟨r, ((f.value invoke).run site).1⟩]

/-- The nested invocations made while a machine is driven to its end. -/
def nestedDrive (invoke : Invoke) (s : Sandbox) :
    Nat → Wasm.Machine → Surroundings → List Nested
  | 0, _, _ => []
  | fuel + 1, machine, around =>
    match machine.step with
    | .running machine => nestedDrive invoke s fuel machine around
    | .finished _ _ => []
    | .trapped _ => []
    | .calling index arguments machine =>
      nestedCall invoke s index arguments machine.memory around ++
        match (hostCall invoke s index arguments machine.memory).run around with
        | (.ok (results, memory), around) =>
          nestedDrive invoke s fuel (machine.resume results memory) around
        | (.error _, _) => []

/-- The nested invocations made before the entry can be called. -/
def nestedStart (invoke : Invoke) (s : Sandbox) (fuel : Nat) (around : Surroundings) :
    List Nested :=
  match s.loaded, s.program.start with
  | .ok memory, some index => nestedDrive invoke s fuel (.start s.program memory index []) around
  | _, _ => []

/-- The nested invocations made until the entry has returned. -/
def nestedEntry (invoke : Invoke) (s : Sandbox) (fuel : Nat) (around : Surroundings) :
    List Nested :=
  nestedStart invoke s fuel around ++
    match (instantiate invoke s fuel).run around with
    | (.ok rest, around) =>
      match s.entry rest.memory with
      | .ok machine => nestedDrive invoke s rest.fuel machine around
      | .error _ => []
    | (.error _, _) => []

/-- The nested invocations that a run makes. -/
def nested (invoke : Invoke) (limit : Option Nat) (s : Sandbox) (world : World) : List Nested :=
  nestedEntry invoke s (limit.getD unlimited) (s.surroundings world)

variable {invoke invoke' : Invoke} {s : Sandbox} {n : Nested}

/-! ## Where nested invocations come from -/

/-- A nested invocation was made by a function of the sandbox. -/
def Makes (invoke : Invoke) (s : Sandbox) (n : Nested) : Prop :=
  ∃ f ∈ s.linker, ∃ site : Site, site.invocation = s.context.toInvocation ∧
    f.backing.request? site = some n.toRequest ∧ n.answer = ((f.value invoke).run site).1

theorem function_mem {index : Nat} {f : HostFunction} (h : s.called? index = some f) :
    f ∈ s.linker := by
  obtain ⟨i, -, found⟩ := Option.bind_eq_some_iff.mp h
  exact List.mem_of_find?_eq_some found

theorem makes_of_mem_call {index : Nat} {arguments : List Wasm.Value} {memory : Memory}
    {around : Surroundings} (h : n ∈ nestedCall invoke s index arguments memory around) :
    Makes invoke s n := by
  unfold nestedCall at h
  split at h
  · simp at h
  · rename_i f called
    dsimp only at h
    split at h
    · simp at h
    · rename_i r asked
      rw [List.mem_singleton.mp h]
      exact ⟨f, function_mem called, _, rfl, asked, rfl⟩

theorem makes_of_mem_drive {fuel : Nat} {machine : Wasm.Machine} {around : Surroundings}
    (h : n ∈ nestedDrive invoke s fuel machine around) : Makes invoke s n := by
  induction fuel generalizing machine around with
  | zero => simp [nestedDrive] at h
  | succ fuel ih =>
    unfold nestedDrive at h
    split at h
    · exact ih h
    · simp at h
    · simp at h
    · rcases List.mem_append.mp h with h | h
      · exact makes_of_mem_call h
      · split at h
        · exact ih h
        · simp at h

theorem makes_of_mem_start {fuel : Nat} {around : Surroundings}
    (h : n ∈ nestedStart invoke s fuel around) : Makes invoke s n := by
  unfold nestedStart at h
  split at h
  · exact makes_of_mem_drive h
  · simp at h

/-- **Every nested invocation of a run was made by one of its functions.** -/
theorem makes_of_mem {limit : Option Nat} {world : World}
    (h : n ∈ s.nested invoke limit world) : Makes invoke s n := by
  rcases List.mem_append.mp h with h | h
  · exact makes_of_mem_start h
  · split at h
    · split at h
      · exact makes_of_mem_drive h
      · simp at h
    · simp at h

/-! ## Host calls that end a run -/

/-- What comes of a run by what came of calling the entry. -/
def conclude (s : Sandbox) :
    Except CallError (Except Failure Int32) × Surroundings → Except Failure Context × World
  | (.ok (.ok result), around) => (.ok (s.context.returned result), around.world)
  | (.ok (.error e), around) => (.error e, around.world)
  | (.error e, around) => (ended s.context e, around.world)

theorem run_run (invoke : Invoke) (limit : Option Nat) (s : Sandbox) (world : World) :
    (s.run invoke limit).run world =
      s.conclude ((callEntry invoke s (limit.getD unlimited)).run (s.surroundings world)) := by
  unfold run
  simp only [run_bind, run_get]
  obtain ⟨outcome, around⟩ :=
    (callEntry invoke s (limit.getD unlimited)).run (s.surroundings world)
  simp only [run_bind, run_set, run_ofExcept]
  rcases outcome with e | e | result <;> rfl

/-- A host call fails as its nested invocation does. -/
theorem hostCall_of_error {index : Nat} {arguments : List Wasm.Value} {memory : Memory}
    {around : Surroundings} {e : CallError}
    (h : n ∈ nestedCall invoke s index arguments memory around) (failed : n.answer = .error e) :
    ((hostCall invoke s index arguments memory).run around).1 = .error e := by
  unfold nestedCall at h
  split at h
  · simp at h
  · rename_i f called
    dsimp only at h
    split at h
    · simp at h
    · rw [List.mem_singleton.mp h] at failed
      have call := f.call_of_error failed
      unfold hostCall
      simp only [called, run_bind, run_get]
      revert call
      obtain ⟨outcome, after⟩ := (f.call invoke).run (s.site arguments memory around)
      rintro rfl
      rfl

theorem run_drive_calling {fuel : Nat} {machine next : Wasm.Machine} {index : Nat}
    {arguments : List Wasm.Value} (around : Surroundings)
    (h : machine.step = .calling index arguments next) :
    (drive invoke s (fuel + 1) machine).run around =
      match (hostCall invoke s index arguments next.memory).run around with
      | (.ok (results, memory), around) =>
        (drive invoke s fuel (next.resume results memory)).run around
      | (.error e, around) => (.error e, around) := by
  simp only [drive, h, run_bind]
  obtain ⟨outcome, after⟩ := (hostCall invoke s index arguments next.memory).run around
  cases outcome <;> rfl

theorem drive_of_error {fuel : Nat} {machine : Wasm.Machine} {around : Surroundings}
    {e : CallError} (h : n ∈ nestedDrive invoke s fuel machine around)
    (failed : n.answer = .error e) : ((drive invoke s fuel machine).run around).1 = .error e := by
  induction fuel generalizing machine around with
  | zero => simp [nestedDrive] at h
  | succ fuel ih =>
    unfold nestedDrive at h
    split at h
    · rename_i next step
      simp only [drive, step]
      exact ih h
    · simp at h
    · simp at h
    · rename_i index arguments next step
      rw [run_drive_calling around step]
      -- the failed invocation is the one that this call makes, or comes after the call
      rcases List.mem_append.mp h with h | h
      · have ended := hostCall_of_error h failed
        revert ended
        obtain ⟨outcome, after⟩ := (hostCall invoke s index arguments next.memory).run around
        rintro rfl
        rfl
      · split at h
        · exact ih h
        · simp at h

theorem start_of_error {fuel : Nat} {around : Surroundings} {e : CallError}
    (h : n ∈ nestedStart invoke s fuel around) (failed : n.answer = .error e) :
    ((instantiate invoke s fuel).run around).1 = .error e := by
  unfold nestedStart at h
  split at h
  · rename_i memory index loaded start
    simp only [instantiate, loaded, start]
    exact drive_of_error h failed
  · simp at h

theorem entry_of_error {fuel : Nat} {around : Surroundings} {e : CallError}
    (h : n ∈ nestedEntry invoke s fuel around) (failed : n.answer = .error e) :
    ((callEntry invoke s fuel).run around).1 = .error e := by
  simp only [callEntry, run_bind]
  rcases List.mem_append.mp h with h | h
  · rw [start_of_error h failed]
  · split at h
    · rename_i rest after instantiated
      split at h
      · rename_i machine entered
        simp only [instantiated, entered, run_bind, drive_of_error h failed]
      · simp at h
    · simp at h

/-- **A host call that the guest does not survive ends the run**, whenever in the run it is made. -/
theorem run_of_error {limit : Option Nat} {world : World} {e : CallError}
    (h : n ∈ s.nested invoke limit world) (failed : n.answer = .error e) :
    ((s.run invoke limit).run world).1 = ended s.context e := by
  have entry := entry_of_error h failed
  rw [run_run]
  revert entry
  obtain ⟨outcome, after⟩ :=
    (callEntry invoke s (limit.getD unlimited)).run (s.surroundings world)
  rintro rfl
  rfl

/-! ## What a run depends on -/

theorem hostCall_congr {index : Nat} {arguments : List Wasm.Value} {memory : Memory}
    {around : Surroundings}
    (h : ∀ n ∈ nestedCall invoke s index arguments memory around,
      Agree invoke invoke' n.toRequest) :
    (hostCall invoke s index arguments memory).run around =
      (hostCall invoke' s index arguments memory).run around := by
  unfold hostCall
  cases called : s.called? index with
  | none => rfl
  | some f =>
    have call : (f.call invoke).run (s.site arguments memory around) =
        (f.call invoke').run (s.site arguments memory around) := by
      refine HostFunction.call_congr fun r asked =>
        h ⟨r, ((f.value invoke).run (s.site arguments memory around)).1⟩ ?_
      simp only [nestedCall, called, asked]
      exact List.mem_singleton_self _
    simp only [run_bind, run_get, call]

theorem drive_congr {fuel : Nat} {machine : Wasm.Machine} {around : Surroundings}
    (h : ∀ n ∈ nestedDrive invoke s fuel machine around, Agree invoke invoke' n.toRequest) :
    (drive invoke s fuel machine).run around = (drive invoke' s fuel machine).run around := by
  induction fuel generalizing machine around with
  | zero => rfl
  | succ fuel ih =>
    cases step : machine.step with
    | running next =>
      simp only [nestedDrive, step] at h
      simpa only [drive, step] using ih h
    | finished results memory => simp only [drive, step]
    | trapped trap => simp only [drive, step]
    | calling index arguments next =>
      simp only [nestedDrive, step, List.mem_append] at h
      -- the two runs agree up to here, so they meet the same invocations afterwards
      have here := hostCall_congr fun n hn => h n (.inl hn)
      rw [run_drive_calling around step, run_drive_calling around step, ← here]
      split
      · rename_i results memory after called
        refine ih fun n hn => h n (.inr ?_)
        simpa only [called] using hn
      · rfl

theorem instantiate_congr {fuel : Nat} {around : Surroundings}
    (h : ∀ n ∈ nestedStart invoke s fuel around, Agree invoke invoke' n.toRequest) :
    (instantiate invoke s fuel).run around = (instantiate invoke' s fuel).run around := by
  unfold instantiate
  cases loaded : s.loaded with
  | error cause => rfl
  | ok memory =>
    cases start : s.program.start with
    | none => rfl
    | some index =>
      simp only [nestedStart, loaded, start] at h
      exact drive_congr h

theorem callEntry_congr {fuel : Nat} {around : Surroundings}
    (h : ∀ n ∈ nestedEntry invoke s fuel around, Agree invoke invoke' n.toRequest) :
    (callEntry invoke s fuel).run around = (callEntry invoke' s fuel).run around := by
  simp only [nestedEntry, List.mem_append] at h
  have start := instantiate_congr fun n hn => h n (.inl hn)
  simp only [callEntry, run_bind, ← start]
  cases instantiated : (instantiate invoke s fuel).run around with
  | mk outcome after =>
    cases outcome with
    | error e => rfl
    | ok rest =>
      dsimp only
      cases entered : s.entry rest.memory with
      | error e => rfl
      | ok machine =>
        have drive : (drive invoke s rest.fuel machine).run after =
            (Sandbox.drive invoke' s rest.fuel machine).run after :=
          drive_congr fun n hn => h n (.inr (by simpa only [instantiated, entered] using hn))
        simp only [run_bind, drive]

/-- **A run depends on nested invocations by those it makes only.** -/
theorem run_congr {limit : Option Nat} {world : World}
    (h : ∀ n ∈ s.nested invoke limit world, Agree invoke invoke' n.toRequest) :
    (s.run invoke limit).run world = (s.run invoke' limit).run world := by
  rw [run_run, run_run, callEntry_congr h]

end Sandbox

end GuestHost
