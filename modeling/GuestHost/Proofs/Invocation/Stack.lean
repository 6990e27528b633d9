import GuestHost.Proofs.Invocation.Tree
/-!
# Invocations on a stack

`Invocation.invoke` is defined by recursion on the levels that are left. A host knows of no levels:
it starts a sandbox for every invocation that its guests ask for, one on top of the other, and has
nothing but the fuel of each and the check of the depth to make it end. This is the host as a
machine that takes one step after the other on a stack of guests, `State.step`. What a step can do
is said once, in `State.next_step`; and no step changes what comes of the invocation at the bottom,
which is what `Invocation.invoke` says, `State.comes_step`.
-/

namespace GuestHost

open Stateful Sandbox

namespace Stack

/-- A guest at work. -/
structure Frame where
  sandbox : Sandbox
  /-- Whether its entry has been called. -/
  entered : Bool
  fuel : Nat
  machine : Wasm.Machine
  around : Surroundings

/-- A guest that calls an imported function, and goes on as a frame when it has been called. -/
structure Waiting extends Frame where
  index : Nat
  arguments : List Wasm.Value

/-- What the host is about to do: prepare a sandbox for a context, go on with a guest, or hand over
what came of an invocation. -/
inductive Turn where
  | invoking (context : Context) (world : World)
  | running (frame : Frame)
  | returning (outcome : Except Failure Context) (world : World)

/-- The host at work: what it is about to do, and the guests that wait for what comes of that, the
last to ask first. -/
structure State where
  turn : Turn
  below : List Waiting

/-! ## Steps -/

/-- A guest ended by an error. -/
def stop (s : Sandbox) (e : CallError) (around : Surroundings) : Turn :=
  .returning (ended s.context e) around.world

/-- A guest that has been brought to the point where its entry can be called. -/
def enter (s : Sandbox) (fuel : Nat) (memory : Memory) (around : Surroundings) : Turn :=
  match s.entry memory with
  | .error e => .returning (.error e) around.world
  | .ok machine => .running ⟨s, true, fuel, machine, around⟩

/-- A sandbox that starts to run. -/
def begin (s : Sandbox) (fuel : Nat) (world : World) : Turn :=
  match s.loaded with
  | .error cause => stop s (.fatal cause) (s.surroundings world)
  | .ok memory =>
    match s.program.start with
    | none => enter s fuel memory (s.surroundings world)
    | some index =>
      .running ⟨s, false, fuel, .start s.program memory index [], s.surroundings world⟩

/-- A guest whose machine has come to its end. -/
def Frame.finish (f : Frame) (fuel : Nat) (results : List Wasm.Value) (memory : Memory) : Turn :=
  if f.entered then
    .returning (.ok (f.sandbox.context.returned (report results))) f.around.world
  else enter f.sandbox fuel memory f.around

namespace Waiting

/-- The nested invocation that the function which a guest calls asks for. -/
def request? (w : Waiting) : Option Request :=
  (w.sandbox.called? w.index).bind fun f =>
    f.backing.request? (w.sandbox.site w.arguments w.machine.memory w.around)

/-- A guest that goes on with what the function gives which it calls. -/
def resume (invoke : Invoke) (w : Waiting) : Turn :=
  match (hostCall invoke w.sandbox w.index w.arguments w.machine.memory).run w.around with
  | (.ok (results, memory), around) =>
    .running { w.toFrame with machine := w.machine.resume results memory, around := around }
  | (.error e, around) => stop w.sandbox e around

end Waiting

/-- The way to carry out an invocation of which it is known what comes of it. -/
def answered (outcome : Except Failure Context) (world : World) : Invoke := fun _ => do
  set world
  Setup.ofExcept outcome

namespace State

/-- A guest calls an imported function: a nested invocation goes on top of the guest, and any other
function is called at once. -/
def call (w : Waiting) (below : List Waiting) : State :=
  match w.request? with
  | some r => ⟨.invoking r.context r.world, w :: below⟩
  | none =>
    -- nothing is invoked, and the outcome and the world do not matter
    ⟨w.resume (answered (.error (.depthExceeded "" 0)) w.around.world), below⟩

/-- One step of the host. -/
def step (platform : Platform) : State → State
  | ⟨.invoking context world, below⟩ =>
    match (Sandbox.prepare platform context).run world with
    | (.error e, world) => ⟨.returning (.error e) world, below⟩
    | (.ok s, world) => ⟨begin s (platform.config.fuel.getD unlimited) world, below⟩
  | ⟨.running f, below⟩ =>
    match f.fuel with
    | 0 => ⟨stop f.sandbox (.fatal (.machine .outOfFuel)) f.around, below⟩
    | fuel + 1 =>
      match f.machine.step with
      | .running machine => ⟨.running { f with fuel := fuel, machine := machine }, below⟩
      | .finished results memory => ⟨f.finish fuel results memory, below⟩
      | .trapped trap => ⟨stop f.sandbox (.fatal (.machine trap)) f.around, below⟩
      | .calling index arguments machine =>
        call ⟨{ f with fuel := fuel, machine := machine }, index, arguments⟩ below
  | ⟨.returning outcome world, w :: below⟩ => ⟨w.resume (answered outcome world), below⟩
  | ⟨.returning outcome world, []⟩ => ⟨.returning outcome world, []⟩

end State

/-! ## What a step can do -/

/-- A guest goes on with some fuel at most, or comes to its end. -/
inductive Goes (s : Sandbox) (fuel : Nat) : Turn → Prop where
  | on (f : Frame) (same : f.sandbox = s) (left : f.fuel ≤ fuel) : Goes s fuel (.running f)
  | back (outcome : Except Failure Context) (world : World) : Goes s fuel (.returning outcome world)

theorem goes_enter (s : Sandbox) (fuel : Nat) (memory : Memory) (around : Surroundings) :
    Goes s fuel (enter s fuel memory around) := by
  unfold enter
  split
  · exact .back _ _
  · exact .on _ rfl (Nat.le_refl _)

theorem goes_begin (s : Sandbox) (fuel : Nat) (world : World) : Goes s fuel (begin s fuel world) := by
  unfold begin
  split
  · exact .back _ _
  · split
    · exact goes_enter _ _ _ _
    · exact .on _ rfl (Nat.le_refl _)

theorem Frame.goes_finish (f : Frame) (fuel : Nat) (results : List Wasm.Value) (memory : Memory) :
    Goes f.sandbox fuel (f.finish fuel results memory) := by
  unfold finish
  split
  · exact .back _ _
  · exact goes_enter _ _ _ _

theorem Waiting.goes_resume (invoke : Invoke) (w : Waiting) :
    Goes w.sandbox w.fuel (w.resume invoke) := by
  unfold resume
  split
  · exact .on _ rfl (Nat.le_refl _)
  · exact .back _ _

namespace State

/-- What one step can do. -/
inductive Next (platform : Platform) : State → State → Prop where
  /-- No sandbox can be prepared. -/
  | refused {context : Context} {world after : World} {below : List Waiting} {e : Failure}
    (failed : (Sandbox.prepare platform context).run world = (.error e, after)) :
    Next platform ⟨.invoking context world, below⟩ ⟨.returning (.error e) after, below⟩
  /-- A sandbox starts. -/
  | starts {context : Context} {world after : World} {below : List Waiting} {s : Sandbox}
    {turn : Turn} (prepared : (Sandbox.prepare platform context).run world = (.ok s, after))
    (goes : Goes s (platform.config.fuel.getD unlimited) turn) :
    Next platform ⟨.invoking context world, below⟩ ⟨turn, below⟩
  /-- A guest stops. -/
  | stops (f : Frame) (below : List Waiting) (outcome : Except Failure Context) (world : World) :
    Next platform ⟨.running f, below⟩ ⟨.returning outcome world, below⟩
  /-- A guest uses up fuel. -/
  | goesOn {f : Frame} {below : List Waiting} {fuel : Nat} {turn : Turn} (had : f.fuel = fuel + 1)
    (goes : Goes f.sandbox fuel turn) : Next platform ⟨.running f, below⟩ ⟨turn, below⟩
  /-- A guest uses up fuel and asks for an invocation. -/
  | asks {f : Frame} {below : List Waiting} {w : Waiting} {r : Request}
    (same : w.sandbox = f.sandbox) (had : f.fuel = w.fuel + 1) (asked : w.request? = some r) :
    Next platform ⟨.running f, below⟩ ⟨.invoking r.context r.world, w :: below⟩
  /-- A guest gets what came of the invocation that it has asked for. -/
  | resumes {outcome : Except Failure Context} {world : World} {w : Waiting} {below : List Waiting}
    {turn : Turn} (goes : Goes w.sandbox w.fuel turn) :
    Next platform ⟨.returning outcome world, w :: below⟩ ⟨turn, below⟩
  /-- There is nothing left to be done. -/
  | rests (outcome : Except Failure Context) (world : World) :
    Next platform ⟨.returning outcome world, []⟩ ⟨.returning outcome world, []⟩

/-- **What one step does is one of these.** -/
theorem next_step (platform : Platform) (s : State) : Next platform s (s.step platform) := by
  obtain ⟨turn, below⟩ := s
  cases turn with
  | invoking context world =>
    rw [step]
    split
    · rename_i failed
      exact .refused failed
    · rename_i prepared
      exact .starts prepared (goes_begin _ _ _)
  | running f =>
    rw [step]
    split
    · exact .stops _ _ _ _
    · rename_i fuel had
      split
      · exact .goesOn had (.on _ rfl (Nat.le_refl _))
      · exact .goesOn had (f.goes_finish _ _ _)
      · exact .stops _ _ _ _
      · rename_i index arguments machine _
        unfold call
        split
        · rename_i asked
          exact .asks rfl had asked
        · exact .goesOn had
            (Waiting.goes_resume _ ⟨{ f with fuel := fuel, machine := machine }, index, arguments⟩)
  | returning outcome world =>
    cases below with
    | nil => exact .rests _ _
    | cons w below => exact .resumes (w.goes_resume _)

end State

/-! ## What comes of a guest at work -/

/-- The part of a run that calls the entry. -/
def entryFrom (invoke : Invoke) (s : Sandbox) (rest : Rest) : Running (Except Failure Int32) :=
  match s.entry rest.memory with
  | .error e => return .error e
  | .ok machine => do
    let rest ← drive invoke s rest.fuel machine
    return .ok (report rest.results)

/-- The part of a run that is left to a guest at work. -/
def Frame.rest (invoke : Invoke) (f : Frame) : Running (Except Failure Int32) := do
  let rest ← drive invoke f.sandbox f.fuel f.machine
  if f.entered then return .ok (report rest.results) else entryFrom invoke f.sandbox rest

/-- The way in which the nested invocations of a sandbox are carried out. -/
def deeper (platform : Platform) (s : Sandbox) : Invoke :=
  Invocation.invoke platform (Invocation.levels platform (s.context.depth + 1))

/-- What comes of what the host is about to do, if it does not look at the guests that wait. -/
def Turn.comes (platform : Platform) : Turn → Except Failure Context × World
  | .invoking context world =>
    (Invocation.invoke platform (Invocation.levels platform context.depth) context).run world
  | .running f => conclude f.sandbox ((f.rest (deeper platform f.sandbox)).run f.around)
  | .returning outcome world => (outcome, world)

/-- What comes of the invocation at the bottom: each guest that waits gets what comes of the one
above it. -/
def State.comes (platform : Platform) (s : State) : Except Failure Context × World :=
  s.below.foldl (fun come w => (w.resume (answered come.1 come.2)).comes platform)
    (s.turn.comes platform)

variable {platform : Platform} {s : Sandbox} {around : Surroundings}

theorem callEntry_eq (invoke : Invoke) (s : Sandbox) (fuel : Nat) :
    callEntry invoke s fuel = instantiate invoke s fuel >>= entryFrom invoke s := rfl

theorem comes_enter (rest : Rest) (around : Surroundings) :
    (enter s rest.fuel rest.memory around).comes platform =
      conclude s ((entryFrom (deeper platform s) s rest).run around) := by
  unfold enter entryFrom
  cases s.entry rest.memory with
  | error e => rfl
  | ok machine => rfl

theorem comes_begin (limit : Option Nat) (s : Sandbox) (world : World) :
    (begin s (limit.getD unlimited) world).comes platform =
      (s.run (deeper platform s) limit).run world := by
  rw [run_run, callEntry_eq]
  unfold begin instantiate
  cases s.loaded with
  | error cause => rfl
  | ok memory =>
    cases s.program.start with
    | none => exact comes_enter ⟨_, [], memory⟩ _
    | some index => rfl

theorem Frame.comes_finish (f : Frame) (rest : Rest) :
    (f.finish rest.fuel rest.results rest.memory).comes platform =
      conclude f.sandbox
        ((if f.entered then return .ok (report rest.results)
          else entryFrom (deeper platform f.sandbox) f.sandbox rest :
          Running (Except Failure Int32)).run f.around) := by
  unfold finish
  cases f.entered with
  | true => rfl
  | false => exact comes_enter rest f.around

/-- What comes of a guest that calls an imported function is what comes of it behind the call. -/
theorem Waiting.comes_resume (invoke : Invoke) (w : Waiting) {machine : Wasm.Machine}
    (calls : machine.step = .calling w.index w.arguments w.machine)
    (same : (hostCall invoke w.sandbox w.index w.arguments w.machine.memory).run w.around =
      (hostCall (deeper platform w.sandbox) w.sandbox w.index w.arguments w.machine.memory).run
        w.around) :
    (w.resume invoke).comes platform =
      (Turn.running { w.toFrame with fuel := w.fuel + 1, machine := machine }).comes platform := by
  unfold resume
  rw [same]
  simp only [Turn.comes, Frame.rest, run_bind, run_drive_calling _ calls]
  obtain ⟨outcome, around⟩ :=
    (hostCall (deeper platform w.sandbox) w.sandbox w.index w.arguments w.machine.memory).run
      w.around
  cases outcome with
  | error e => rfl
  | ok come => rfl

/-- What an imported function does depends on the invocation only that it asks for. -/
theorem Waiting.hostCall_eq {invoke invoke' : Invoke} (w : Waiting)
    (agree : ∀ r, w.request? = some r → Agree invoke invoke' r) :
    (hostCall invoke w.sandbox w.index w.arguments w.machine.memory).run w.around =
      (hostCall invoke' w.sandbox w.index w.arguments w.machine.memory).run w.around := by
  refine hostCall_congr fun n hn => agree _ ?_
  unfold nestedCall at hn
  unfold request?
  split at hn
  · cases hn
  · rename_i f called
    dsimp only at hn
    split at hn
    · cases hn
    · rename_i r asked
      rw [List.mem_singleton.mp hn, called, Option.bind_some, asked]

/-- An invocation asked for is one level deeper. -/
theorem Waiting.depth_of_request {w : Waiting} {r : Request} (asked : w.request? = some r) :
    r.context.depth = w.sandbox.context.depth + 1 := by
  obtain ⟨f, -, asked⟩ := Option.bind_eq_some_iff.mp asked
  exact (Backing.nestedIn_request asked).1.extends.depth_eq

/-- A sandbox is prepared in the context asked for, the depth of which is allowed. -/
theorem prepared_of_run {context : Context} {world after : World}
    (prepared : (Sandbox.prepare platform context).run world = (.ok s, after)) :
    s.context = context ∧ context.depth ≤ platform.config.maxLinkDepth := by
  have ready : Sandbox.Prepared platform context s :=
    Activation.prepared (a := ⟨1, context, world⟩) (w := after)
      (by simp only [Activation.sandbox?, prepared])
  exact ⟨ready.context_eq, ready.depth_le⟩

/-- Where the depth is allowed, the levels left are one more than those for what is invoked. -/
theorem levels_eq {depth : Nat} (allowed : depth ≤ platform.config.maxLinkDepth) :
    Invocation.levels platform depth = Invocation.levels platform (depth + 1) + 1 := by
  unfold Invocation.levels
  omega

/-- What comes of an invocation for which no sandbox can be prepared. -/
theorem invoke_of_refused {context : Context} {world after : World} {e : Failure}
    (failed : (Sandbox.prepare platform context).run world = (.error e, after)) :
    (Invocation.invoke platform (Invocation.levels platform context.depth) context).run world =
      (.error e, after) := by
  cases left : Invocation.levels platform context.depth with
  | zero =>
    -- it is the depth that is refused
    have deep : platform.config.maxLinkDepth < context.depth := by
      unfold Invocation.levels at left
      omega
    have refusal : (Sandbox.prepare platform context).run world =
        (.error (.depthExceeded context.guest platform.config.maxLinkDepth), world) := by
      unfold Sandbox.prepare
      rw [if_pos deep]
      rfl
    cases refusal.symm.trans failed
    rfl
  | succ levels => rw [Invocation.invoke, run_bind, failed]

namespace State

/-- A call of an imported function does not change what comes of the invocation at the bottom. -/
theorem comes_call (w : Waiting) (below : List Waiting) {machine : Wasm.Machine}
    (calls : machine.step = .calling w.index w.arguments w.machine) :
    (call w below).comes platform =
      (⟨.running { w.toFrame with fuel := w.fuel + 1, machine := machine }, below⟩ :
        State).comes platform := by
  unfold call
  split
  · rename_i r asked
    refine congrArg (below.foldl _) (w.comes_resume _ calls (w.hostCall_eq fun r' asked' => ?_))
    obtain rfl := Option.some.inj (asked.symm.trans asked')
    rw [Agree, deeper, ← w.depth_of_request asked]
    exact run_ofExcept _ _
  · rename_i unasked
    refine congrArg (below.foldl _) (w.comes_resume _ calls (w.hostCall_eq fun r asked => ?_))
    rw [unasked] at asked
    cases asked

/-- **No step changes what comes of the invocation at the bottom.** -/
theorem comes_step (platform : Platform) (s : State) :
    (s.step platform).comes platform = s.comes platform := by
  obtain ⟨turn, below⟩ := s
  cases turn with
  | invoking context world =>
    rw [step]
    split
    · rename_i failed
      exact congrArg (below.foldl _) (invoke_of_refused failed).symm
    · rename_i prepared
      refine congrArg (below.foldl _) ((comes_begin _ _ _).trans ?_)
      obtain ⟨context_eq, allowed⟩ := prepared_of_run prepared
      rw [Turn.comes, levels_eq allowed, Invocation.invoke, run_bind, prepared, deeper, context_eq]
  | running f =>
    obtain ⟨s, entered, fuel, machine, around⟩ := f
    cases fuel with
    | zero => rfl
    | succ fuel =>
      rw [step]
      dsimp only
      split
      · rename_i went
        refine congrArg (below.foldl _) ?_
        simp only [Turn.comes, Frame.rest, drive, went]
      · rename_i ended
        refine congrArg (below.foldl _) ((Frame.comes_finish _ ⟨fuel, _, _⟩).trans ?_)
        simp only [Turn.comes, Frame.rest, drive, ended]
        rfl
      · rename_i trapped
        refine congrArg (below.foldl _) ?_
        simp only [Turn.comes, Frame.rest, drive, trapped]
        rfl
      · rename_i calls
        exact comes_call _ below calls
  | returning outcome world =>
    cases below with
    | nil => rfl
    | cons w below => rfl

end State

end Stack

end GuestHost
