import GuestHost.Proofs.Invocation.Stack
import Mathlib.Logic.Function.Iterate
/-!
# Invocations end

If every run has so much fuel and no more, an invocation ends, however its guests call each other
and whatever they do with failures. Neither the fuel nor the depth alone gets less with every step,
since every guest that is called starts with fuel of its own. What does is the price of what is left
to be done, `Tariff.price`: a unit of fuel of a guest is worth an invocation one level deeper, with
all that may come of that. Every step is paid for out of the price, `Tariff.due_add_price_le`, and
so is every run, `State.total_add_price_le`. By the tariff for steps the host comes to rest, and by
that for sandboxes it starts so many and no more. How many there are at a time is told by their
depths, `State.Stacked`.
-/

namespace GuestHost

open Sandbox

namespace Stack

variable {platform : Platform}

/-! ## Prices -/

/-- What is charged for the steps of a host: for an invocation by the levels that are left for it,
for a step of a guest, and for the handing over of what came of an invocation. -/
structure Tariff where
  invoke : Nat → Nat
  run : Nat
  resume : Nat

namespace Tariff

/-- Every step is charged. -/
def steps : Tariff := ⟨fun _ => 1, 1, 1⟩

/-- Invocations are charged, but those that are too deep. -/
def sandboxes : Tariff := ⟨fun levels => if levels = 0 then 0 else 1, 0, 0⟩

/-- The price of an invocation with so many levels left, and of all that may come of it where every
run has so much fuel. -/
def invocation (t : Tariff) (fuel : Nat) : Nat → Nat
  | 0 => t.invoke 0
  | levels + 1 =>
    t.invoke (levels + 1) + t.run + fuel * (t.run + t.resume + t.invocation fuel levels)

variable (t : Tariff) (platform : Platform)

/-- The price of an invocation of some depth. -/
def ofDepth (depth : Nat) : Nat :=
  t.invocation (platform.config.fuel.getD unlimited) (Invocation.levels platform depth)

/-- The price of a guest with so much fuel left: with every unit of it the guest may invoke another,
one level deeper. -/
def ofGuest (s : Sandbox) (fuel : Nat) : Nat :=
  t.run + fuel * (t.run + t.resume + t.ofDepth platform (s.context.depth + 1))

/-- The price of what the host is about to do, without the guests that wait. -/
def ofTurn : Turn → Nat
  | .invoking context _ => t.ofDepth platform context.depth
  | .running f => t.ofGuest platform f.sandbox f.fuel
  | .returning _ _ => 0

/-- The price of the guests that wait. -/
def ofBelow : List Waiting → Nat
  | [] => 0
  | w :: below => t.resume + t.ofGuest platform w.sandbox w.fuel + ofBelow below

/-- The price of all that is left to be done. -/
def price (s : State) : Nat := t.ofTurn platform s.turn + t.ofBelow platform s.below

/-- What is charged for the next step. -/
def due : State → Nat
  | ⟨.invoking context _, _⟩ => t.invoke (Invocation.levels platform context.depth)
  | ⟨.running _, _⟩ => t.run
  | ⟨.returning _ _, _ :: _⟩ => t.resume
  | ⟨.returning _ _, []⟩ => 0

variable {t platform}

@[simp] theorem ofTurn_invoking (context : Context) (world : World) :
    t.ofTurn platform (.invoking context world) = t.ofDepth platform context.depth := rfl

@[simp] theorem ofTurn_running (f : Frame) :
    t.ofTurn platform (.running f) = t.ofGuest platform f.sandbox f.fuel := rfl

@[simp] theorem ofTurn_returning (outcome : Except Failure Context) (world : World) :
    t.ofTurn platform (.returning outcome world) = 0 := rfl

theorem invoke_le_ofDepth (t : Tariff) (platform : Platform) (depth : Nat) :
    t.invoke (Invocation.levels platform depth) ≤ t.ofDepth platform depth := by
  unfold ofDepth
  cases Invocation.levels platform depth with
  | zero => exact Nat.le_refl _
  | succ levels =>
    rw [invocation]
    omega

/-- An invocation for which a sandbox has been prepared is worth that sandbox with all its fuel. -/
theorem ofDepth_of_prepared {context : Context} {world after : World} {s : Sandbox}
    (prepared : (Sandbox.prepare platform context).run world = (.ok s, after)) :
    t.ofDepth platform context.depth = t.invoke (Invocation.levels platform context.depth) +
      t.ofGuest platform s (platform.config.fuel.getD unlimited) := by
  obtain ⟨context_eq, allowed⟩ := prepared_of_run prepared
  rw [ofDepth, levels_eq allowed, invocation, ofGuest, context_eq, ofDepth, Nat.add_assoc]

/-- A guest with one unit of fuel more is worth a step more, and an invocation more. -/
theorem ofGuest_succ (s : Sandbox) (fuel : Nat) :
    t.ofGuest platform s (fuel + 1) = t.run +
      (t.ofDepth platform (s.context.depth + 1) + (t.resume + t.ofGuest platform s fuel)) := by
  rw [ofGuest, ofGuest, Nat.succ_mul]
  omega

theorem ofTurn_le_of_goes (t : Tariff) (platform : Platform) {s : Sandbox} {fuel : Nat}
    {turn : Turn} (goes : Goes s fuel turn) :
    t.ofTurn platform turn ≤ t.ofGuest platform s fuel := by
  cases goes with
  | on f same left =>
    subst same
    exact Nat.add_le_add_left (Nat.mul_le_mul_right _ left) _
  | back outcome world => exact Nat.zero_le _

/-- **A step is paid for out of the price** of what is left to be done. -/
theorem due_add_price_le {s s' : State} (next : State.Next platform s s') :
    t.due platform s + t.price platform s' ≤ t.price platform s := by
  unfold price
  cases next with
  | @refused context =>
    have worth := t.invoke_le_ofDepth platform context.depth
    simp only [due, ofTurn_invoking, ofTurn_returning]
    omega
  | starts prepared goes =>
    have turn := t.ofTurn_le_of_goes platform goes
    simp only [due, ofTurn_invoking, ofDepth_of_prepared prepared]
    omega
  | stops f below =>
    simp only [due, ofTurn_running, ofTurn_returning, ofGuest]
    omega
  | goesOn had goes =>
    have turn := t.ofTurn_le_of_goes platform goes
    simp only [due, ofTurn_running, had, ofGuest_succ]
    omega
  | asks same had asked =>
    simp only [due, ofTurn_running, ofTurn_invoking, ofBelow, had, ofGuest_succ,
      Waiting.depth_of_request asked, same]
    omega
  | resumes goes =>
    have turn := t.ofTurn_le_of_goes platform goes
    simp only [due, ofTurn_returning, ofBelow]
    omega
  | rests => exact Nat.le_of_eq (Nat.zero_add _)

end Tariff

/-! ## Runs of the host -/

namespace State

/-- What a quantity of states adds up to over so many steps. -/
def total (platform : Platform) (quantity : State → Nat) : Nat → State → Nat
  | 0, _ => 0
  | steps + 1, s => quantity s + total platform quantity steps (s.step platform)

/-- **A run is paid for out of the price** of what is left to be done at its start. -/
theorem total_add_price_le (t : Tariff) (platform : Platform) (n : Nat) (s : State) :
    total platform (t.due platform) n s + t.price platform ((step platform)^[n] s) ≤
      t.price platform s := by
  induction n generalizing s with
  | zero => exact Nat.le_of_eq (Nat.zero_add _)
  | succ n ih =>
    have first := t.due_add_price_le (next_step platform s)
    have later := ih (s.step platform)
    rw [total, Function.iterate_succ_apply]
    omega

/-- A quantity that is charged for adds up to no more than the price. -/
theorem total_le_price {t : Tariff} {quantity : State → Nat}
    (charged : ∀ s, quantity s ≤ t.due platform s) (n : Nat) (s : State) :
    total platform quantity n s ≤ t.price platform s := by
  have less : total platform quantity n s ≤ total platform (t.due platform) n s := by
    induction n generalizing s with
    | zero => exact Nat.le_refl _
    | succ n ih => exact Nat.add_le_add (charged s) (ih _)
  have paid := total_add_price_le t platform n s
  omega

/-- Nothing is left to be done. -/
def AtRest (s : State) : Prop := ∃ outcome world, s = ⟨.returning outcome world, []⟩

theorem due_steps_of_not_atRest {s : State} (active : ¬ s.AtRest) :
    Tariff.steps.due platform s = 1 := by
  obtain ⟨turn, below⟩ := s
  cases turn with
  | invoking context world => rfl
  | running f => rfl
  | returning outcome world =>
    cases below with
    | nil => exact absurd ⟨outcome, world, rfl⟩ active
    | cons w below => rfl

/-- **The host comes to rest** before it has taken more steps than the price is in steps. -/
theorem exists_atRest (platform : Platform) (s : State) :
    ∃ n ≤ Tariff.steps.price platform s, ((step platform)^[n] s).AtRest := by
  induction left : Tariff.steps.price platform s using Nat.strongRecOn generalizing s with
  | _ price ih =>
    by_cases active : s.AtRest
    · exact ⟨0, Nat.zero_le _, active⟩
    · have paid := Tariff.steps.due_add_price_le (next_step platform s)
      rw [due_steps_of_not_atRest active, left] at paid
      obtain ⟨n, few, rest⟩ := ih _ (by omega) (s.step platform) rfl
      exact ⟨n + 1, by omega, by rwa [Function.iterate_succ_apply]⟩

theorem comes_iterate (platform : Platform) (n : Nat) (s : State) :
    ((step platform)^[n] s).comes platform = s.comes platform := by
  induction n generalizing s with
  | zero => rfl
  | succ n ih => rw [Function.iterate_succ_apply, ih, comes_step]

/-- The number of sandboxes that the next step starts. -/
def starts (platform : Platform) : State → Nat
  | ⟨.invoking context world, _⟩ =>
    match (Sandbox.prepare platform context).run world with
    | (.ok _, _) => 1
    | (.error _, _) => 0
  | _ => 0

/-- Every sandbox that starts is charged for. -/
theorem starts_le_due (s : State) : s.starts platform ≤ Tariff.sandboxes.due platform s := by
  obtain ⟨turn, below⟩ := s
  cases turn with
  | invoking context world =>
    rw [starts]
    split
    · rename_i prepared
      rw [Tariff.due, levels_eq (prepared_of_run prepared).2]
      exact Nat.le_refl 1
    · exact Nat.zero_le _
  | running f => exact Nat.zero_le _
  | returning outcome world => exact Nat.zero_le _

/-! ## Depths -/

/-- The number of sandboxes on the stack: those of the guests that wait, and that of the guest at
work. -/
def height : State → Nat
  | ⟨.running _, below⟩ => below.length + 1
  | ⟨_, below⟩ => below.length

/-- The depths of the guests that wait ascend from that of the one at the bottom, and are
allowed. -/
def Ascends (platform : Platform) (bottom : Nat) : List Waiting → Prop
  | [] => True
  | w :: below =>
    w.sandbox.context.depth = bottom + below.length ∧
      w.sandbox.context.depth ≤ platform.config.maxLinkDepth ∧ Ascends platform bottom below

/-- The depths of a stack ascend from that of the invocation at the bottom. -/
structure Stacked (platform : Platform) (bottom : Nat) (s : State) : Prop where
  below : Ascends platform bottom s.below
  invoking : ∀ context world, s.turn = .invoking context world →
    context.depth = bottom + s.below.length
  running : ∀ f, s.turn = .running f → f.sandbox.context.depth = bottom + s.below.length ∧
    f.sandbox.context.depth ≤ platform.config.maxLinkDepth

namespace Stacked

variable {bottom : Nat} {below : List Waiting}

theorem returning (ascends : Ascends platform bottom below) (outcome : Except Failure Context)
    (world : World) : Stacked platform bottom ⟨.returning outcome world, below⟩ :=
  ⟨ascends, fun _ _ other => (nomatch other), fun _ other => (nomatch other)⟩

theorem of_goes {s : Sandbox} {fuel : Nat} {turn : Turn} (goes : Goes s fuel turn)
    (ascends : Ascends platform bottom below) (depth : s.context.depth = bottom + below.length)
    (allowed : s.context.depth ≤ platform.config.maxLinkDepth) :
    Stacked platform bottom ⟨turn, below⟩ := by
  cases goes with
  | on f same left =>
    subst same
    refine ⟨ascends, fun _ _ other => (nomatch other), ?_⟩
    rintro _ ⟨⟩
    exact ⟨depth, allowed⟩
  | back outcome world => exact returning ascends outcome world

/-- **A step keeps the depths ascending.** -/
theorem next {s s' : State} (h : Stacked platform bottom s) (next : Next platform s s') :
    Stacked platform bottom s' := by
  cases next with
  | refused failed => exact returning h.below _ _
  | starts prepared goes =>
    obtain ⟨context_eq, allowed⟩ := prepared_of_run prepared
    have depth := h.invoking _ _ rfl
    rw [← context_eq] at depth allowed
    exact of_goes goes h.below depth allowed
  | stops f below outcome world => exact returning h.below outcome world
  | goesOn had goes =>
    obtain ⟨depth, allowed⟩ := h.running _ rfl
    exact of_goes goes h.below depth allowed
  | asks same had asked =>
    obtain ⟨depth, allowed⟩ := h.running _ rfl
    rw [← same] at depth allowed
    refine ⟨⟨depth, allowed, h.below⟩, ?_, fun _ other => (nomatch other)⟩
    rintro _ _ ⟨⟩
    rw [Waiting.depth_of_request asked, depth, List.length_cons, Nat.add_assoc]
  | resumes goes =>
    obtain ⟨depth, allowed, ascends⟩ := h.below
    exact of_goes goes ascends depth allowed
  | rests => exact h

theorem iterate {s : State} (h : Stacked platform bottom s) (n : Nat) :
    Stacked platform bottom ((step platform)^[n] s) := by
  induction n generalizing s with
  | zero => exact h
  | succ n ih =>
    rw [Function.iterate_succ_apply]
    exact ih (h.next (next_step platform s))

/-- A stack is no higher than the depth allows. -/
theorem height_le {s : State} (h : Stacked platform bottom s) :
    s.height ≤ platform.config.maxLinkDepth + 1 := by
  obtain ⟨turn, below⟩ := s
  have waiting : below.length ≤ platform.config.maxLinkDepth + 1 := by
    cases below with
    | nil => exact Nat.zero_le _
    | cons w below =>
      obtain ⟨depth, allowed, -⟩ := h.below
      rw [List.length_cons]
      omega
  cases turn with
  | running f =>
    obtain ⟨depth, allowed⟩ := h.running _ rfl
    rw [height]
    dsimp only at depth
    omega
  | invoking context world => exact waiting
  | returning outcome world => exact waiting

end Stacked

end State

/-- The host about to carry out an invocation. -/
def asked (h : Host) (context : Context) : State := ⟨.invoking context h.world, []⟩

/-- **Fuel bounds the whole tree of an invocation.** Where every run has so much fuel, the host
takes no more steps for an invocation than its price is, and comes to rest with what the invocation
comes to; it starts no more sandboxes for it than a tree has that is as high as the depth allows
and branches with every unit of fuel; and no more of them are ever on the stack than the depth
allows. -/
theorem fuel_bounds_tree (h : Host) (context : Context) {fuel : Nat}
    (limited : h.platform.config.fuel = some fuel) :
    let levels := Invocation.levels h.platform context.depth
    (∃ n ≤ Tariff.steps.invocation fuel levels, (State.step h.platform)^[n] (asked h context) =
      ⟨.returning (h.invoke context).1 (h.invoke context).2.world, []⟩) ∧
    ∀ n, State.total h.platform (State.starts h.platform) n (asked h context) ≤
        Tariff.sandboxes.invocation fuel levels ∧
      ((State.step h.platform)^[n] (asked h context)).height ≤
        h.platform.config.maxLinkDepth + 1 := by
  intro levels
  have price (t : Tariff) : t.price h.platform (asked h context) = t.invocation fuel levels := by
    rw [Tariff.price, asked, Tariff.ofTurn_invoking, Tariff.ofDepth, limited]
    rfl
  refine ⟨?_, fun n => ⟨?_, ?_⟩⟩
  · obtain ⟨n, few, outcome, world, rest⟩ := State.exists_atRest h.platform (asked h context)
    refine ⟨n, price _ ▸ few, ?_⟩
    -- what the invocation comes to has been the same at every step
    have comes := State.comes_iterate h.platform n (asked h context)
    rw [rest] at comes ⊢
    obtain ⟨rfl, rfl⟩ := Prod.mk.inj comes
    rfl
  · rw [← price]
    exact State.total_le_price (fun s => s.starts_le_due) n _
  · have stacked : State.Stacked h.platform context.depth (asked h context) := by
      refine ⟨trivial, ?_, ?_⟩
      · rintro _ _ ⟨⟩
        rfl
      · rintro _ ⟨⟩
    exact (stacked.iterate n).height_le

/-- A guest whose entry calls itself by name again and again, whatever it gets for that. -/
def persistent : String :=
  "(module (import \"core\" \"call_function\"" ++
    " (func $c (param i32 i32 i32 i32 i32 i32 i32 i32 i32 i32) (result i32)))" ++
    " (memory (export \"memory\") 1) (data (i32.const 0) \"a\")" ++
    " (func (export \"a\") loop i32.const 0 i32.const 1 i32.const 0 i32.const 1" ++
    " i32.const 0 i32.const 0 i32.const 0 i32.const 0 i32.const 0 i32.const 0 call $c drop br 0" ++
    " end))"

/-- The settings of a host in which invocations may nest twice and runs have fuel. -/
def frugal : Config := ⟨2, some 50, "", 0⟩

/-- A host of one such guest. -/
def persistentHost : Host :=
  ⟨.standard frugal,
    ((Host.new frugal .offline 0).registerGuest "a" (Utf8.encode persistent)).2.world⟩

/-- The host comes to rest, and never has more than three sandboxes at a time. -/
theorem fuel_bounds_tree_persistent :
    let start := asked persistentHost (.top "a" "a")
    (∃ n ≤ 385202, ((State.step persistentHost.platform)^[n] start).AtRest) ∧
      ∀ n, State.total persistentHost.platform (State.starts persistentHost.platform) n start ≤
          2551 ∧
        ((State.step persistentHost.platform)^[n] start).height ≤ 3 := by
  have limited : persistentHost.platform.config.fuel = some 50 := rfl
  obtain ⟨⟨n, few, rest⟩, bounds⟩ := fuel_bounds_tree persistentHost (.top "a" "a") limited
  exact ⟨⟨n, few, _, _, rest⟩, bounds⟩

end Stack

end GuestHost
