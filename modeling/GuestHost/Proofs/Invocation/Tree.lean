import GuestHost.Host
import GuestHost.Proofs.Preparation
import GuestHost.Proofs.Sandbox.Nested
import Mathlib.Data.List.Chain
import Mathlib.Logic.Relation
/-!
# The tree of an invocation

An invocation calls others while it runs, and these call others in their turn. `Activation.Calls`
relates an activation to those that it calls itself, and `Activation.Within` to all that come of
it. An activation runs if a sandbox could be prepared for it. Of every activation that runs the
depth is allowed and the chain tells how it came about, `nesting_bounded`, so no call stack has
more activations than the depth allows.
-/

namespace GuestHost

open Stateful

/-- One invocation: the levels left for it, its context, and the world in which it starts. -/
structure Activation where
  levels : Nat
  context : Context
  world : World

namespace Activation

variable {platform : Platform} {a b : Activation} {n : Nested}

/-- The activation of an invocation by the owner of a host. -/
def root (h : Host) (context : Context) : Activation :=
  ⟨Invocation.levels h.platform context.depth, context, h.world⟩

/-- What comes of an activation. -/
def outcome (platform : Platform) (a : Activation) : Except Failure Context :=
  ((Invocation.invoke platform a.levels a.context).run a.world).1

/-- The sandbox that an activation runs and the world in which it does, unless it fails before. -/
def sandbox? (platform : Platform) (a : Activation) : Option (Sandbox × World) :=
  match a.levels, (Sandbox.prepare platform a.context).run a.world with
  | _ + 1, (.ok s, w) => some (s, w)
  | _, _ => none

/-- An activation gets as far as running code of its guest. -/
def Runs (platform : Platform) (a : Activation) : Prop := (a.sandbox? platform).isSome

/-- The nested invocations that an activation makes. -/
def nested (platform : Platform) (a : Activation) : List Nested :=
  match a.sandbox? platform with
  | some (s, w) => s.nested (Invocation.invoke platform (a.levels - 1)) platform.config.fuel w
  | none => []

/-- The activation of a nested invocation. -/
def child (a : Activation) (n : Nested) : Activation := ⟨a.levels - 1, n.context, n.world⟩

/-- An activation calls another. -/
def Calls (platform : Platform) (a b : Activation) : Prop :=
  ∃ n ∈ a.nested platform, b = a.child n

/-- An activation belongs to what comes of another. -/
def Within (platform : Platform) : Activation → Activation → Prop :=
  Relation.ReflTransGen (Calls platform)

/-! ## The tree and the outcomes -/

/-- The activation at the root comes to what the host is told. -/
theorem outcome_root (h : Host) (context : Context) :
    (root h context).outcome h.platform = (h.invoke context).1 := rfl

theorem sandbox?_eq_some {s : Sandbox} {w : World} (h : a.sandbox? platform = some (s, w)) :
    ∃ levels, a.levels = levels + 1 ∧
      (Sandbox.prepare platform a.context).run a.world = (.ok s, w) := by
  unfold sandbox? at h
  split at h
  · rename_i levels s' w' hlevels prepared
    obtain ⟨rfl, rfl⟩ := Prod.mk.inj (Option.some.inj h)
    exact ⟨levels, hlevels, prepared⟩
  · cases h

/-- An activation that runs comes to what its sandbox comes to. -/
theorem outcome_of_sandbox? {s : Sandbox} {w : World} (h : a.sandbox? platform = some (s, w)) :
    a.outcome platform =
      ((s.run (Invocation.invoke platform (a.levels - 1)) platform.config.fuel).run w).1 := by
  obtain ⟨levels, hlevels, prepared⟩ := sandbox?_eq_some h
  simp only [outcome, hlevels, Invocation.invoke, run_bind, prepared, Nat.add_sub_cancel]

theorem mem_nested (h : n ∈ a.nested platform) : ∃ s w, a.sandbox? platform = some (s, w) ∧
    n ∈ s.nested (Invocation.invoke platform (a.levels - 1)) platform.config.fuel w := by
  unfold nested at h
  split at h
  · rename_i s w prepared
    exact ⟨s, w, prepared, h⟩
  · simp at h

/-- The nested invocations of a sandbox are those of the activation that has prepared it. -/
theorem nested_eq {levels : Nat} {context : Context} {w t : World} {s : Sandbox}
    (prepared : (Sandbox.prepare platform context).run w = (.ok s, t)) :
    nested platform ⟨levels + 1, context, w⟩ =
      s.nested (Invocation.invoke platform levels) platform.config.fuel t := by
  unfold nested sandbox?
  simp only [prepared, Nat.add_sub_cancel]

/-- A sandbox that an activation runs has been prepared for its context. -/
theorem prepared {s : Sandbox} {w : World} (h : a.sandbox? platform = some (s, w)) :
    Sandbox.Prepared platform a.context s := by
  obtain ⟨_, -, prepared⟩ := sandbox?_eq_some h
  have spec := Sandbox.obeys_prepare (I := fun _ => True) (fun _ _ _ => trivial)
    (fun _ _ _ => ⟨trivial, fun _ _ => trivial⟩) platform a.context a.world trivial
  exact spec.2 s (by rw [prepared])

/-- What a nested invocation answers follows from what its activation comes to. -/
theorem answer_eq (h : n ∈ a.nested platform) :
    n.answer = n.via.answer ((a.child n).outcome platform) := by
  obtain ⟨s, w, -, hn⟩ := mem_nested h
  obtain ⟨f, -, site, -, asked, answer⟩ := Sandbox.makes_of_mem hn
  rw [answer, f.run_value _ asked]
  rfl

/-- **The tree is complete**: what an activation comes to depends on other invocations by those
that it calls only. -/
theorem outcome_congr {s : Sandbox} {w : World} (h : a.sandbox? platform = some (s, w))
    {invoke : Invoke} (agree : ∀ n ∈ a.nested platform,
      Agree (Invocation.invoke platform (a.levels - 1)) invoke n.toRequest) :
    a.outcome platform = ((s.run invoke platform.config.fuel).run w).1 := by
  rw [outcome_of_sandbox? h]
  refine congrArg Prod.fst (Sandbox.run_congr fun n hn => agree n ?_)
  simpa only [nested, h] using hn

/-! ## Contexts in the tree -/

/-- **A nested invocation extends the one that calls it**, and a link leads out of its chain. -/
theorem extends_nested (h : n ∈ a.nested platform) :
    n.context.Extends a.context.toInvocation ∧
      (n.via = .link → n.context.guest ∉ a.context.chain) := by
  obtain ⟨s, w, hs, hn⟩ := mem_nested h
  obtain ⟨f, hf, site, hsite, asked, -⟩ := Sandbox.makes_of_mem hn
  have ready := prepared hs
  obtain ⟨nests, linked⟩ := Backing.nestedIn_request asked
  -- the call was made in the context that the activation was prepared for
  rw [hsite, ready.context_eq] at nests
  refine ⟨nests.extends, fun link => ?_⟩
  obtain ⟨entry, backing⟩ := linked link
  exact ready.acyclic f hf _ entry backing

theorem depth_le_of_runs (h : a.Runs platform) :
    a.context.depth ≤ platform.config.maxLinkDepth := by
  obtain ⟨⟨s, w⟩, hs⟩ := Option.isSome_iff_exists.mp h
  exact (prepared hs).depth_le

end Activation

namespace Context

/-- The contexts that can be put together: one at the top or nested in another, changed by the
operations on contexts. -/
inductive Built : Context → Prop where
  | top (guest entry : String) : Built (top guest entry)
  | nested {c : Context} (guest entry : String) :
      Built c → Built (nested c.toInvocation guest entry)
  | arguments {c : Context} (arguments : List Int32) : Built c → Built (c.withArguments arguments)
  | mode {c : Context} (mode : Mode) : Built c → Built (c.withMode mode)
  | program {c : Context} (program : String) (arguments : List String) :
      Built c → Built (c.withProgram program arguments)
  | buffers {c : Context} (input output : Nat) : Built c → Built (c.withBuffers input output)
  | trace {c : Context} (trace : Bool) : Built c → Built (c.withTrace trace)
  | returned {c : Context} (result : Int32) : Built c → Built (c.returned result)
  | exited {c : Context} (code : Int32) : Built c → Built (c.exited code)

/-- A context whose chain tells how it came about: as many guests as it is deep, with the outermost
one besides, down to its own. -/
structure WellFormed (c : Context) : Prop where
  length_chain : c.chain.length = c.depth + 1
  last_chain : c.chain.getLast? = some c.guest

end Context

theorem Context.Extends.wellFormed {c parent : Context} (h : c.Extends parent.toInvocation)
    (hp : parent.WellFormed) : c.WellFormed := by
  refine ⟨?_, ?_⟩
  · rw [h.chain_eq, h.depth_eq, List.length_append, hp.length_chain]
    rfl
  · rw [h.chain_eq, List.getLast?_append]
    rfl

/-- **Every context that can be put together is well formed.** -/
theorem Context.Built.wellFormed {c : Context} (h : c.Built) : c.WellFormed := by
  induction h with
  | top guest entry => exact ⟨rfl, rfl⟩
  | nested guest entry _ ih => exact Extends.wellFormed ⟨rfl, rfl⟩ ih
  | arguments _ _ ih => exact ⟨ih.length_chain, ih.last_chain⟩
  | mode _ _ ih => exact ⟨ih.length_chain, ih.last_chain⟩
  | program _ _ _ ih => exact ⟨ih.length_chain, ih.last_chain⟩
  | buffers _ _ _ ih => exact ⟨ih.length_chain, ih.last_chain⟩
  | trace _ _ ih => exact ⟨ih.length_chain, ih.last_chain⟩
  | returned _ _ ih => exact ⟨ih.length_chain, ih.last_chain⟩
  | exited _ _ ih => exact ⟨ih.length_chain, ih.last_chain⟩

namespace Activation

variable {platform : Platform} {a b : Activation} {n : Nested}

theorem Calls.extends (h : Calls platform a b) : b.context.Extends a.context.toInvocation := by
  obtain ⟨n, hn, rfl⟩ := h
  exact (extends_nested hn).1

/-- Contexts are well formed all over the tree if they are at its root. -/
theorem Within.wellFormed (h : Within platform a b) (ha : a.context.WellFormed) :
    b.context.WellFormed := by
  induction h with
  | refl => exact ha
  | tail _ calls ih => exact calls.extends.wellFormed ih

/-- A call stack gets one deeper with every activation on it. -/
theorem length_stack_le {stack : List Activation}
    (chain : List.IsChain (Calls platform) (a :: stack))
    (runs : ∀ b ∈ a :: stack, b.Runs platform) :
    a.context.depth + stack.length ≤ platform.config.maxLinkDepth := by
  -- the innermost activation is as deep as the stack is long, and it runs
  induction stack generalizing a with
  | nil => exact depth_le_of_runs (runs a List.mem_cons_self)
  | cons b rest ih =>
    obtain ⟨calls, chain⟩ := List.isChain_cons_cons.mp chain
    have deeper := calls.extends.depth_eq
    have bound := ih chain fun c hc => runs c (List.mem_cons_of_mem _ hc)
    rw [List.length_cons]
    omega

/-- **Nesting is bounded and well formed.** Whatever comes of an invocation, every activation that
runs has a depth that is allowed and a chain of one guest more, of which its own is the last; every
nested invocation extends the chain of its caller by its own guest and is one deeper, and one made
through a link is of a guest that the chain has not had; and no call stack is longer than the depth
allows. -/
theorem nesting_bounded (h : Host) (context : Context) (built : context.Built) :
    (∀ a, Within h.platform (root h context) a →
      (a.Runs h.platform → a.context.depth ≤ h.platform.config.maxLinkDepth ∧
        a.context.chain.length = a.context.depth + 1 ∧
        a.context.chain.getLast? = some a.context.guest) ∧
      ∀ n ∈ a.nested h.platform,
        n.context.chain = a.context.chain ++ [n.context.guest] ∧
        n.context.depth = a.context.depth + 1 ∧
        (n.via = .link → n.context.guest ∉ a.context.chain)) ∧
    ∀ stack, List.IsChain (Calls h.platform) (root h context :: stack) →
      (∀ a ∈ root h context :: stack, a.Runs h.platform) →
      (root h context :: stack).length ≤ h.platform.config.maxLinkDepth + 1 := by
  refine ⟨fun a within => ⟨fun runs => ?_, fun n hn => ?_⟩, fun stack chain runs => ?_⟩
  · have formed := Within.wellFormed within built.wellFormed
    exact ⟨depth_le_of_runs runs, formed.length_chain, formed.last_chain⟩
  · obtain ⟨nests, linked⟩ := extends_nested hn
    exact ⟨nests.chain_eq, nests.depth_eq, linked⟩
  · have bound := length_stack_le chain runs
    rw [List.length_cons]
    omega

/-- A guest whose entry calls another through a link, and then the same by its name. -/
def nester : String :=
  "(module (import \"inner\" \"run\" (func $linked (result i32)))" ++
    " (import \"core\" \"call_function\"" ++
    " (func $named (param i32 i32 i32 i32 i32 i32 i32 i32 i32 i32) (result i32)))" ++
    " (memory (export \"memory\") 1) (data (i32.const 0) \"innerrun\")" ++
    " (func (export \"run\") (result i32) call $linked drop" ++
    " i32.const 0 i32.const 5 i32.const 5 i32.const 3" ++
    " i32.const 0 i32.const 0 i32.const 0 i32.const 0 i32.const 0 i32.const 0 call $named))"

/-- The guest as it is compiled. -/
def nesterModule : Wasm.Module where
  imports := [⟨"inner", "run", .function ⟨[], [.i32]⟩⟩,
    ⟨"core", "call_function", .function ⟨List.replicate 10 .i32, [.i32]⟩⟩]
  functions := #[⟨⟨[], [.i32]⟩, [], [.call 0, .drop, .const (.i32 0), .const (.i32 5),
    .const (.i32 5), .const (.i32 3), .const (.i32 0), .const (.i32 0), .const (.i32 0),
    .const (.i32 0), .const (.i32 0), .const (.i32 0), .call 1]⟩]
  exports := [("run", .function 2), ("memory", .memory 0)]
  memories := [1]
  data := [⟨0, Utf8.encode "innerrun"⟩]
  start := none

/-- The guest that it calls. -/
def seven : String := "(module (func (export \"run\") (result i32) i32.const 7))"

/-- The guest that it calls, as it is compiled. -/
def sevenModule : Wasm.Module :=
  ⟨[], #[⟨⟨[], [.i32]⟩, [], [.const (.i32 7)]⟩], [("run", .function 0)], [], [], none⟩

/-- A host that has compiled both. -/
@[irreducible]
def nesterHost : Host :=
  let h := ((Host.new .default .offline 0).registerGuest "inner" (Utf8.encode seven)).2
  let h := (h.registerGuest "outer" (Utf8.encode nester)).2
  ⟨h.platform, { h.world with
    modules := .ofList [(Store.Blob.idOf (Utf8.encode seven), sevenModule),
      (Store.Blob.idOf (Utf8.encode nester), nesterModule)] }⟩

/-- Whether an invocation makes two calls, one through a link and one by name, of guests that run. -/
def nests (h : Host) (context : Context) : Bool :=
  match (root h context).nested h.platform with
  | [n, m] =>
    n.via == .link && m.via == .name &&
      (((root h context).child n).sandbox? h.platform).isSome &&
      (((root h context).child m).sandbox? h.platform).isSome
  | _ => false

theorem nests_nesterHost : nests nesterHost (.top "outer" "run") = true := by decide +kernel

/-- Both of its calls are within the bound, and the link leads to another guest. -/
theorem nesting_bounded_nester : (Context.top "outer" "run").Built ∧ ∃ n m,
    (root nesterHost (.top "outer" "run")).nested nesterHost.platform = [n, m] ∧
      n.via = .link ∧ n.context.guest ≠ "outer" ∧ m.via = .name ∧
      ∀ call ∈ [n, m], call.context.depth = 1 ∧
        call.context.chain = ["outer", call.context.guest] ∧
        call.context.depth ≤ nesterHost.platform.config.maxLinkDepth := by
  have built := Context.Built.top "outer" "run"
  have bounded := (nesting_bounded nesterHost (.top "outer" "run") built).1
  have both := nests_nesterHost
  unfold nests at both
  split at both
  · rename_i n m calls
    simp only [Bool.and_eq_true, beq_iff_eq] at both
    obtain ⟨⟨⟨link, name⟩, runs⟩, runs'⟩ := both
    obtain ⟨-, extends_⟩ := bounded _ .refl
    rw [calls] at extends_
    have other := (extends_ n (by simp)).2.2 link
    have root_chain : (root nesterHost (.top "outer" "run")).context.chain = ["outer"] := rfl
    refine ⟨built, n, m, calls, link, fun same => other (by simp [root_chain, same]), name,
      fun call made => ?_⟩
    obtain ⟨chain, depth, -⟩ := extends_ call made
    have made' : call ∈ (root nesterHost (.top "outer" "run")).nested nesterHost.platform :=
      calls ▸ made
    have allowed : ((root nesterHost (.top "outer" "run")).child call).Runs nesterHost.platform := by
      rcases List.mem_pair.mp made with rfl | rfl
      · exact runs
      · exact runs'
    exact ⟨depth, chain, ((bounded _ (.single ⟨call, made', rfl⟩)).1 allowed).1⟩
  · cases both

end Activation

end GuestHost
