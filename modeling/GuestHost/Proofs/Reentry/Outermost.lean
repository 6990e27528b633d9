import GuestHost.Proofs.Invocation.Tree
import GuestHost.Proofs.Reentry.Calls
/-!
# Nested invocations and outermost ones

On a host with nothing but the core functions, invocations that differ in their depth and their
chain end alike, if nothing fails of nesting on either side: `Invocation.ends_invoke`, by induction
on the levels that are left. So a guest that calls another gets what the owner of the host gets for
the same call, and leaves the same world: `Sandbox.nested_as_outermost`.
-/

namespace GuestHost

open Stateful

variable {K : Prop}

namespace Activation

variable {platform : Platform} {a b : Activation}

/-- Nothing that comes of an activation fails of nesting. -/
def Spared (platform : Platform) (a : Activation) : Prop :=
  ∀ b, Within platform a b → ∀ e, b.outcome platform = .error e → ¬ e.OfNesting

theorem Spared.child {n : Nested} (h : a.Spared platform) (hn : n ∈ a.nested platform) :
    (a.child n).Spared platform :=
  fun b within => h b (.head ⟨n, hn, rfl⟩ within)

/-- An activation whose sandbox cannot be prepared fails of the same. -/
theorem outcome_of_error {levels : Nat} {context : Context} {w t : World} {e : Failure}
    (failed : (Sandbox.prepare platform context).run w = (.error e, t)) :
    outcome platform ⟨levels + 1, context, w⟩ = .error e := by
  unfold outcome Invocation.invoke
  rw [run_bind, failed]

end Activation

namespace Invocation

open Activation

/-- **Invocations end alike** whatever their depth, their chain and the bound for the depth are,
as long as nothing fails of nesting. -/
theorem ends_invoke (config : Config) (max levels levels' : Nat) {c c' : Context}
    (contexts : c.Same K c') {w w' : World} (worlds : w.Same K w')
    (left : Spared (.standard config) ⟨levels, c, w⟩)
    (right : Spared ((Platform.standard config).withDepth max) ⟨levels', c', w'⟩) :
    Ends K ((invoke (.standard config) levels c).run w)
      ((invoke ((Platform.standard config).withDepth max) levels' c').run w') := by
  induction levels generalizing levels' c c' w w' with
  | zero => exact absurd trivial (left _ .refl _ rfl)
  | succ levels ih =>
    cases levels' with
    | zero => exact absurd trivial (right _ .refl _ rfl)
    | succ levels' =>
      obtain ⟨s, s', t, t', prepared, prepared', sandboxes, worlds⟩ |
        ⟨e, t, t', failed, failed', worlds⟩ | ⟨e, t, failed, ofNesting⟩ |
        ⟨e, t, failed, ofNesting⟩ :=
        (Sandbox.alike_prepare contexts (.standard config) max w w' worlds).cases
      · simp only [invoke, run_bind, prepared, prepared']
        -- what the two runs invoke is spared as well, and has fewer levels left
        have left' := fun n hn => left.child (n := n) (nested_eq prepared ▸ hn)
        have right' := fun n hn => right.child (n := n) (nested_eq prepared' ▸ hn)
        have matches' : Invoke.Matches K
            (fun r => Spared (.standard config) ⟨levels, r.context, r.world⟩)
            (fun r => Spared ((Platform.standard config).withDepth max)
              ⟨levels', r.context, r.world⟩)
            (invoke (.standard config) levels)
            (invoke ((Platform.standard config).withDepth max) levels') :=
          fun r r' requests good good' =>
            ih levels' requests.context_same requests.world_same good good'
        refine Sandbox.ends_run (fun index f called => ?_) sandboxes matches' worlds left' right'
        exact (Sandbox.plain_called (by rw [prepared]) called).blind
      · simp only [invoke, run_bind, failed, failed']
        exact .error e worlds
      · exact absurd ofNesting (left _ .refl e (outcome_of_error failed))
      · exact absurd ofNesting (right _ .refl e (outcome_of_error failed))

end Invocation

/-! ## Hosts and their owners -/

namespace Context

/-- The invocation that a context describes, made by the owner of a host: at the top and
untraced. -/
def atTop (c : Context) : Context :=
  (((top c.guest c.entry).withArguments c.arguments).withMode c.mode).withBuffers c.input c.output

/-- The context at another depth and with another chain. -/
def moved (c : Context) (depth : Nat) (chain : List String) : Context :=
  { c with depth := depth, chain := chain }

/-- A nested context is like one at the top, but for its depth, its chain and its trace. -/
theorem NestedIn.same_atTop {c : Context} {parent : Invocation} (h : c.NestedIn parent) :
    c.Same (parent.trace = false) c.atTop := by
  obtain ⟨guest, entry, arguments, mode, input, output, rfl⟩ := h
  exact ⟨_, ⟨false, 0, [guest], rfl, Eq.symm⟩, rfl⟩

end Context

/-- A guest invoked by the owner of a host with two new buffers, which are freed afterwards. -/
def Host.callGuest (h : Host) (guest entry : String) (arguments : List Int32) :
    Except Failure Context × Host :=
  let (input, world) := h.world.create
  let (output, world) := world.create
  let context := ((Context.top guest entry).withArguments arguments).withBuffers input output
  let (outcome, h) := { h with world := world }.invoke context
  (outcome, { h with world := ((h.world.release input).2.release output).2 })

/-- How the guest of a sandbox invokes others. -/
def Sandbox.invoking (platform : Platform) (s : Sandbox) : Invoke :=
  Invocation.invoke platform (Invocation.levels platform (s.context.depth + 1))

/-- Neither a nested invocation nor the same one made by the owner of the host meets a failure of
nesting, whatever comes of it. -/
structure Request.Spared (platform : Platform) (r : Request) : Prop where
  nested : (Activation.root ⟨platform, r.world⟩ r.context).Spared platform
  atTop : (Activation.root ⟨platform, r.world⟩ r.context.atTop).Spared platform

namespace HostFunction

variable {config : Config} {f : HostFunction} {s : Sandbox} {site : Site} {r : Request}

/-- **A nested invocation comes to what the owner's does**, and leaves the same world: the host
call returns what its way makes of the outcome. -/
theorem call_as_outermost (plain : f.Plain False) (asked : f.backing.request? site = some r)
    (made : site.invocation = s.context.toInvocation) (spared : r.Spared (.standard config)) :
    ((f.call (s.invoking (.standard config))).run site).1 =
        (r.via.answer ((Host.mk (.standard config) r.world).invoke r.context.atTop).1).map
          (fun word => f.type.results.map fun _ => .i32 word) ∧
      ((f.call (s.invoking (.standard config))).run site).2.world.Same
        (r.via = .link ∧ site.invocation.trace = false)
        (r.via.after r.context
          ((Host.mk (.standard config) r.world).invoke r.context.atTop).2.world) := by
  have nests := (Backing.nestedIn_request asked).1
  have depth : r.context.depth = s.context.depth + 1 := by
    rw [nests.extends.depth_eq, made]
  have ends : Invocation.Ends (site.invocation.trace = false)
      ((s.invoking (.standard config) r.context).run r.world)
      ((Invocation.invoke (.standard config) (Invocation.levels (.standard config) 0)
        r.context.atTop).run r.world) := by
    unfold Sandbox.invoking
    rw [← depth]
    exact Invocation.ends_invoke config config.maxLinkDepth _ _ nests.same_atTop
      (.refl r.world) spared.nested spared.atTop
  have words : f.GivesWords :=
    plain.givesWords fun call native => by simp [native, Backing.request?] at asked
  obtain ⟨results, noted⟩ := run_call words (s.invoking (.standard config)) site
  obtain ⟨left, invocation⟩ := after_value (s.invoking (.standard config)) asked
  rw [invocation] at noted
  refine ⟨?_, ?_⟩
  · rw [results, f.run_value _ asked]
    rw [r.via.answer_eq_of_ends ends]
    rfl
  · refine .trans (noted.symm.mono And.right) (.trans (left.symm.mono And.left) ?_)
    exact (Via.same_after _ _ ends.states).mono And.right

end HostFunction

theorem Sandbox.toInvocation_of_ended {c result : Context} {e : CallError}
    (h : ended c e = .ok result) : result.toInvocation = c.toInvocation := by
  unfold ended at h
  split at h
  · obtain rfl := Except.ok.inj h
    rfl
  all_goals cases h

namespace Invocation

/-- The context that an invocation returns is still the one that it was made for. -/
theorem toInvocation_eq {platform : Platform} {levels : Nat} {c result : Context} {w : World}
    (h : ((invoke platform levels c).run w).1 = .ok result) :
    result.toInvocation = c.toInvocation := by
  cases levels with
  | zero => cases h
  | succ levels =>
    unfold invoke at h
    rw [run_bind] at h
    cases prepared : ((Sandbox.prepare platform c).run w).1 with
    | error e =>
      rw [prepared] at h
      cases h
    | ok s =>
      rw [prepared] at h
      rw [← (Sandbox.reaches_of_prepare prepared).2]
      simp only [Sandbox.run_run, Sandbox.conclude] at h
      split at h
      · obtain rfl := Except.ok.inj h
        rfl
      · cases h
      · exact Sandbox.toInvocation_of_ended h

end Invocation

/-- **Depth, chain and bound influence nothing else**: where neither of two invocations that differ
in them meets a failure of nesting, they come to the same and leave the same world. -/
theorem Host.invoke_eq_of_spared (config : Config) {c : Context} {w : World} {max depth : Nat}
    {chain : List String}
    (left : (Activation.root ⟨.standard config, w⟩ c).Spared (.standard config))
    (right : (Activation.root ⟨(Platform.standard config).withDepth max, w⟩
      (c.moved depth chain)).Spared ((Platform.standard config).withDepth max)) :
    ((Host.mk ((Platform.standard config).withDepth max) w).invoke
          (c.moved depth chain)).1 =
        ((Host.mk (.standard config) w).invoke c).1.map
          (Context.moved · depth chain) ∧
      ((Host.mk ((Platform.standard config).withDepth max) w).invoke
          (c.moved depth chain)).2.world =
        ((Host.mk (.standard config) w).invoke c).2.world := by
  have same : c.Same True (c.moved depth chain) :=
    ⟨_, ⟨c.trace, depth, chain, rfl, fun _ => rfl⟩, rfl⟩
  have ends := Invocation.ends_invoke config max _ _ same (.refl w) left right
  refine ⟨?_, ?_⟩
  · change ((Invocation.invoke _ _ _).run _).1 = ((Invocation.invoke _ _ _).run _).1.map _
    obtain ⟨r, r', t, t', ok, ok', ⟨i, -, rfl⟩, -⟩ | ⟨e, t, t', error, error', -⟩ :=
      ends.cases_never
    · have kept := Invocation.toInvocation_eq (congrArg Prod.fst ok)
      have kept' := Invocation.toInvocation_eq (congrArg Prod.fst ok')
      obtain rfl : i = (c.moved depth chain).toInvocation := kept'
      rw [ok, ok']
      simp only [Except.map, Context.moved, kept]
    · rw [error, error']
      rfl
  · obtain ⟨log, world, logs⟩ := ends.states
    rw [logs trivial] at world
    exact world

namespace Sandbox

/-- **Nested invocations are like outermost ones.** On a host with nothing but the core functions,
take an import of a guest that has been prepared, called at any site. If it is linked to another
guest and its arguments are words, it returns what the owner of the host gets who makes two buffers,
invokes the other guest with them and frees them, and traps if the owner gets a failure; if it is
the core function that calls a guest by name, it returns what the owner gets for the same context at
the top, or the sentinel. Either way the world is left as the owner leaves it, but for the log. This
is so unless a failure of nesting is met on one of the two sides. Nor do the depth and the chain of
a context and the bound for the depth matter to anything else: invocations that differ in them come
to the same. -/
theorem nested_as_outermost (config : Config) (parent : Context) (before : World) {s : Sandbox}
    (prepared : ((Host.mk (.standard config) before).prepare parent).1 = .ok s) {index : Nat}
    {f : HostFunction} (called : s.called? index = some f) (site : Site)
    (made : site.invocation = s.context.toInvocation) :
    (∀ guest entry arguments, f.backing = .guest guest entry →
      site.arguments = arguments.map (fun n => .i32 n.toUInt32) →
      ∃ r, f.backing.request? site = some r ∧ (r.Spared (.standard config) →
        ((f.call (s.invoking (.standard config))).run site).1 =
          (match ((Host.mk (.standard config) site.world).callGuest guest entry arguments).1 with
            | .ok c => .ok (f.type.results.map fun _ => .i32 (Nesting.returned c))
            | .error e => .error (.fatal (.failure e))) ∧
        ((f.call (s.invoking (.standard config))).run site).2.world.Same
          (site.invocation.trace = false)
          ((Host.mk (.standard config) site.world).callGuest guest entry arguments).2.world)) ∧
    (∀ guest entry arguments mode input output, f.backing = .handler .callFunction →
      (Nesting.namedContext.run site).1 =
        .ok ((((Context.nested site.invocation guest entry).withArguments arguments).withMode
          mode).withBuffers input output) →
      ∃ r, f.backing.request? site = some r ∧ (r.Spared (.standard config) →
        ((f.call (s.invoking (.standard config))).run site).1 =
          .ok (f.type.results.map fun _ => .i32
            (match ((Host.mk (.standard config) site.world).invoke ((((Context.top guest
                entry).withArguments arguments).withMode mode).withBuffers input output)).1 with
              | .ok c => Nesting.returned c
              | .error _ => sentinel)) ∧
        ((f.call (s.invoking (.standard config))).run site).2.world.Same False
          ((Host.mk (.standard config) site.world).invoke ((((Context.top guest
            entry).withArguments arguments).withMode mode).withBuffers input output)).2.world)) ∧
    ∀ (c : Context) (w : World) (max depth : Nat) (chain : List String),
      (Activation.root ⟨.standard config, w⟩ c).Spared (.standard config) →
      (Activation.root ⟨(Platform.standard config).withDepth max, w⟩
        (c.moved depth chain)).Spared ((Platform.standard config).withDepth max) →
      ((Host.mk ((Platform.standard config).withDepth max) w).invoke (c.moved depth chain)).1 =
        ((Host.mk (.standard config) w).invoke c).1.map (Context.moved · depth chain) ∧
      ((Host.mk ((Platform.standard config).withDepth max) w).invoke
          (c.moved depth chain)).2.world =
        ((Host.mk (.standard config) w).invoke c).2.world := by
  have plain : f.Plain False := plain_called prepared called
  refine ⟨fun guest entry arguments linked words => ?_,
    fun guest entry arguments mode input output named read => ?_,
    fun c w max depth chain left right => Host.invoke_eq_of_spared config left right⟩
  · have asked : f.backing.request? site = some ⟨.link,
        ((Context.nested site.invocation guest entry).withArguments arguments).withBuffers
          site.world.create.1 site.world.create.2.create.1,
        site.world.create.2.create.2⟩ := by
      rw [linked, Backing.request?, Nesting.run_linkContext words]
      rfl
    refine ⟨_, asked, fun spared => ?_⟩
    obtain ⟨outcome, worlds⟩ := f.call_as_outermost plain asked made spared
    refine ⟨?_, worlds.mono fun untraced => ⟨rfl, untraced⟩⟩
    -- the owner makes the same two buffers
    have owner : ((Host.mk (.standard config) site.world).callGuest guest entry arguments).1 =
        ((Host.mk (.standard config) site.world.create.2.create.2).invoke
          (((Context.nested site.invocation guest entry).withArguments arguments).withBuffers
            site.world.create.1 site.world.create.2.create.1).atTop).1 := rfl
    rw [outcome, owner]
    generalize (Host.invoke _ _).1 = came
    cases came <;> rfl
  · have asked : f.backing.request? site = some ⟨.name,
        (((Context.nested site.invocation guest entry).withArguments arguments).withMode
          mode).withBuffers input output, site.world⟩ := by
      rw [named, Backing.request?, Nesting.run_namedContext, read]
      rfl
    refine ⟨_, asked, fun spared => ?_⟩
    obtain ⟨outcome, worlds⟩ := f.call_as_outermost plain asked made spared
    have answered := Via.answer_name _ (spared.atTop _ .refl)
    exact ⟨outcome.trans (congrArg (Except.map _) answered), worlds.mono False.elim⟩

end Sandbox

/-! ## A guest that adds two words -/

namespace Activation

/-- Whether nothing that comes of an activation fails of nesting, and not more comes of it than can
be seen in some number of steps. -/
def sparedBy (platform : Platform) : Nat → Activation → Bool
  | 0, _ => false
  | steps + 1, a =>
    (match a.outcome platform with
      | .error (.depthExceeded _ _) => false
      | .error (.cycle _) => false
      | _ => true) &&
    (a.nested platform).all fun n => sparedBy platform steps (a.child n)

theorem spared_of_sparedBy {platform : Platform} {steps : Nat} {a : Activation}
    (h : sparedBy platform steps a = true) : a.Spared platform := by
  induction steps generalizing a with
  | zero => cases h
  | succ steps ih =>
    obtain ⟨own, others⟩ := Bool.and_eq_true_iff.mp h
    intro b within
    rcases within.cases_head with rfl | ⟨next, ⟨n, hn, rfl⟩, within⟩
    · intro e failed
      rw [failed] at own
      cases e <;> first | exact id | cases own
    · exact ih (List.all_eq_true.mp others n hn) b within

end Activation

namespace Adder

open Activation

/-- A guest that adds two words. -/
def adder : String :=
  "(module (func (export \"add\") (param i32 i32) (result i32) local.get 0 local.get 1 i32.add))"

/-- A guest that can call it, and any other by its name. -/
def caller : String :=
  "(module (import \"adder\" \"add\" (func (param i32 i32) (result i32)))" ++
    " (import \"core\" \"call_function\"" ++
    " (func (param i32 i32 i32 i32 i32 i32 i32 i32 i32 i32) (result i32)))" ++
    " (func (export \"run\") (result i32) i32.const 0))"

/-- The world of a new host that both have been registered at. -/
@[irreducible]
def world : World :=
  let h := Host.new .default .offline 0
  let h := (h.registerGuest "adder" (Utf8.encode adder)).2
  (h.registerGuest "caller" (Utf8.encode caller)).2.world

/-- A site at which a sandbox calls on this host. -/
def site (s : Sandbox) (arguments : List Wasm.Value) (memory : Bytes) : Site :=
  ⟨arguments, .ofBytes memory, s.context.toInvocation, s.process, world⟩

/-- The site of a call of the adder. -/
def sumSite (s : Sandbox) : Site := site s [.i32 2, .i32 3] []

/-- The site of a call by name of a guest that does not exist. -/
def lostSite (s : Sandbox) : Site :=
  site s ([0, 4, 0, 4, 0, 0, 0, 0, 0, 0].map .i32) (Utf8.encode "none")

/-- Whether the invocation that a function asks for is spared. -/
def spares (f : HostFunction) (site : Site) : Bool :=
  match f.backing.request? site with
  | some r =>
    sparedBy (.standard .default) 2 (.root ⟨.standard .default, r.world⟩ r.context) &&
      sparedBy (.standard .default) 2 (.root ⟨.standard .default, r.world⟩ r.context.atTop)
  | none => false

theorem spared_of_spares {f : HostFunction} {site : Site} {r : Request}
    (h : spares f site = true) (asked : f.backing.request? site = some r) :
    r.Spared (.standard .default) := by
  unfold spares at h
  rw [asked] at h
  obtain ⟨nested, atTop⟩ := Bool.and_eq_true_iff.mp h
  exact ⟨spared_of_sparedBy nested, spared_of_sparedBy atTop⟩

/-- A guest prepared, and its first two imports. -/
def imports? (h : Host) (c : Context) : Option (Sandbox × HostFunction × HostFunction) :=
  match (h.prepare c).1 with
  | .ok s => do return (s, ← s.called? 0, ← s.called? 1)
  | .error _ => none

theorem imports?_eq_some {h : Host} {c : Context} {s : Sandbox} {first second : HostFunction}
    (found : imports? h c = some (s, first, second)) :
    (h.prepare c).1 = .ok s ∧ s.called? 0 = some first ∧ s.called? 1 = some second := by
  unfold imports? at found
  split at found
  · rename_i t prepared
    obtain ⟨f, hf, found⟩ := Option.bind_eq_some_iff.mp found
    obtain ⟨g, hg, found⟩ := Option.bind_eq_some_iff.mp found
    cases found
    exact ⟨prepared, hf, hg⟩
  · cases found

/-- Whether an import is linked to the adder, and spared where it is called. -/
def links (s : Sandbox) (f : HostFunction) : Bool :=
  match f.backing, f.type.results with
  | .guest guest entry, [.i32] =>
    decide (guest = "adder" ∧ entry = "add") && spares f (sumSite s)
  | _, _ => false

theorem backing_of_links {s : Sandbox} {f : HostFunction} (linked : links s f = true) :
    f.backing = .guest "adder" "add" ∧ f.type.results = [.i32] ∧ spares f (sumSite s) = true := by
  unfold links at linked
  split at linked
  · rename_i guest entry backing results
    obtain ⟨target, spared⟩ := Bool.and_eq_true_iff.mp linked
    obtain ⟨rfl, rfl⟩ := of_decide_eq_true target
    exact ⟨backing, results, spared⟩
  · cases linked

/-- The context of an invocation of a guest that does not exist. -/
def lost (c : Context) : Context := ((c.withArguments []).withMode .direct).withBuffers 0 0

/-- Whether an import calls guests by name, and is spared where it names one that does not exist. -/
def names (s : Sandbox) (f : HostFunction) : Bool :=
  match f.backing, f.type.results, (Nesting.namedContext.run (lostSite s)).1 with
  | .handler .callFunction, [.i32], .ok c =>
    decide (c = lost (.nested s.context.toInvocation "none" "none")) && spares f (lostSite s)
  | _, _, _ => false

theorem backing_of_names {s : Sandbox} {f : HostFunction} (named : names s f = true) :
    f.backing = .handler .callFunction ∧ f.type.results = [.i32] ∧
      (Nesting.namedContext.run (lostSite s)).1 =
        .ok (lost (.nested s.context.toInvocation "none" "none")) ∧
      spares f (lostSite s) = true := by
  unfold names at named
  split at named
  · rename_i c backing results read
    obtain ⟨context, spared⟩ := Bool.and_eq_true_iff.mp named
    obtain rfl := of_decide_eq_true context
    exact ⟨backing, results, read, spared⟩
  · cases named

/-- The adder invoked. -/
def sum : Context := (Context.top "adder" "add").withArguments [2, 3]

/-- The adder's context as that of the fourth guest in a chain. -/
def fourth : Context := sum.moved 3 ["a", "b", "c", "adder"]

/-- Whether the owner of a host gets the sum, for two buffers and at two depths, and no guest that
does not exist. -/
def owns (h : Host) : Bool :=
  (match (h.callGuest "adder" "add" [2, 3]).1, (h.invoke sum).1,
      (h.invoke (lost (.top "none" "none"))).1 with
    | .ok c, .ok c', .error _ => decide (Nesting.returned c = 5 ∧ c' = sum.returned 5)
    | _, _, _ => false) &&
  (sparedBy h.platform 2 (.root h sum) &&
    sparedBy (h.platform.withDepth 3) 2 (.root ⟨h.platform.withDepth 3, h.world⟩ fourth))

theorem exists_of_owns {h : Host} (owned : owns h = true) :
    (∃ c, (h.callGuest "adder" "add" [2, 3]).1 = .ok c ∧ Nesting.returned c = 5) ∧
    (h.invoke sum).1 = .ok (sum.returned 5) ∧
    (∃ e, (h.invoke (lost (.top "none" "none"))).1 = .error e) ∧
    (Activation.root h sum).Spared h.platform ∧
    (Activation.root ⟨h.platform.withDepth 3, h.world⟩ fourth).Spared (h.platform.withDepth 3) := by
  obtain ⟨outcomes, spared⟩ := Bool.and_eq_true_iff.mp owned
  obtain ⟨left, right⟩ := Bool.and_eq_true_iff.mp spared
  split at outcomes
  · rename_i c c' e called invoked failed
    obtain ⟨five, rfl⟩ := of_decide_eq_true outcomes
    exact ⟨⟨c, called, five⟩, invoked, ⟨e, failed⟩, spared_of_sparedBy left,
      spared_of_sparedBy right⟩
  · cases outcomes

theorem sums : ((imports? ⟨.standard .default, world⟩ (.top "caller" "run")).any fun t =>
    links t.1 t.2.1 && (names t.1 t.2.2 && owns ⟨.standard .default, world⟩)) = true := by
  decide +kernel

/-- The caller gets the sum of its words, and the sentinel for the guest that does not exist; and
the adder is invoked alike as the fourth guest where invocations may nest three times. -/
theorem nested_as_outermost_sum : ∃ s add byName,
    ((Host.mk (.standard .default) world).prepare (.top "caller" "run")).1 = .ok s ∧
    s.called? 0 = some add ∧ s.called? 1 = some byName ∧
    ((add.call (s.invoking (.standard .default))).run (sumSite s)).1 = .ok [.i32 5] ∧
    ((byName.call (s.invoking (.standard .default))).run (lostSite s)).1 = .ok [.i32 sentinel] ∧
    ((Host.mk ((Platform.standard .default).withDepth 3) world).invoke fourth).1 =
      .ok (fourth.returned 5) := by
  obtain ⟨⟨s, add, byName⟩, found, holds⟩ := (Option.any_eq_true _ _).mp sums
  dsimp only at holds
  obtain ⟨linked, holds⟩ := Bool.and_eq_true_iff.mp holds
  obtain ⟨named, owned⟩ := Bool.and_eq_true_iff.mp holds
  obtain ⟨prepared, first, second⟩ := imports?_eq_some found
  obtain ⟨⟨c, called, five⟩, invoked, ⟨e, failed⟩, left, right⟩ := exists_of_owns owned
  refine ⟨s, add, byName, prepared, first, second, ?_, ?_, ?_⟩
  · obtain ⟨backing, results, spared⟩ := backing_of_links linked
    obtain ⟨r, asked, same⟩ := (Sandbox.nested_as_outermost .default _ world prepared first
      (sumSite s) rfl).1 "adder" "add" [2, 3] backing rfl
    obtain ⟨outcome, -⟩ := same (spared_of_spares spared asked)
    rw [show (sumSite s).world = world from rfl, called, results] at outcome
    dsimp only at outcome
    rw [five] at outcome
    exact outcome
  · obtain ⟨backing, results, read, spared⟩ := backing_of_names named
    obtain ⟨r, asked, same⟩ := (Sandbox.nested_as_outermost .default _ world prepared second
      (lostSite s) rfl).2.1 "none" "none" [] .direct 0 0 backing read
    obtain ⟨outcome, -⟩ := same (spared_of_spares spared asked)
    unfold lost at failed
    rw [show (lostSite s).world = world from rfl, failed, results] at outcome
    exact outcome
  · obtain ⟨outcome, -⟩ := (Sandbox.nested_as_outermost .default _ world prepared first
      (sumSite s) rfl).2.2 sum world 3 3 ["a", "b", "c", "adder"] left right
    rw [invoked] at outcome
    exact outcome

end Adder

end GuestHost
