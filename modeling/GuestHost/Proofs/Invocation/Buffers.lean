import GuestHost.Proofs.Exchange.Places
import GuestHost.Proofs.Exchange.Rounds
import GuestHost.Proofs.HostCalls.Keeping
import GuestHost.Proofs.HostCalls.Sizes
import GuestHost.Proofs.Invocation.Tree
import GuestHost.Proofs.Loading.Cache
/-!
# The buffers of links

A link makes two buffers for the invocation that it asks for and frees them once the invocation has
ended, in whatever way and whatever it has done: `HostFunction.registry_link`. So the guests of a
whole tree of invocations leave the live handles as they were, unless one of them calls a function
that makes buffers or frees them: `Invocation.keeps_handles`. If one does, what comes of the registry
still follows from it by calls, `Invocation.follows`, so a link frees no buffer but its own unless
handles have come round: `HostFunction.own_of_link`. A guest can make them come round, in turns of a
loop that make a buffer and free it, `Sandbox.ChurnerPrepared.turn`.
-/

namespace GuestHost

open Stateful

open Exchange (Buffer Registry)

/-- The buffer that a link makes. -/
def Nesting.blank : Buffer := .memory (.ofContent [])

/-- What a link asks for: two new buffers, in a world that differs by them only. -/
theorem Backing.request_link {guest entry : String} {site : Site} {r : Request}
    (asked : (Backing.guest guest entry).request? site = some r) :
    r.context.input = site.world.registry.nextHandle ∧
      r.context.output = (site.world.registry.register Nesting.blank).nextHandle ∧
      r.world = { site.world with
        registry := (site.world.registry.register Nesting.blank).register Nesting.blank } := by
  rw [Backing.request?, Nesting.run_linkContext_eq] at asked
  cases come : (Call.words.run site).1 with
  | error e =>
    rw [come] at asked
    cases asked
  | ok arguments =>
    rw [come] at asked
    obtain rfl := Option.some.inj asked
    exact ⟨rfl, rfl, rfl⟩

theorem Backing.via_link {guest entry : String} {site : Site} {r : Request}
    (asked : (Backing.guest guest entry).request? site = some r) : r.via = .link :=
  (Nesting.request?_eq_some asked).2.1

/-- A call by name asks for nothing but the invocation. -/
theorem Backing.request_name {backing : Backing} {site : Site} {r : Request}
    (asked : backing.request? site = some r) (name : r.via = .name) : r.world = site.world := by
  cases backing with
  | handler handler =>
    cases handler with
    | native call => cases asked
    | callFunction =>
      have world := (Nesting.request?_eq_some asked).2.2
      rw [Nesting.run_namedContext] at world
      exact world
  | guest guest entry =>
    cases (Backing.via_link asked).symm.trans name

namespace HostFunction

variable {f : HostFunction} {site : Site} {invoke : Invoke} {r : Request}

/-- **A link frees its two buffers** and leaves the rest of the registry as the invocation has. -/
theorem registry_link (asked : f.backing.request? site = some r) (link : r.via = .link) :
    ((f.call invoke).run site).2.world.registry =
      (((invoke r.context).run r.world).2.registry.release r.context.input).release
        r.context.output := by
  rw [registry_call, Backing.world_of_request asked, link]
  rfl

/-- A call by name leaves the registry as the invocation has. -/
theorem registry_name (asked : f.backing.request? site = some r) (name : r.via = .name) :
    ((f.call invoke).run site).2.world.registry =
      ((invoke r.context).run r.world).2.registry := by
  rw [registry_call, Backing.world_of_request asked, name]
  rfl

/-- The invocation that a function asks for starts ready for new buffers. -/
theorem ready_request (asked : f.backing.request? site = some r)
    (ready : site.world.registry.Ready) : r.world.registry.Ready := by
  cases via : r.via with
  | link =>
    obtain ⟨entry, linked⟩ := (Backing.nestedIn_request asked).2 via
    obtain ⟨-, -, world⟩ := Backing.request_link (linked ▸ asked)
    rw [world]
    exact Registry.ready_register _ _
  | name =>
    rw [Backing.request_name asked via]
    exact ready

/-- **What the invocation leaves of the live handles is what was there**, if the invocation itself
has left them as they were. -/
theorem handles_of_asked (asked : f.backing.request? site = some r)
    (ready : site.world.registry.Ready)
    (room : r.via = .link → site.world.registry.liveCount + 2 ≤ maxWord)
    (nested : ((invoke r.context).run r.world).2.registry.handles = r.world.registry.handles ∧
      ((invoke r.context).run r.world).2.registry.Ready) :
    ((f.call invoke).run site).2.world.registry.handles = site.world.registry.handles ∧
      ((f.call invoke).run site).2.world.registry.Ready := by
  cases via : r.via with
  | link =>
    obtain ⟨entry, linked⟩ := (Backing.nestedIn_request asked).2 via
    obtain ⟨input, output, world⟩ := Backing.request_link (linked ▸ asked)
    obtain ⟨free, free', -⟩ := ready.free_twice (room via) Nesting.blank
    have kept : ((invoke r.context).run r.world).2.registry.handles =
        ((site.world.registry.register Nesting.blank).register Nesting.blank).handles := by
      rw [nested.1, world]
    rw [registry_link asked via, input, output]
    exact ⟨Registry.handles_release_register free free' kept, (nested.2.release _).release _⟩
  | name =>
    have kept := nested.1
    rw [Backing.request_name asked via] at kept
    rw [registry_name asked via]
    exact ⟨by rw [Backing.request_name asked via, kept], nested.2⟩

end HostFunction

/-! ## Trees of invocations -/

/-- A host call that makes no buffer and frees none, apart from the invocation that it may ask
for. -/
def HostCall.Frugal (c : HostCall) : Prop :=
  ∀ call, c.function.backing = .handler (.native call) →
    (call.run c.site).2.world.registry.handles = c.site.world.registry.handles ∧
      (call.run c.site).2.world.registry.next = c.site.world.registry.next

/-- There are words for the handles of the two buffers that a host call makes for a link. -/
def HostCall.Supplied (c : HostCall) : Prop :=
  ∀ r, c.request? = some r → r.via = .link → c.site.world.registry.liveCount + 2 ≤ maxWord

namespace Activation

variable {platform : Platform} {a b : Activation}

/-- The host calls that an activation makes. -/
def calls (platform : Platform) (a : Activation) : List HostCall :=
  match a.sandbox? platform with
  | some (s, w) => s.calls (Invocation.invoke platform (a.levels - 1)) platform.config.fuel w
  | none => []

/-- No guest of what comes of an activation makes buffers or frees any, and its links can. -/
def Frugal (platform : Platform) (a : Activation) : Prop :=
  ∀ b, Within platform a b → ∀ c ∈ b.calls platform, c.Frugal ∧ c.Supplied

theorem calls_eq {levels : Nat} {context : Context} {w t : World} {s : Sandbox}
    (prepared : (Sandbox.prepare platform context).run w = (.ok s, t)) :
    calls platform ⟨levels + 1, context, w⟩ =
      s.calls (Invocation.invoke platform levels) platform.config.fuel t := by
  unfold calls sandbox?
  simp only [prepared, Nat.add_sub_cancel]

/-- What a host call of an activation asks for is called by the activation. -/
theorem calls_of_request {levels : Nat} {context : Context} {w t : World} {s : Sandbox}
    (prepared : (Sandbox.prepare platform context).run w = (.ok s, t)) {c : HostCall} {r : Request}
    (hc : c ∈ s.calls (Invocation.invoke platform levels) platform.config.fuel t)
    (asked : c.request? = some r) :
    Calls platform ⟨levels + 1, context, w⟩ ⟨levels, r.context, r.world⟩ := by
  have made := Sandbox.nested_of_request hc asked
  rw [← nested_eq prepared] at made
  exact ⟨_, made, rfl⟩

end Activation

/-- A host call that asks for nothing leaves the live handles to what stands behind it. -/
theorem HostCall.Frugal.handles_of_unasked {c : HostCall} (frugal : c.Frugal) (invoke : Invoke)
    (unasked : c.request? = none) :
    (c.after invoke).world.registry.handles = c.site.world.registry.handles ∧
      (c.after invoke).world.registry.next = c.site.world.registry.next := by
  unfold HostCall.after
  rw [HostFunction.registry_call]
  by_cases native : ∃ call, c.function.backing = .handler (.native call)
  · obtain ⟨call, native⟩ := native
    rw [native]
    exact frugal call native
  · have asks := fun call same => native ⟨call, same⟩
    rw [Backing.run_of_unasked unasked asks]
    exact ⟨rfl, rfl⟩

namespace Invocation

/-- **A tree of invocations leaves the live handles as they were**, if none of its guests makes
buffers or frees any and there are words for the handles of those that its links make. -/
theorem keeps_handles {platform : Platform} {levels : Nat} {context : Context} {w : World}
    (frugal : Activation.Frugal platform ⟨levels, context, w⟩) (ready : w.registry.Ready) :
    ((invoke platform levels context).run w).2.registry.handles = w.registry.handles ∧
      ((invoke platform levels context).run w).2.registry.Ready := by
  -- on the levels left: what the host calls of a guest keep is what the guests below it keep
  induction levels generalizing context w with
  | zero => exact ⟨rfl, ready⟩
  | succ levels ih =>
    let kept := fun t : World => t.registry.handles = w.registry.handles ∧ t.registry.Ready
    have preparing := (Sandbox.obeys_prepare (I := kept) (fun _ _ h => h)
      (Loading.obeys_load fun _ _ h => h) platform context w ⟨rfl, ready⟩).1
    unfold invoke
    rw [run_bind]
    cases prepared : (Sandbox.prepare platform context).run w with
    | mk outcome t =>
      rw [prepared] at preparing
      cases outcome with
      | error e => exact preparing
      | ok s =>
        refine Sandbox.keeps_run (I := kept) (fun c hc before => ?_) preparing
        obtain ⟨same, ready'⟩ := before
        obtain ⟨own, supplied⟩ := frugal _ .refl c (Activation.calls_eq prepared ▸ hc)
        cases asked : c.request? with
        | none =>
          obtain ⟨handles, next⟩ := own.handles_of_unasked (invoke platform levels) asked
          exact ⟨handles.trans same, next ▸ ready'.pos, next ▸ ready'.le⟩
        | some r =>
          have calls := Activation.calls_of_request prepared hc asked
          have nested := ih (fun b within => frugal b (.head calls within))
            (HostFunction.ready_request asked ready')
          obtain ⟨handles, left⟩ :=
            HostFunction.handles_of_asked asked ready' (supplied r asked) nested
          exact ⟨handles.trans same, left⟩

end Invocation

/-- On a host with nothing but the core functions, only a core function that is there for it makes
buffers or frees them. -/
theorem Activation.frugal_of_name {config : Config} {a : Activation} {c : HostCall}
    (hc : c ∈ a.calls (.standard config)) (other : c.function.name ∉ Core.buffering) :
    c.Frugal := by
  unfold calls at hc
  split at hc
  · rename_i s w found
    obtain ⟨levels, -, prepared⟩ := sandbox?_eq_some found
    obtain ⟨around, ⟨index, called⟩, -⟩ := (Sandbox.goes_callEntry _ _ _ _).makes hc
    -- what the call is to keep is what it meets
    have steady := World.steady_handles fun handles next =>
      handles = c.site.world.registry.handles ∧ next = c.site.world.registry.next
    have keeps := Sandbox.offered_called (Platform.offers_keeps steady config)
      (by rw [prepared]) called fun listed => absurd listed other
    exact fun call native => keeps call native c.site ⟨rfl, rfl⟩
  · cases hc

/-! ## Buffers of links -/

/-- What a function does to buffers are calls of the registry. -/
def HostFunction.Operates (f : HostFunction) : Prop :=
  ∀ call, f.backing = .handler (.native call) → ∀ site : Site,
    (call.run site).2.world.registry.Follows site.world.registry

namespace World

theorem steady_follows (r : Registry) : Steady fun w => w.registry.Follows r :=
  steady_of_registry (P := fun r' => r'.Follows r) fun follows _ place operation =>
    follows.snoc (.useAt place operation)

theorem roomy_follows (r : Registry) : Roomy fun w => w.registry.Follows r :=
  ⟨fun _ buffer follows => follows.snoc (.register buffer),
    fun _ handle follows => follows.snoc (.release handle)⟩

end World

/-- On a host with nothing but the core functions all that is done to buffers are such calls. -/
theorem Platform.Serves.operates {config : Config} {f : HostFunction}
    (served : (standard config).Serves f) : f.Operates := fun call native site =>
  served _ (offers_keeps (World.steady_follows site.world.registry) config)
    (fun _ => World.roomy_follows _) call native site (.refl _)

/-- **A tree of invocations does to buffers what calls of the registry do**, if its functions do. -/
theorem Invocation.follows {platform : Platform} (operates : ∀ f, platform.Serves f → f.Operates)
    (levels : Nat) (context : Context) (w : World) :
    ((invoke platform levels context).run w).2.registry.Follows w.registry := by
  -- on the levels left: a host call does what the guests below it do, or what stands behind it does
  induction levels generalizing context w with
  | zero => exact .refl _
  | succ levels ih =>
    let comes := fun t : World => t.registry.Follows w.registry
    have preparing := (Sandbox.obeys_prepare (I := comes) (fun _ _ h => h)
      (Loading.obeys_load fun _ _ h => h) platform context w (.refl _)).1
    unfold invoke
    rw [run_bind]
    cases prepared : (Sandbox.prepare platform context).run w with
    | mk outcome t =>
      rw [prepared] at preparing
      cases outcome with
      | error e => exact preparing
      | ok s =>
        refine Sandbox.keeps_run (I := comes) (fun c hc before => ?_) preparing
        obtain ⟨around, ⟨index, called⟩, -⟩ := (Sandbox.goes_callEntry _ _ _ _).makes hc
        have served := Sandbox.serves_called (by rw [prepared]) called
        refine Registry.Follows.trans ?_ before
        unfold HostCall.after
        cases asked : c.request? with
        | none =>
          rw [HostFunction.registry_call]
          by_cases native : ∃ call, c.function.backing = .handler (.native call)
          · obtain ⟨call, native⟩ := native
            have behind : c.function.backing.run (invoke platform levels) = call := by
              rw [native, Backing.run]
            rw [behind]
            exact operates _ served call native c.site
          · rw [Backing.run_of_unasked asked fun call same => native ⟨call, same⟩]
            exact .refl _
        | some r =>
          have nested := ih r.context r.world
          cases via : r.via with
          | link =>
            obtain ⟨entry, linked⟩ := (Backing.nestedIn_request asked).2 via
            have request := asked
            rw [HostCall.request?, linked] at request
            obtain ⟨-, -, world⟩ := Backing.request_link request
            have made : r.world.registry.Follows c.site.world.registry := by
              rw [world]
              exact ((Registry.Follows.refl _).snoc (.register _)).snoc (.register _)
            rw [HostFunction.registry_link asked via]
            exact ((nested.trans made).snoc (.release _)).snoc (.release _)
          | name =>
            rw [HostFunction.registry_name asked via, ← Backing.request_name asked via]
            exact nested

namespace HostFunction

variable {f : HostFunction} {site : Site} {ended : Registry} {r : Request}

/-- **A handle of a link that is live at the end of its invocation stands for the buffer that the
link has made**, as long as there are words for all that was live and for what has been made. -/
theorem own_of_link {guest entry : String} (linked : f.backing = .guest guest entry)
    (asked : f.backing.request? site = some r) (ready : site.world.registry.Ready)
    (follows : ended.Follows r.world.registry)
    (few : site.world.registry.liveCount + ended.created ≤ site.world.registry.created + maxWord)
    {handle : Nat} (own : handle = r.context.input ∨ handle = r.context.output)
    {place : Exchange.Place} (found : ended.place? handle = some place) :
    r.world.registry.place? handle = some place := by
  obtain ⟨input, output, world⟩ := Backing.request_link (linked ▸ asked)
  generalize site.world.registry = before at *
  have made : r.world.registry = (before.register Nesting.blank).register Nesting.blank := by
    rw [world]
  rw [made] at follows ⊢
  have counted : before.created + 2 ≤ ended.created := by
    obtain ⟨calls, rfl⟩ := follows
    rw [Registry.created_foldl]
    exact Nat.le_add_right _ _
  obtain ⟨free, -, differ⟩ := ready.free_twice (by omega) Nesting.blank
  rw [Registry.place?_register]
  rcases own with rfl | rfl
  · rw [input] at found ⊢
    rw [if_neg differ.symm, Registry.place?_register, if_pos rfl]
    have second : ((before.register Nesting.blank).register Nesting.blank).Follows
      (before.register Nesting.blank) := (Registry.Follows.refl _).snoc (.register _)
    exact congrArg some
      (Registry.place_eq_of_follows ready Nesting.blank (follows.trans second) few found).symm
  · rw [output] at found ⊢
    rw [if_pos rfl]
    have count := Registry.liveCount_register free Nesting.blank
    have created : (before.register Nesting.blank).created = before.created + 1 := rfl
    exact congrArg some (Registry.place_eq_of_follows (Registry.ready_register before _)
      Nesting.blank follows (by omega) found).symm

end HostFunction

/-- **Links free their own buffers.** A link that cannot read its arguments changes nothing.
Otherwise it makes two buffers and asks for an invocation, which may do whatever it likes. In the
end neither of the two handles is live, and all others stand for what they stood for when the
invocation ended. The two were not live before, as long as there were words for them, and what is
freed with them is what they were made for, as long as what was live and what has been registered
since are no more than there are words. That is so of all that calls of the registry can do, and an
invocation does nothing else if the functions of its platform do not, as those of a host with nothing
but the core functions. So an invocation leaves the live handles as they were, however it ends, if no
guest of all that comes of it makes buffers or frees any; and on a host with nothing but the core
functions, no guest does that but by the core functions for it. -/
theorem links_free_their_buffers :
    (∀ (f : HostFunction) (guest entry : String), f.backing = .guest guest entry →
      ∀ (site : Site) (invoke : Invoke),
      let before := site.world.registry
      let after := ((f.call invoke).run site).2.world.registry
      (f.backing.request? site = none → after = before) ∧
      ∀ r, f.backing.request? site = some r →
        let ended := ((invoke r.context).run r.world).2.registry
        (r.context.input = before.nextHandle ∧
          r.context.output = (before.register Nesting.blank).nextHandle ∧
          r.world.registry = (before.register Nesting.blank).register Nesting.blank) ∧
        (after.isLive r.context.input = false ∧ after.isLive r.context.output = false ∧
          ∀ handle, handle ≠ r.context.input → handle ≠ r.context.output →
            after.place? handle = ended.place? handle) ∧
        (before.Ready → before.liveCount + 2 ≤ maxWord →
          before.isLive r.context.input = false ∧ before.isLive r.context.output = false ∧
            r.context.output ≠ r.context.input) ∧
        (before.Ready → ended.Follows r.world.registry →
          before.liveCount + ended.created ≤ before.created + maxWord →
          ∀ handle, handle = r.context.input ∨ handle = r.context.output →
            ∀ place, ended.place? handle = some place →
              r.world.registry.place? handle = some place)) ∧
    (∀ platform : Platform, (∀ f, platform.Serves f → f.Operates) → ∀ levels context w,
      ((Invocation.invoke platform levels context).run w).2.registry.Follows w.registry) ∧
    (∀ config f, (Platform.standard config).Serves f → f.Operates) ∧
    (∀ (h : Host) (context : Context), h.world.registry.Ready →
      (∀ a, Activation.Within h.platform (.root h context) a →
        ∀ c ∈ a.calls h.platform, c.Frugal ∧ c.Supplied) →
      (h.invoke context).2.world.registry.handles = h.world.registry.handles) ∧
    ∀ (config : Config) (a : Activation), ∀ c ∈ a.calls (.standard config),
      c.function.name ∉ Core.buffering → c.Frugal := by
  refine ⟨fun f guest entry linked site invoke => ⟨fun unasked => ?_, fun r asked => ?_⟩,
    fun platform operates => Invocation.follows operates, fun config f served => served.operates,
    fun h context ready frugal => (Invocation.keeps_handles frugal ready).1,
    fun config a c hc other => Activation.frugal_of_name hc other⟩
  · have asks : ∀ call, f.backing ≠ .handler (.native call) := by
      intro call native
      cases linked.symm.trans native
    rw [HostFunction.registry_call, Backing.run_of_unasked unasked asks]
  · obtain ⟨input, output, world⟩ := Backing.request_link (linked ▸ asked)
    have link := Backing.via_link (linked ▸ asked)
    refine ⟨⟨input, output, by rw [world]⟩, ?_, fun ready room => ?_,
      fun ready follows few handle own place found =>
        HostFunction.own_of_link linked asked ready follows few own found⟩
    · rw [HostFunction.registry_link asked link]
      simp only [Registry.isLive, Registry.place?_release]
      refine ⟨?_, ?_, fun handle notInput notOutput => ?_⟩
      · split <;> simp
      · simp
      · rw [if_neg notOutput, if_neg notInput]
    · obtain ⟨free, free', differ⟩ := ready.free_twice room Nesting.blank
      rw [input, output]
      refine ⟨free, ?_, differ⟩
      have dead := Registry.isLive_register (r := site.world.registry) Nesting.blank |>.not.mp
        (Bool.eq_false_iff.mp free')
      exact Bool.eq_false_iff.mpr fun live => dead (.inr live)

/-! ## A guest that calls one that traps -/

/-- Whether no guest of what comes of an activation calls a function with the name of one that makes
buffers or frees them, and not more comes of it than can be seen in some number of steps. -/
def Activation.frugalBy (platform : Platform) : Nat → Activation → Bool
  | 0, _ => false
  | steps + 1, a =>
    ((a.calls platform).all fun c => !Core.buffering.contains c.function.name &&
      decide (c.site.world.registry.liveCount + 2 ≤ maxWord)) &&
    (a.nested platform).all fun n => frugalBy platform steps (a.child n)

theorem Activation.frugal_of_frugalBy {config : Config} {steps : Nat} {a : Activation}
    (h : frugalBy (.standard config) steps a = true) : a.Frugal (.standard config) := by
  induction steps generalizing a with
  | zero => cases h
  | succ steps ih =>
    obtain ⟨own, others⟩ := Bool.and_eq_true_iff.mp h
    intro b within c hc
    rcases within.cases_head with rfl | ⟨next, ⟨n, hn, rfl⟩, within⟩
    · obtain ⟨name, room⟩ := Bool.and_eq_true_iff.mp (List.all_eq_true.mp own c hc)
      exact ⟨frugal_of_name hc (by simpa using name), fun _ _ _ => of_decide_eq_true room⟩
    · exact ih (List.all_eq_true.mp others n hn) b within c hc

/-- A guest whose entry traps. -/
def trapper : String := "(module (func (export \"f\") (result i32) unreachable))"

/-- A guest whose entry calls it. -/
def trapperCaller : String :=
  "(module (import \"trapper\" \"f\" (func $f (result i32)))" ++
    " (func (export \"run\") (result i32) call $f))"

/-- The world of a host of these two guests. -/
@[irreducible]
def trapperWorld : World :=
  let h := ((Host.new .default .offline 0).registerGuest "trapper" (Utf8.encode trapper)).2
  (h.registerGuest "caller" (Utf8.encode trapperCaller)).2.world

/-- The invocation of the caller. -/
def trapperRoot : Activation := .root ⟨.standard .default, trapperWorld⟩ (.top "caller" "run")

/-- What the invocation leaves of the registry that a host call of the caller asks for. -/
def trapperEnd (r : Request) : Registry :=
  ((Invocation.invoke (.standard .default) (trapperRoot.levels - 1) r.context).run
    r.world).2.registry

/-- Whether a host call through a link asks for an invocation, and there are words for all buffers
up to its end. -/
def HostCall.links (c : HostCall) : Bool :=
  let before := c.site.world.registry
  match c.function.backing with
  | .guest _ _ => c.request?.any fun r =>
    decide (0 < before.next ∧ before.next ≤ maxWord ∧
      before.liveCount + (trapperEnd r).created ≤ before.created + maxWord)
  | _ => false

theorem trapperRoot_links : (trapperRoot.frugalBy (.standard .default) 3 &&
    (trapperRoot.calls (.standard .default)).any HostCall.links) = true := by
  decide +kernel

/-- The link of the caller frees both its buffers, which are still its own although the other guest
traps, and the live handles are the same in the end. -/
theorem links_free_their_buffers_trapper :
    (Host.invoke ⟨.standard .default, trapperWorld⟩ (.top "caller" "run")).2.world.registry.handles =
        trapperWorld.registry.handles ∧
      ∃ c ∈ trapperRoot.calls (.standard .default), ∃ r, c.request? = some r ∧
        (∀ invoke, (c.after invoke).world.registry.isLive r.context.input = false ∧
          (c.after invoke).world.registry.isLive r.context.output = false) ∧
        ∀ handle, handle = r.context.input ∨ handle = r.context.output →
          ∀ place, (trapperEnd r).place? handle = some place →
            r.world.registry.place? handle = some place := by
  obtain ⟨frugal, linked⟩ := Bool.and_eq_true_iff.mp trapperRoot_links
  obtain ⟨link, follows, operates, tree, -⟩ := links_free_their_buffers
  have ready : trapperWorld.registry.Ready := ⟨by decide +kernel, by decide +kernel⟩
  refine ⟨tree ⟨.standard .default, trapperWorld⟩ (.top "caller" "run") ready
    (Activation.frugal_of_frugalBy frugal), ?_⟩
  obtain ⟨c, hc, asks⟩ := List.any_eq_true.mp linked
  unfold HostCall.links at asks
  dsimp only at asks
  split at asks
  · rename_i guest entry backing
    obtain ⟨r, asked, few⟩ := (Option.any_eq_true _ _).mp asks
    obtain ⟨pos, le, few⟩ := of_decide_eq_true few
    refine ⟨c, hc, r, asked, fun invoke => ?_, ?_⟩
    · have freed := ((link c.function guest entry backing c.site invoke).2 r asked).2.1
      exact ⟨freed.1, freed.2.1⟩
    · exact ((link c.function guest entry backing c.site
        (Invocation.invoke (.standard .default) (trapperRoot.levels - 1))).2 r asked).2.2.2 ⟨pos, le⟩
          (follows _ (operates _) _ _ _) few
  · cases asks

/-! ## A guest that makes handles come round -/

/-- What a guest imports from the core module, on a host with nothing else, are core functions. -/
theorem Sandbox.core_called {config : Config} {context : Context} {w : World} {s : Sandbox}
    (prepared : ((prepare (.standard config) context).run w).1 = .ok s) {index : Nat}
    {f : HostFunction} (called : s.called? index = some f) (core : f.module = Core.module) :
    (∃ call ∈ Core.calls, f.Typed call.1 (.i32s call.2.1) (.native call.2.2)) ∨
      f.Typed "call_function" (.i32s 10) .callFunction := by
  obtain ⟨resolver, first, -, offered⟩ := offered_resolver prepared called
  rw [core] at first
  have provides : Resolver.first? (.standard config) context w Core.module = some .provider := rfl
  obtain rfl := Option.some.inj (first.symm.trans provides)
  have offers : Resolver.Offers _ (.standard config) .provider := fun module provider found => by
    rw [Platform.provider_of_standard found]
    exact Core.offers_typed
  exact offered _ offers

namespace Sandbox

variable {invoke : Invoke} {s : Sandbox} {around : Surroundings}

/-- A guest whose entry frees its input, makes and frees 2^32 - 3 buffers, and makes another. -/
def churner : String :=
  "(module (import \"core\" \"get_input_buffer_id\" (func $input (result i32)))" ++
    " (import \"core\" \"create_exchange_buffer\" (func $create (result i32)))" ++
    " (import \"core\" \"free_buffer\" (func $free (param i32) (result i32)))" ++
    " (func (export \"f\") (result i32) (local i32) call $input call $free drop" ++
    " i32.const -3 local.set 0 loop call $create call $free drop" ++
    " local.get 0 i32.const 1 i32.sub local.set 0 local.get 0 br_if 0 end call $create))"

/-- What it does in front of its loop. -/
def churnerStart : List Wasm.Instr :=
  [.call 0, .call 2, .drop, .const (.i32 0xfffffffd), .localSet 0]

/-- One turn of its loop. -/
def churnerTurn : List Wasm.Instr :=
  [.call 1, .call 2, .drop, .localGet 0, .const (.i32 1), .binary32 .sub, .localSet 0, .localGet 0,
    .brIf 0]

/-- What it does behind its loop. -/
def churnerEnd : List Wasm.Instr := [.call 1]

/-- The guest as it is compiled. -/
def churnerModule : Wasm.Module where
  imports := [⟨"core", "get_input_buffer_id", .function ⟨[], [.i32]⟩⟩,
    ⟨"core", "create_exchange_buffer", .function ⟨[], [.i32]⟩⟩,
    ⟨"core", "free_buffer", .function ⟨[.i32], [.i32]⟩⟩]
  functions := #[⟨⟨[], [.i32]⟩, [.i32], churnerStart ++ .loop churnerTurn :: churnerEnd⟩]
  exports := [("f", .function 3)]
  memories := []
  data := []
  start := none

/-- The functions that it imports, as the core has them. -/
def churnerCalls : List (String × Nat × Call UInt32) :=
  [("get_input_buffer_id", 0, Core.inputBuffer), ("create_exchange_buffer", 0, Core.createBuffer),
    ("free_buffer", 1, Core.freeBuffer)]

/-- The context in which a link of a new host invokes it. -/
def churnerContext : Context :=
  ((Context.nested (Context.top "caller" "run").toInvocation "guest" "f").withArguments
    []).withBuffers 1 2

/-- What is known of the guest when it has been prepared. -/
structure ChurnerPrepared (s : Sandbox) : Prop where
  context_eq : s.context = churnerContext
  program_eq : s.program = churnerModule
  fits : s.program.imports.findSome? s.misfit? = none
  bound : ∀ index name count call, churnerCalls[index]? = some (name, count, call) →
    ∃ f, s.called? index = some f ∧ f.Typed name (.i32s count) (.native call)

/-- The guest in its own code, with so many turns to go. -/
def churnerAt (turns : UInt32) (operands : List Wasm.Value) (code : List Wasm.Instr)
    (labels : List Wasm.Label) : Wasm.Machine :=
  ⟨churnerModule, .none, ⟨#[.i32 turns], operands, code, labels, 1⟩, [⟨#[], [], [], [], 1⟩]⟩

/-- The guest in front of its loop. -/
def churning (turns : UInt32) : Wasm.Machine :=
  churnerAt turns [] (.loop churnerTurn :: churnerEnd) []

/-- Where its loop goes on, and where it ends. -/
def churnerLoop : Wasm.Label := ⟨0, .loop churnerTurn :: churnerEnd, [], churnerEnd⟩

/-! ## Its host calls -/

/-- What the guest shows when it calls a function. -/
def churnerSite (arguments : List Wasm.Value) (around : Surroundings) : Site :=
  ⟨arguments, .none, churnerContext.toInvocation, around.process, around.world⟩

namespace ChurnerPrepared

variable {count : UInt32} {code : List Wasm.Instr} {labels : List Wasm.Label}

/-- What a function that the guest imports does, the guest gets of calling it by its number. -/
theorem hostCall (h : ChurnerPrepared s) (invoke : Invoke) {index params : Nat} {name : String}
    {call : Call UInt32} (imported : churnerCalls[index]? = some (name, params, call))
    {arguments : List Wasm.Value} {word : UInt32} {w : World}
    (run : call.run (churnerSite arguments around) =
      (.ok word, { churnerSite arguments around with world := w })) :
    (Sandbox.hostCall invoke s index arguments .none).run around =
      (.ok ([.i32 word], .none), { around with world := w }) := by
  obtain ⟨f, called, typed⟩ := h.bound index name params call imported
  have site : s.site arguments .none around = churnerSite arguments around := by
    unfold Sandbox.site
    rw [h.program_eq, h.context_eq]
    rfl
  have behind : (f.backing.run invoke).run (churnerSite arguments around) =
      (.ok word, { churnerSite arguments around with world := w }) := by
    rw [typed.backing_eq, Backing.run]
    exact run
  unfold Sandbox.hostCall
  rw [called, h.program_eq]
  simp only [run_bind, run_get, site, HostFunction.run_call_of_backing behind typed.result_eq rfl]
  rfl

/-- The guest is told its input. -/
theorem asks (h : ChurnerPrepared s) (invoke : Invoke) (around : Surroundings) :
    Comes invoke s 1 (churnerAt count [] (.call 0 :: code) labels) around
      (churnerAt count [.i32 1] code labels) around := by
  have step : (churnerAt count [] (.call 0 :: code) labels).step =
      .calling 0 [] (churnerAt count [] code labels) := rfl
  have run : Core.inputBuffer.run (churnerSite [] around) = (.ok 1, churnerSite [] around) := rfl
  exact Comes.of_calling step (h.hostCall invoke rfl run)

/-- **The guest makes a buffer.** -/
theorem makes (h : ChurnerPrepared s) (invoke : Invoke) (around : Surroundings) :
    Comes invoke s 1 (churnerAt count [] (.call 1 :: code) labels) around
      (churnerAt count [.i32 (Call.handle around.world.registry.nextHandle)] code labels)
      { around with world := around.world.create.2 } := by
  have step : (churnerAt count [] (.call 1 :: code) labels).step =
      .calling 1 [] (churnerAt count [] code labels) := rfl
  have run : Core.createBuffer.run (churnerSite [] around) =
      (.ok (Call.handle around.world.registry.nextHandle),
        { churnerSite [] around with world := around.world.create.2 }) := rfl
  exact Comes.of_calling step (h.hostCall invoke rfl run)

/-- **The guest frees a buffer** that is live. -/
theorem frees (h : ChurnerPrepared s) (invoke : Invoke) {word : UInt32}
    (live : around.world.registry.isLive word.toNat = true) :
    Comes invoke s 1 (churnerAt count [.i32 word] (.call 2 :: code) labels) around
      (churnerAt count [.i32 0] code labels)
      { around with world := (around.world.release word.toNat).2 } := by
  have step : (churnerAt count [.i32 word] (.call 2 :: code) labels).step =
      .calling 2 [.i32 word] (churnerAt count [] code labels) := rfl
  have run : Core.freeBuffer.run (churnerSite [.i32 word] around) = (.ok 0,
      { churnerSite [.i32 word] around with world := (around.world.release word.toNat).2 }) := by
    have passed : (churnerSite [.i32 word] around).arguments[0]? = some (.i32 word) := rfl
    have released : (around.world.release word.toNat).1 = true := live
    unfold Core.freeBuffer
    rw [Call.run_word_bind passed]
    simp only [run_bind, Call.run_world, Call.run_setWorld, churnerSite, released, if_true]
    rfl
  exact Comes.of_calling step (h.hostCall invoke rfl run)

/-! ## Its turns -/

/-- Behind its calls the guest counts one turn less, and is in front of its loop again or at the end
of its last turn. -/
theorem counts (invoke : Invoke) (s : Sandbox) (turns : UInt32) (around : Surroundings) :
    Comes invoke s 7 (churnerAt turns [.i32 0] (churnerTurn.drop 2) [churnerLoop]) around
      (if turns - 1 = 0 then churnerAt (turns - 1) [] [] [churnerLoop] else churning (turns - 1))
      around := fun fuel => by
  have less : (drive invoke s (fuel + 7)
      (churnerAt turns [.i32 0] (churnerTurn.drop 2) [churnerLoop])).run around =
        (drive invoke s (fuel + 1)
          (churnerAt (turns - 1) [.i32 (turns - 1)] [.brIf 0] [churnerLoop])).run around := rfl
  have branches : (churnerAt (turns - 1) [.i32 (turns - 1)] [.brIf 0] [churnerLoop]).step =
      if turns - 1 = 0 then .running (churnerAt (turns - 1) [] [] [churnerLoop])
      else .running (churning (turns - 1)) := rfl
  rw [less, drive, branches]
  by_cases last : turns - 1 = 0
  · rw [if_pos last, if_pos last]
  · rw [if_neg last, if_neg last]

/-- **One turn of the loop makes a buffer and frees it.** -/
theorem turn (h : ChurnerPrepared s) (invoke : Invoke) {made : Nat}
    (churned : around.world.registry.Churned made) (few : made + 2 < maxWord) (turns : UInt32) :
    ∃ around', around'.world.registry.Churned (made + 1) ∧
      Comes invoke s 10 (churning turns) around
        (if turns - 1 = 0 then churnerAt (turns - 1) [] [] [churnerLoop] else churning (turns - 1))
        around' := by
  have begins : Comes invoke s 1 (churning turns) around
      (churnerAt turns [] churnerTurn [churnerLoop]) around := fun _ => rfl
  have word : (Call.handle around.world.registry.nextHandle).toNat =
      around.world.registry.nextHandle := by
    refine Call.toNat_handle ?_
    rw [churned.nextHandle_eq]
    exact Registry.following_le _
  have live : around.world.create.2.registry.isLive
      (Call.handle around.world.registry.nextHandle).toNat = true := by
    rw [word]
    exact (Registry.isLive_register _).mpr (.inl rfl)
  refine ⟨_, ?_, ((begins.trans (h.makes invoke around)).trans (h.frees invoke live)).trans
    (counts invoke s turns _)⟩
  show ((around.world.registry.register _).release
    (Call.handle around.world.registry.nextHandle).toNat).Churned (made + 1)
  rw [word]
  exact churned.turn few _

/-- **Turns of the loop**, as long as there are more to come. -/
theorem turns (h : ChurnerPrepared s) (invoke : Invoke) {made : Nat}
    (churned : around.world.registry.Churned made) (left n : Nat) (more : 0 < left)
    (few : made + n + 2 ≤ maxWord) (word : left + n ≤ maxWord) :
    ∃ around', around'.world.registry.Churned (made + n) ∧
      Comes invoke s (10 * n) (churning (UInt32.ofNat (left + n))) around
        (churning (UInt32.ofNat left)) around' := by
  induction n generalizing made around with
  | zero => exact ⟨around, churned, fun _ => rfl⟩
  | succ n ih =>
    obtain ⟨around', churned', comes⟩ :=
      h.turn invoke churned (by omega) (UInt32.ofNat (left + (n + 1)))
    have less : UInt32.ofNat (left + (n + 1)) - 1 = UInt32.ofNat (left + n) :=
      ofNat_succ_sub_one (left + n)
    have goesOn : UInt32.ofNat (left + n) ≠ 0 := ofNat_ne_zero (by omega) (by omega)
    rw [less, if_neg goesOn] at comes
    obtain ⟨around'', churned'', comes'⟩ := ih churned' (by omega) (by omega)
    refine ⟨around'', ?_, ?_⟩
    · rwa [Nat.add_assoc, Nat.add_comm 1] at churned''
    · rw [Nat.mul_succ, Nat.add_comm]
      exact comes.trans comes'

/-! ## Its run -/

/-- In front of its loop the guest frees its input. -/
theorem starts (h : ChurnerPrepared s) (invoke : Invoke) (around : Surroundings)
    (made : around.world.registry =
      (Registry.empty.register Nesting.blank).register Nesting.blank) :
    ∃ around', around'.world.registry.Churned 0 ∧
      Comes invoke s 6 (.start churnerModule .none 3 []) around (churning 0xfffffffd) around' := by
  have calls : Comes invoke s 1 (.start churnerModule .none 3 []) around
      (churnerAt 0 [] (churnerStart ++ .loop churnerTurn :: churnerEnd) []) around := fun _ => rfl
  have live : around.world.registry.isLive (1 : UInt32).toNat = true := by
    rw [made]
    rfl
  have loops (around' : Surroundings) : Comes invoke s 3
      (churnerAt 0 [.i32 0] (churnerStart.drop 2 ++ .loop churnerTurn :: churnerEnd) []) around'
      (churning 0xfffffffd) around' := fun _ => rfl
  refine ⟨_, ?_, ((calls.trans (h.asks invoke around)).trans (h.frees invoke live)).trans (loops _)⟩
  show (around.world.registry.release 1).Churned 0
  rw [made]
  exact Registry.churned_release _ _

/-- **The handle of its input stands for another buffer in the end**: for the last of 2^32. -/
theorem comes_round (h : ChurnerPrepared s) (invoke : Invoke) (w : World)
    (made : w.registry =
      (Registry.empty.register Nesting.blank).register Nesting.blank) :
    ((s.run invoke none).run w).2.registry.place? 1 = some maxWord := by
  -- all turns but the last, and the last
  obtain ⟨freed, churned, begins⟩ := h.starts invoke (s.surroundings w) made
  obtain ⟨around, churned, comes⟩ :=
    h.turns invoke churned 1 4294967292 (by decide) (by decide) (by decide)
  obtain ⟨around', churned', last⟩ := h.turn invoke churned (by decide) 1
  have ends : Comes invoke s 1 (churnerAt 0 [] [] [churnerLoop]) around'
      (churnerAt 0 [] churnerEnd []) around' := fun _ => rfl
  have whole := (((begins.trans comes).trans last).trans ends).trans (h.makes invoke around')
  -- what the run does apart from its steps
  have loaded : s.loaded = .ok .none := by
    unfold Sandbox.loaded
    rw [h.fits, h.program_eq]
    rfl
  have entry : s.entry .none = .ok (.start churnerModule .none 3 []) := by
    unfold Sandbox.entry
    rw [h.program_eq, h.context_eq]
    rfl
  have start : s.program.start = none := by rw [h.program_eq]; rfl
  obtain ⟨fuel, much⟩ : ∃ fuel, unlimited = fuel + 2 + (6 + 10 * 4294967292 + 10 + 1 + 1) :=
    ⟨4611685975477714964, rfl⟩
  have readied : (pure ⟨unlimited, [], .none⟩ : Running Rest).run (s.surroundings w) =
      (.ok ⟨unlimited, [], .none⟩, s.surroundings w) := rfl
  have done : (drive invoke s unlimited (.start churnerModule .none 3 [])).run (s.surroundings w) =
      (.ok ⟨fuel, [.i32 (Call.handle around'.world.registry.nextHandle)], .none⟩,
        { around' with world := around'.world.create.2 }) := by
    rw [much, whole]
    rfl
  rw [world_run]
  show ((callEntry invoke s unlimited).run (s.surroundings w)).2.world.registry.place? 1 = _
  unfold callEntry instantiate
  rw [loaded, start, run_bind, readied]
  dsimp only
  rw [entry]
  dsimp only
  rw [run_bind, done]
  exact (churned'.comes_round Nesting.blank).2

end ChurnerPrepared

/-! ## Its host -/

/-- The world of a host that has compiled the guest. -/
@[irreducible]
def churnerWorld : World :=
  let h := ((Host.new .default .offline 0).registerGuest "guest" (Utf8.encode churner)).2
  { h.world with
    modules := .ofList [(Store.Blob.idOf (Utf8.encode churner), churnerModule)] }

theorem registry_churnerWorld : churnerWorld.registry = .empty := by
  unfold churnerWorld
  rfl

/-- What the invocation of the guest through a link starts from. -/
def churnerEntered : World := churnerWorld.create.2.create.2

theorem registry_churnerEntered : churnerEntered.registry =
    (Registry.empty.register Nesting.blank).register Nesting.blank := by
  show (churnerWorld.registry.register Nesting.blank).register Nesting.blank = _
  rw [registry_churnerWorld]

/-- Whether the functions of a guest that are called by number are those that the guest imports. -/
def churnerKnown (s : Sandbox) : Bool :=
  churnerCalls.zipIdx.all fun named => (s.called? named.2).any fun f =>
    f.module == Core.module && f.name == named.1.1

theorem churner_prepares :
    (((prepare (.standard .default) churnerContext).run churnerEntered).1.toOption.any fun s =>
      churnerKnown s && (s.program.imports.findSome? s.misfit?).isNone) = true := by
  decide +kernel

theorem churner_resolves : (Loading.resolve churnerEntered.shelf "guest").toOption =
    some (Store.Blob.idOf (Utf8.encode churner)) := by
  decide +kernel

/-- The guest loaded from the world that has compiled it. -/
theorem churner_loads {program : Wasm.Module}
    (loads : ((Loading.load "guest").run churnerEntered).1 = .ok program) :
    program = churnerModule := by
  have id : Loading.resolve churnerEntered.shelf "guest" =
      .ok (Store.Blob.idOf (Utf8.encode churner)) := toOption_eq_some_iff.mp churner_resolves
  have kept : churnerEntered.modules.find? (Store.Blob.idOf (Utf8.encode churner)) =
      some churnerModule := by
    show churnerWorld.modules.find? _ = _
    unfold churnerWorld
    refine (Table.find?_ofList _ _).trans ?_
    simp
  rw [Loading.run_load_of_kept id kept] at loads
  exact (Except.ok.inj loads).symm

theorem churner_prepared
    (prepared : ((prepare (.standard .default) churnerContext).run churnerEntered).1 = .ok s)
    (known : churnerKnown s = true) (fits : s.program.imports.findSome? s.misfit? = none) :
    ChurnerPrepared s := by
  obtain ⟨reaches, context⟩ := reaches_of_prepare prepared
  refine ⟨context, churner_loads reaches.loads, fits, fun index name params call imported => ?_⟩
  have listed : ((name, params, call), index) ∈ churnerCalls.zipIdx :=
    List.mem_zipIdx_iff_getElem?.mpr imported
  obtain ⟨f, called, same⟩ := (Option.any_eq_true _ _).mp (List.all_eq_true.mp known _ listed)
  obtain ⟨module, named⟩ := Bool.and_eq_true_iff.mp same
  have core : (name, params, call) ∈ Core.calls := by
    have all : ∀ call ∈ churnerCalls, call ∈ Core.calls := by
      simp [churnerCalls, Core.calls]
    exact all _ (List.mem_of_getElem? imported)
  have distinct : (Core.calls.map Prod.fst).Nodup := by decide
  refine ⟨f, called, ?_⟩
  rcases core_called prepared called (eq_of_beq module) with ⟨call', hcall, typed⟩ | typed
  · obtain rfl := List.inj_on_of_nodup_map distinct hcall core
      (typed.name_eq.symm.trans (eq_of_beq named))
    exact typed
  · have other : ∀ call ∈ Core.calls, call.1 ≠ "call_function" := by decide
    exact absurd ((eq_of_beq named).symm.trans typed.name_eq) (other _ core)

/-- **The invocation leaves another buffer behind the handle of its input.** -/
theorem churner_ends (levels : Nat) :
    ((Invocation.invoke (.standard .default) (levels + 1) churnerContext).run
      churnerEntered).2.registry.place? 1 = some maxWord := by
  obtain ⟨s, prepared, holds⟩ := ok_of_toOption_any churner_prepares
  obtain ⟨known, fits⟩ := Bool.and_eq_true_iff.mp holds
  have h := churner_prepared prepared known (Option.isNone_iff_eq_none.mp fits)
  have kept := (obeys_prepare (I := fun t => t.registry = churnerEntered.registry)
    (fun _ _ h => h) (Loading.obeys_load fun _ _ h => h) (.standard .default) churnerContext
    churnerEntered rfl).1
  unfold Invocation.invoke
  rw [run_bind]
  cases came : (prepare (.standard .default) churnerContext).run churnerEntered with
  | mk outcome t =>
    rw [came] at prepared kept
    obtain rfl : outcome = .ok s := prepared
    exact h.comes_round _ t (kept.trans registry_churnerEntered)

end Sandbox

/-! ## A link that frees another buffer -/

namespace HostFunction

open Sandbox

/-- A link to the guest. -/
def linkToGuest : HostFunction := ⟨"guest", "f", ⟨[], [.i32]⟩, some .i32, .guest "guest" "f"⟩

/-- Where it is called on a new host. -/
def linkSite : Site where
  arguments := []
  memory := .none
  invocation := (Context.top "caller" "run").toInvocation
  process := .unbound
  world := churnerWorld

theorem asked_linkSite : linkToGuest.backing.request? linkSite =
    some ⟨.link, churnerContext, churnerEntered⟩ := by
  have first : linkSite.world.create.1 = 1 := by
    show churnerWorld.registry.nextHandle = 1
    rw [registry_churnerWorld]
    rfl
  have second : linkSite.world.create.2.create.1 = 2 := by
    show (churnerWorld.registry.register Nesting.blank).nextHandle = 2
    rw [registry_churnerWorld]
    rfl
  show Nesting.request? .link ((Nesting.linkContext "guest" "f").run linkSite) = _
  rw [Nesting.run_linkContext_eq, first, second]
  rfl

/-- **A link can free a buffer that it has not made.** The guest that it invokes releases the input
of the link and goes on to make buffers until the handle comes round. The handle stands for the last
of these in the end, and the link frees it. -/
theorem link_frees_another : ∃ r, linkToGuest.backing.request? linkSite = some r ∧
    let invoke := Invocation.invoke (.standard .default)
      (Invocation.levels (.standard .default) r.context.depth)
    let ended := ((invoke r.context).run r.world).2.registry
    r.world.registry.place? r.context.input = some 0 ∧
      ended.place? r.context.input = some maxWord ∧
      ((linkToGuest.call invoke).run linkSite).2.world.registry.place? r.context.input = none := by
  refine ⟨_, asked_linkSite, ?_, ?_, ?_⟩
  · show churnerEntered.registry.place? 1 = some 0
    rw [registry_churnerEntered]
    rfl
  · obtain ⟨levels, deeper⟩ : ∃ levels,
        Invocation.levels (.standard .default) churnerContext.depth = levels + 1 := ⟨_, rfl⟩
    dsimp only
    rw [deeper]
    exact churner_ends levels
  · rw [registry_link asked_linkSite rfl, Registry.place?_release, Registry.place?_release,
      if_pos rfl]
    exact ite_self none

end HostFunction

end GuestHost
