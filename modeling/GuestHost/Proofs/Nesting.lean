import GuestHost.Nesting
import GuestHost.Proofs.Stateful
/-!
# What a nested invocation is and what its caller gets

A host function asks for one nested invocation or for none, and which one it is does not depend on
how invocations are carried out: `Backing.request?`. It comes in one of two ways, through a link or
by name. The context asked for is one deeper than the caller's and extends its chain,
`Backing.nestedIn_request`, and what the caller gets for it is fixed by the way and by the outcome:
`HostFunction.run_value`.
-/

namespace GuestHost

open Stateful

/-- The ways in which a guest invokes another. -/
inductive Via where
  | link
  | name
  deriving DecidableEq

/-- A nested invocation that a host function asks for, and the world in which it starts. -/
structure Request where
  via : Via
  context : Context
  world : World

namespace Nesting

/-- The request of a host call that has put together a context. -/
def request? (via : Via) : Except CallError Context × Site → Option Request
  | (.ok context, site) => some ⟨via, context, site.world⟩
  | (.error _, _) => none

theorem request?_eq_some {via : Via} {come : Except CallError Context × Site} {r : Request}
    (h : request? via come = some r) :
    come.1 = .ok r.context ∧ r.via = via ∧ r.world = come.2.world := by
  obtain ⟨outcome, site⟩ := come
  cases outcome with
  | error e => cases h
  | ok context =>
    obtain rfl := Option.some.inj h
    exact ⟨rfl, rfl, rfl⟩

theorem request?_of_ok {via : Via} {come : Except CallError Context × Site} {context : Context}
    (h : come.1 = .ok context) : request? via come = some ⟨via, context, come.2.world⟩ := by
  obtain ⟨outcome, site⟩ := come
  obtain rfl := h
  rfl

end Nesting

/-- The nested invocation that a host function asks for at a site. -/
def Backing.request? (site : Site) : Backing → Option Request
  | .handler (.native _) => none
  | .handler .callFunction => Nesting.request? .name (Nesting.namedContext.run site)
  | .guest name entry => Nesting.request? .link ((Nesting.linkContext name entry).run site)

/-! ## Contexts -/

/-- A context is that of an invocation nested in another. -/
structure Context.Extends (c : Context) (parent : Invocation) : Prop where
  depth_eq : c.depth = parent.depth + 1
  chain_eq : c.chain = parent.chain ++ [c.guest]

/-- A context put together for an invocation nested in another. -/
def Context.NestedIn (c : Context) (parent : Invocation) : Prop :=
  ∃ guest entry arguments mode input output,
    c = (((nested parent guest entry).withArguments arguments).withMode mode).withBuffers
      input output

theorem Context.NestedIn.extends {c : Context} {parent : Invocation} (h : c.NestedIn parent) :
    c.Extends parent := by
  obtain ⟨_, _, _, _, _, _, rfl⟩ := h
  exact ⟨rfl, rfl⟩

namespace Nesting

variable {I : Site → Prop}

theorem obeys_argument (index : Nat) : Obeys I (Call.argument index) fun _ => True := by
  refine Obeys.bind Obeys.get fun site _ => ?_
  cases site.arguments[index]? with
  | some value => exact Obeys.pure trivial
  | none => exact Obeys.throw _

theorem obeys_word (index : Nat) : Obeys I (Call.word index) fun _ => True := by
  refine Obeys.bind (obeys_argument index) fun value _ => ?_
  cases value with
  | i32 word => exact Obeys.pure trivial
  | _ => exact Obeys.throw _

theorem obeys_signed (index : Nat) : Obeys I (Call.signed index) fun _ => True :=
  Obeys.bind (obeys_word index) fun _ _ => Obeys.pure trivial

theorem obeys_words : Obeys I Call.words fun _ => True :=
  Obeys.bind Obeys.get fun _ _ => Obeys.mapM obeys_signed _

theorem obeys_ofAccess {α : Type} (access : Except Memory.OutOfBounds α) :
    Obeys I (Call.ofAccess access) fun _ => True := by
  cases access with
  | ok value => exact Obeys.pure trivial
  | error e => exact Obeys.throw _

theorem obeys_slice (offset length : Nat) : Obeys I (Call.slice offset length) fun _ => True :=
  Obeys.bind Obeys.get fun _ _ => obeys_ofAccess _

/-- To spell the integers of a range out later is to read the range now. -/
theorem integersAt_eq (address length : Nat) :
    integersAt address length = do return .pure (integers (← Call.slice address length)) := by
  refine funext fun site => ?_
  change (integersAt address length).run site =
    (do return .pure (integers (← Call.slice address length)) : Call (Thunk (List Int32))).run site
  unfold integersAt Call.range Call.slice Memory.check Memory.slice
  simp only [run_bind, run_get]
  by_cases inside : site.memory.Holds address length <;> simp only [inside, if_true, if_false] <;>
    rfl

theorem obeys_integersAt (address length : Nat) :
    Obeys I (integersAt address length) fun _ => True := by
  rw [integersAt_eq]
  exact Obeys.bind (obeys_slice address length) fun _ _ => Obeys.pure trivial

theorem obeys_text (address length : Nat) : Obeys I (Call.text address length) fun _ => True := by
  refine Obeys.bind (obeys_word address) fun offset _ => ?_
  refine Obeys.bind (obeys_word length) fun length _ => ?_
  refine Obeys.bind (obeys_slice offset length) fun bytes _ => ?_
  cases Utf8.decode? bytes with
  | some text => exact Obeys.pure trivial
  | none => exact Obeys.throw _

theorem obeys_create (h : ∀ site world, I site → I { site with world := world }) :
    Obeys I create fun _ => True :=
  Obeys.bind (P := fun _ => True) (Obeys.bind Obeys.get fun _ _ => Obeys.pure trivial) fun _ _ =>
    Obeys.bind (Obeys.update fun site hsite => h site _ hsite) fun _ _ => Obeys.pure trivial

variable {i : Invocation}

theorem obeys_invocation (hI : ∀ site, I site → site.invocation = i) :
    Obeys I Call.invocation fun j => j = i :=
  Obeys.bind Obeys.get fun site hsite => Obeys.pure (hI site hsite)

/-- A link nests its guest in the caller. -/
theorem obeys_linkContext (guest entry : String) :
    Obeys (fun site => site.invocation = i) (linkContext guest entry) fun c =>
      c.NestedIn i ∧ c.guest = guest := by
  have create := obeys_create (I := fun site => site.invocation = i) fun _ _ h => h
  refine Obeys.bind obeys_words fun arguments _ => ?_
  refine Obeys.bind create fun input _ => Obeys.bind create fun output _ => ?_
  refine Obeys.bind (obeys_invocation fun _ h => h) fun j hj => ?_
  obtain rfl := hj
  exact Obeys.pure ⟨⟨guest, entry, arguments, .direct, input, output, rfl⟩, rfl⟩

/-- So does a call by name, which changes nothing before it. -/
theorem obeys_namedContext (hI : ∀ site, I site → site.invocation = i) :
    Obeys I namedContext fun c => c.NestedIn i := by
  refine Obeys.bind (obeys_text 0 1) fun guest _ => Obeys.bind (obeys_text 2 3) fun entry _ => ?_
  refine Obeys.bind (obeys_word 4) fun address _ => Obeys.bind (obeys_word 5) fun count _ => ?_
  refine Obeys.bind (obeys_integersAt _ _) fun arguments _ => ?_
  refine Obeys.bind (obeys_text 6 7) fun name _ => ?_
  cases Mode.ofText? name with
  | none => exact Obeys.throw _
  | some mode =>
    refine Obeys.bind (obeys_word 8) fun input _ => Obeys.bind (obeys_word 9) fun output _ => ?_
    refine Obeys.bind (obeys_invocation hI) fun j hj => ?_
    obtain rfl := hj
    exact Obeys.pure ⟨guest, entry, arguments.get, mode, input, output, rfl⟩

/-- Up to the request, a call by name leaves its site as it is. -/
theorem run_namedContext (site : Site) :
    namedContext.run site = ((namedContext.run site).1, site) :=
  Prod.ext rfl (obeys_namedContext (I := (· = site)) (i := site.invocation)
    (fun _ h => h ▸ rfl) site rfl).1

/-- A link reads the arguments of the call first, and makes its buffers once it has them all. -/
theorem run_linkContext_eq (guest entry : String) (site : Site) :
    (linkContext guest entry).run site =
      match (Call.words.run site).1 with
      | .ok arguments =>
        (.ok (((Context.nested site.invocation guest entry).withArguments arguments).withBuffers
            site.world.create.1 site.world.create.2.create.1),
          { site with world := site.world.create.2.create.2 })
      | .error e => (.error e, site) := by
  have same := (obeys_words (I := (· = site)) site rfl).1
  unfold linkContext
  rw [run_bind, same]
  cases (Call.words.run site).1 <;> rfl

end Nesting

/-- **A nested invocation is nested in its caller**, and one made through a link is of the guest
that the function is linked to. -/
theorem Backing.nestedIn_request {backing : Backing} {site : Site} {r : Request}
    (h : backing.request? site = some r) :
    r.context.NestedIn site.invocation ∧
      (r.via = .link → ∃ entry, backing = .guest r.context.guest entry) := by
  cases backing with
  | handler handler =>
    cases handler with
    | native run => cases h
    | callFunction =>
      obtain ⟨asked, via, -⟩ := Nesting.request?_eq_some h
      have spec := (Nesting.obeys_namedContext (I := (· = site)) (i := site.invocation)
        (fun _ h => h ▸ rfl) site rfl).2 _ asked
      exact ⟨spec, fun link => nomatch via.symm.trans link⟩
  | guest name entry =>
    obtain ⟨asked, -, -⟩ := Nesting.request?_eq_some h
    have spec := (Nesting.obeys_linkContext name entry site rfl).2 _ asked
    exact ⟨spec.1, fun _ => ⟨entry, by rw [spec.2]⟩⟩

/-! ## What the caller gets -/

/-- What the caller of a nested invocation gets for its outcome. A failure behind a link stops
it, and so does the failure of a call by name that nests too deep; of any other failure of a call
by name it gets the sentinel. -/
def Via.answer : Via → Except Failure Context → Except CallError UInt32
  | _, .ok context => .ok (Nesting.returned context)
  | link, .error e => .error (.fatal (.failure e))
  | name, .error (.depthExceeded guest max) =>
    .error (.fatal (.failure (.depthExceeded guest max)))
  | name, .error _ => .ok sentinel

namespace Nesting

variable {invoke invoke' : Invoke}

theorem run_attempt (context : Context) (site : Site) :
    (attempt invoke context).run site =
      (.ok ((invoke context).run site.world).1,
        { site with world := ((invoke context).run site.world).2 }) := rfl

theorem run_release (handle : Nat) (site : Site) :
    (release handle).run site = (.ok (), { site with world := (site.world.release handle).2 }) :=
  rfl

/-- A link ends as its answer says. -/
theorem run_link {guest entry : String} {site : Site} {r : Request}
    (h : (Backing.guest guest entry).request? site = some r) :
    ((link invoke guest entry).run site).1 =
      Via.link.answer ((invoke r.context).run r.world).1 := by
  obtain ⟨asked, -, world⟩ := request?_eq_some h
  unfold link
  simp only [run_bind, asked, run_attempt, run_release, ← world]
  cases ((invoke r.context).run r.world).1 <;> rfl

/-- A call by name ends as its answer says, but a failure that the caller survives has not become
the sentinel yet. -/
theorem run_byName {site : Site} {r : Request}
    (h : (Backing.handler .callFunction).request? site = some r) :
    ((byName invoke).run site).1 =
      match ((invoke r.context).run r.world).1 with
      | .ok context => .ok (returned context)
      | .error (.depthExceeded guest max) =>
        .error (.fatal (.failure (.depthExceeded guest max)))
      | .error e => .error (.recoverable (.failure e)) := by
  obtain ⟨asked, -, world⟩ := request?_eq_some h
  unfold byName
  simp only [run_bind, asked, run_attempt, ← world]
  cases ((invoke r.context).run r.world).1 with
  | ok context => rfl
  | error e => cases e <;> rfl

end Nesting

/-- **What the caller of a nested invocation gets is settled by the way and the outcome.** -/
theorem HostFunction.run_value {f : HostFunction} {site : Site} {r : Request} (invoke : Invoke)
    (h : f.backing.request? site = some r) :
    ((f.value invoke).run site).1 = r.via.answer ((invoke r.context).run r.world).1 := by
  unfold value
  rw [run_tryCatch]
  cases hb : f.backing with
  | handler handler =>
    cases handler with
    | native run => simp [hb, Backing.request?] at h
    | callFunction =>
      -- what the caller survives becomes the sentinel here
      rw [hb] at h
      obtain ⟨-, via, -⟩ := Nesting.request?_eq_some h
      simp only [Backing.run, Nesting.run_byName h, via]
      cases ((invoke r.context).run r.world).1 with
      | ok context => rfl
      | error e => cases e <;> rfl
  | guest name entry =>
    rw [hb] at h
    obtain ⟨-, via, -⟩ := Nesting.request?_eq_some h
    simp only [Backing.run, Nesting.run_link h, via]
    cases ((invoke r.context).run r.world).1 <;> rfl

theorem HostFunction.call_of_error {invoke : Invoke} {site : Site} {e : CallError}
    (f : HostFunction) (h : ((f.value invoke).run site).1 = .error e) :
    ((f.call invoke).run site).1 = .error e := by
  unfold call
  rw [run_bind, h]

/-- A host function with a value hands it over, if it can, and takes a note of that if its context
is traced. -/
theorem HostFunction.run_call_of_value {invoke : Invoke} {site : Site} {word : UInt32}
    (f : HostFunction) (h : ((f.value invoke).run site).1 = .ok word) :
    let after := ((f.value invoke).run site).2
    ((f.call invoke).run site).1 = (f.results word).mapError .fatal ∧
      ((f.call invoke).run site).2 =
        if after.invocation.trace then
          { after with world := after.world.note (.call f.module f.name word) }
        else after := by
  unfold call
  rw [run_bind, h]
  generalize ((f.value invoke).run site).2 = after
  have seen : Call.invocation.run after = (.ok after.invocation, after) := rfl
  dsimp only
  rw [run_bind, seen]
  dsimp only
  cases after.invocation.trace <;> cases f.results word <;> exact ⟨rfl, rfl⟩

/-- A host function whose value is a word hands it over, and nothing else changes if its context is
not traced. -/
theorem HostFunction.run_call_of_backing {invoke : Invoke} {site after : Site} {word : UInt32}
    {f : HostFunction}
    (behind : (f.backing.run invoke).run site = (.ok word, after))
    (result : f.result = some .i32) (quiet : after.invocation.trace = false) :
    (f.call invoke).run site = (.ok [.i32 word], after) := by
  have value : (f.value invoke).run site = (.ok word, after) := by
    unfold value
    rw [run_tryCatch, behind]
  obtain ⟨outcome, left⟩ := f.run_call_of_value (congrArg Prod.fst value)
  rw [value] at left
  dsimp only at left
  rw [quiet] at left
  refine Prod.ext (outcome.trans ?_) left
  unfold results
  rw [result]
  rfl

/-! ## What a host function depends on -/

/-- Two ways to carry out invocations agree on a request. -/
def Agree (invoke invoke' : Invoke) (r : Request) : Prop :=
  (invoke r.context).run r.world = (invoke' r.context).run r.world

theorem Nesting.attempt_congr {context : Context} {site : Site} {invoke invoke' : Invoke}
    (h : (invoke context).run site.world = (invoke' context).run site.world) :
    (attempt invoke context).run site = (attempt invoke' context).run site := by
  rw [run_attempt, run_attempt, h]

theorem Backing.run_congr {backing : Backing} {site : Site} {invoke invoke' : Invoke}
    (h : ∀ r, backing.request? site = some r → Agree invoke invoke' r) :
    (backing.run invoke).run site = (backing.run invoke').run site := by
  cases backing with
  | handler handler =>
    cases handler with
    | native run => rfl
    | callFunction =>
      simp only [run, Nesting.byName, run_bind]
      cases asked : (Nesting.namedContext.run site).1 with
      | error e => rfl
      | ok context =>
        have agree := h _ (Nesting.request?_of_ok asked)
        simp only [Nesting.attempt_congr agree]
  | guest name entry =>
    simp only [run, Nesting.link, run_bind]
    cases asked : ((Nesting.linkContext name entry).run site).1 with
    | error e => rfl
    | ok context =>
      have agree := h _ (Nesting.request?_of_ok asked)
      simp only [Nesting.attempt_congr agree]

/-- **A host function depends on nested invocations by what it asks for only.** -/
theorem HostFunction.call_congr {f : HostFunction} {site : Site} {invoke invoke' : Invoke}
    (h : ∀ r, f.backing.request? site = some r → Agree invoke invoke' r) :
    (f.call invoke).run site = (f.call invoke').run site := by
  have value : (f.value invoke).run site = (f.value invoke').run site := by
    unfold value
    rw [run_tryCatch, run_tryCatch, Backing.run_congr h]
  unfold call
  rw [run_bind, run_bind, value]

end GuestHost
