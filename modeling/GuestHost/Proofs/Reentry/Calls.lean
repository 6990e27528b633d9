import GuestHost.Proofs.Reentry.Runs
/-!
# What a nested call leaves

A host call that asks for a nested invocation returns what the invocation comes to and leaves the
world that the invocation leaves, but for two buffers that a link has made and for notes in the log:
`HostFunction.after_value`, `HostFunction.run_call`. Through a link it asks for the linked guest,
with its own arguments: `Nesting.run_linkContext`.
-/

namespace GuestHost

open Stateful

variable {K : Prop}

/-! ## What a nested call leaves -/

/-- What the caller of a nested invocation does about the world that it leaves: buffers made for a
link are freed. -/
def Via.after : Via → Context → World → World
  | link, context, world => ((world.release context.input).2.release context.output).2
  | name, _, world => world

namespace Via

theorem same_after (v : Via) (context : Context) {w w' : World} (same : w.Same K w') :
    (v.after context w).Same K (v.after context w') := by
  cases v with
  | link => exact (World.blind_release _ _ _ (World.blind_release _ _ _ same).2).2
  | name => exact same

/-- The caller cannot tell invocations that end alike from one another. -/
theorem answer_eq_of_ends (v : Via) {r r' : Except Failure Context × World}
    (ends : Invocation.Ends K r r') : v.answer r.1 = v.answer r'.1 := by
  obtain ⟨c, c', _, _, rfl, rfl, contexts, -⟩ | ⟨e, _, _, rfl, rfl, -⟩ := ends.cases_never
  · cases v <;> simp only [answer, Nesting.returned_eq contexts]
  · rfl

/-- A failure of a call by name is answered with the sentinel, unless it is one of nesting. -/
theorem answer_name (outcome : Except Failure Context) :
    (∀ e, outcome = .error e → ¬ e.OfNesting) →
      Via.name.answer outcome = .ok (match outcome with
        | .ok c => Nesting.returned c
        | .error _ => sentinel) := by
  intro unnested
  cases outcome with
  | ok c => rfl
  | error e =>
    cases e with
    | depthExceeded guest max => exact absurd trivial (unnested _ rfl)
    | _ => rfl

end Via

namespace Nesting

variable {site : Site} {r : Request}

theorem after_link (invoke : Invoke) {guest entry : String}
    (h : (Backing.guest guest entry).request? site = some r) :
    ((link invoke guest entry).run site).2.world =
        Via.link.after r.context ((invoke r.context).run r.world).2 ∧
      ((link invoke guest entry).run site).2.invocation = site.invocation := by
  obtain ⟨asked, -, world⟩ := request?_eq_some h
  have same := (obeys_linkContext guest entry site rfl).1
  unfold link
  simp only [run_bind, asked, run_attempt, run_release, ← world]
  cases ((invoke r.context).run r.world).1 <;> exact ⟨rfl, same⟩

theorem after_byName (invoke : Invoke)
    (h : (Backing.handler .callFunction).request? site = some r) :
    ((byName invoke).run site).2.world =
        Via.name.after r.context ((invoke r.context).run r.world).2 ∧
      ((byName invoke).run site).2.invocation = site.invocation := by
  obtain ⟨asked, -, world⟩ := request?_eq_some h
  rw [run_namedContext] at world
  dsimp only at world
  unfold byName
  rw [run_bind, run_namedContext, asked]
  simp only [run_bind, run_attempt, world]
  cases ((invoke r.context).run site.world).1 with
  | ok context => exact ⟨rfl, rfl⟩
  | error e => cases e <;> exact ⟨rfl, rfl⟩

end Nesting

namespace HostFunction

variable {f : HostFunction} {site : Site} {r : Request}

/-- A host function notes down at most that its nested invocation has failed. -/
theorem after_value (invoke : Invoke) (h : f.backing.request? site = some r) :
    (r.via.after r.context ((invoke r.context).run r.world).2).Same (r.via = .link)
        ((f.value invoke).run site).2.world ∧
      ((f.value invoke).run site).2.invocation = site.invocation := by
  unfold value
  rw [run_tryCatch]
  cases hb : f.backing with
  | handler handler =>
    cases handler with
    | native run => simp [hb, Backing.request?] at h
    | callFunction =>
      rw [hb] at h
      obtain ⟨-, via, -⟩ := Nesting.request?_eq_some h
      obtain ⟨world, invocation⟩ := Nesting.after_byName invoke h
      simp only [Backing.run, Nesting.run_byName h, via, ← world]
      -- the failures that the caller survives are noted down
      have noted : ∀ event, World.Same (Via.name = .link) ((Nesting.byName invoke).run site).2.world
          (((Nesting.byName invoke).run site).2.world.note event) :=
        fun event => (World.Same.refl _).note_right (by simp) event
      cases ((invoke r.context).run r.world).1 with
      | ok context => exact ⟨.refl _, invocation⟩
      | error e =>
        cases e with
        | depthExceeded guest max => exact ⟨.refl _, invocation⟩
        | _ => exact ⟨noted _, invocation⟩
  | guest name entry =>
    rw [hb] at h
    obtain ⟨-, via, -⟩ := Nesting.request?_eq_some h
    obtain ⟨world, invocation⟩ := Nesting.after_link invoke h
    simp only [Backing.run, Nesting.run_link h, via, ← world]
    cases ((invoke r.context).run r.world).1 <;> exact ⟨.refl _, invocation⟩

/-- A function that gives words returns its value, and notes down at most that it was called. -/
theorem run_call (words : f.GivesWords) (invoke : Invoke) (site : Site) :
    ((f.call invoke).run site).1 = ((f.value invoke).run site).1.map
        (fun word => f.type.results.map fun _ => .i32 word) ∧
      ((f.value invoke).run site).2.world.Same
        (((f.value invoke).run site).2.invocation.trace = false)
        ((f.call invoke).run site).2.world := by
  cases come : ((f.value invoke).run site).1 with
  | error e =>
    unfold call
    rw [run_bind, come]
    exact ⟨rfl, .refl _⟩
  | ok word =>
    obtain ⟨outcome, after⟩ := f.run_call_of_value come
    rw [outcome, after, words word]
    refine ⟨rfl, ?_⟩
    cases ((f.value invoke).run site).2.invocation.trace with
    | false => exact .refl _
    | true => exact (World.Same.refl _).note_right (by simp) _

end HostFunction

/-! ## Sites with words for arguments -/

namespace Call

variable {site : Site} {arguments : List Int32}

/-- Arguments that are words are read back. -/
theorem run_words (h : site.arguments = arguments.map fun n => .i32 n.toUInt32) :
    words.run site = (.ok arguments, site) := by
  have signed : ∀ index, index < arguments.length →
      (signed index).run site = (.ok (arguments[index]?.getD 0), site) := by
    intro index inside
    have found : site.arguments[index]? = some (.i32 arguments[index].toUInt32) := by
      rw [h, List.getElem?_map, List.getElem?_eq_getElem inside]
      rfl
    have stated : (Call.signed index).run site =
        (.ok (UInt32.ofNat arguments[index].toUInt32.toNat).toInt32, site) := by
      simp only [Call.signed, word, argument, run_bind, run_get, found]
      rfl
    rw [stated, UInt32.ofNat_toNat, Int32.toInt32_toUInt32, List.getElem?_eq_getElem inside]
    rfl
  have all : ∀ indices : List Nat, (∀ index ∈ indices, index < arguments.length) →
      (indices.mapM Call.signed).run site =
        (.ok (indices.map fun index => arguments[index]?.getD 0), site) := by
    intro indices inside
    induction indices with
    | nil => rfl
    | cons index rest ih =>
      rw [List.mapM_cons, run_bind, signed index (inside index List.mem_cons_self)]
      dsimp only
      rw [run_bind, ih fun i hi => inside i (List.mem_cons_of_mem _ hi)]
      rfl
  have read : (List.range arguments.length).map (fun index => arguments[index]?.getD 0) =
      arguments := by
    refine List.ext_getElem (by simp) fun index _ inside => ?_
    rw [List.getElem_map, List.getElem_range, List.getElem?_eq_getElem inside]
    rfl
  unfold words
  rw [run_bind, run_get]
  dsimp only
  rw [h, List.length_map, all _ fun index hindex => List.mem_range.mp hindex, read]

end Call

/-- A call across a link asks for the linked guest, with the arguments of the call and two new
buffers. -/
theorem Nesting.run_linkContext {site : Site} {arguments : List Int32}
    (h : site.arguments = arguments.map fun n => .i32 n.toUInt32) (guest entry : String) :
    (linkContext guest entry).run site =
      (.ok (((Context.nested site.invocation guest entry).withArguments arguments).withBuffers
          site.world.create.1 site.world.create.2.create.1),
        { site with world := site.world.create.2.create.2 }) := by
  rw [run_linkContext_eq, Call.run_words h]

end GuestHost
