import GuestHost.Proofs.Reentry.Preparation
import GuestHost.Proofs.Sandbox.Nested
/-!
# Running sandboxes alike

Two sandboxes that differ in their contexts only, as contexts that are the same do, run step by step
alike as long as the nested invocations that they make end alike: `Sandbox.ends_run`. What the two
runs ask for at the same step is the same up to depth and chain, so it is enough that invocations
end alike on the requests that are in fact made.
-/

namespace GuestHost

open Stateful

variable {K : Prop} {Good Good' : Request → Prop} {invoke invoke' : Invoke}

/-! ## Requests -/

/-- Requests that differ as their contexts and their worlds do. -/
structure Request.Same (K : Prop) (r r' : Request) : Prop where
  via_eq : r'.via = r.via
  context_same : r.context.Same K r'.context
  world_same : r.world.Same K r'.world

/-- Two invocations of guests end alike. -/
abbrev Invocation.Ends (K : Prop) (r r' : Except Failure Context × World) : Prop :=
  Stateful.Ends (World.Same K) never (Context.Same K) r r'

/-- Two ways to carry out invocations end alike on good requests that are the same. -/
def Invoke.Matches (K : Prop) (Good Good' : Request → Prop) (invoke invoke' : Invoke) : Prop :=
  ∀ r r', r.Same K r' → Good r → Good' r' →
    Invocation.Ends K ((invoke r.context).run r.world) ((invoke' r'.context).run r'.world)

theorem Context.same_nested {i i' : Invocation} (same : i.Same K i') (guest entry : String)
    (arguments : List Int32) (mode : Mode) (input output : Nat) :
    ((((nested i guest entry).withArguments arguments).withMode mode).withBuffers
      input output).Same K
      ((((nested i' guest entry).withArguments arguments).withMode mode).withBuffers
        input output) := by
  obtain ⟨trace, depth, chain, rfl, traced⟩ := same
  exact ⟨_, ⟨trace, depth + 1, chain ++ [guest], rfl, traced⟩, rfl⟩

namespace Nesting

theorem blind_create : Call.Blind K create := by
  refine Alike.bind Call.alike_world fun w w' same => ?_
  obtain ⟨handle, t, t', left, right, worlds⟩ := World.blind_create.run same
  simp only [left, right]
  exact Alike.bind (Call.alike_setWorld worlds) fun _ _ _ => Call.blind_pure _

theorem blind_release (handle : Nat) : Call.Blind K (release handle) := by
  refine Alike.bind Call.alike_world fun w w' same => ?_
  exact Call.alike_setWorld ((World.blind_release handle) w w' same).2

theorem alike_linkContext (guest entry : String) :
    Alike (Site.Same K) never (linkContext guest entry) (linkContext guest entry)
      (Context.Same K) := by
  refine Alike.bind Call.blind_words ?_
  rintro arguments _ rfl
  refine Alike.bind blind_create ?_
  rintro input _ rfl
  refine Alike.bind blind_create ?_
  rintro output _ rfl
  refine Alike.bind Call.alike_invocation fun i i' same => ?_
  exact Alike.pure (Context.same_nested same guest entry arguments .direct input output)

theorem blind_integersAt (address length : Nat) : Call.Blind K (integersAt address length) := by
  rw [integersAt_eq]
  exact Call.blind_bind (Call.blind_slice address length) fun _ => Call.blind_pure _

theorem alike_namedContext :
    Alike (Site.Same K) never namedContext namedContext (Context.Same K) := by
  refine Alike.bind (Call.blind_text 0 1) ?_
  rintro guest _ rfl
  refine Alike.bind (Call.blind_text 2 3) ?_
  rintro entry _ rfl
  refine Alike.bind (Call.blind_word 4) ?_
  rintro address _ rfl
  refine Alike.bind (Call.blind_word 5) ?_
  rintro count _ rfl
  refine Alike.bind (blind_integersAt _ _) ?_
  rintro arguments _ rfl
  refine Alike.bind (Call.blind_text 6 7) ?_
  rintro name _ rfl
  cases Mode.ofText? name with
  | none => exact Alike.throw _
  | some mode =>
    refine Alike.bind (Call.blind_word 8) ?_
    rintro input _ rfl
    refine Alike.bind (Call.blind_word 9) ?_
    rintro output _ rfl
    refine Alike.bind Call.alike_invocation fun i i' same => ?_
    exact Alike.pure (Context.same_nested same guest entry arguments.get mode input output)

/-- What comes of two nested invocations that end alike. -/
def SameOutcome (K : Prop) (outcome outcome' : Except Failure Context) : Prop :=
  (∃ c c', outcome = .ok c ∧ outcome' = .ok c' ∧ c.Same K c') ∨
    ∃ e, outcome = .error e ∧ outcome' = .error e

theorem ends_attempt {c c' : Context} {site site' : Site} (same : site.Same K site')
    (h : Invocation.Ends K ((invoke c).run site.world) ((invoke' c').run site'.world)) :
    Ends (Site.Same K) never (SameOutcome K) ((attempt invoke c).run site)
      ((attempt invoke' c').run site') := by
  obtain ⟨i, w, invocation, world, rfl⟩ := same
  rw [run_attempt, run_attempt]
  obtain ⟨a, a', t, t', left, right, related, worlds⟩ | ⟨e, t, t', left, right, worlds⟩ :=
    h.cases_never
  · rw [left, right]
    exact .ok (.inl ⟨a, a', rfl, rfl, related⟩) ⟨i, t', invocation, worlds, rfl⟩
  · rw [left, right]
    exact .ok (.inr ⟨e, rfl, rfl⟩) ⟨i, t', invocation, worlds, rfl⟩

theorem returned_eq {c c' : Context} (same : c.Same K c') : returned c' = returned c := by
  obtain ⟨i, -, rfl⟩ := same
  rfl

end Nesting

/-- **A host function ends alike** if the invocation that it asks for does. -/
theorem Backing.ends_run {backing : Backing} (blind : backing.Blind K) {site site' : Site}
    (same : site.Same K site')
    (h : ∀ r r', backing.request? site = some r → backing.request? site' = some r' →
      r.Same K r' →
      Invocation.Ends K ((invoke r.context).run r.world) ((invoke' r'.context).run r'.world)) :
    Ends (Site.Same K) never Eq ((backing.run invoke).run site)
      ((backing.run invoke').run site') := by
  cases backing with
  | handler handler =>
    cases handler with
    | native call => exact blind site site' same
    | callFunction =>
      refine Ends.bind (Nesting.alike_namedContext site site' same) ?_
      intro c c' t t' asked asked' contexts sites
      obtain ⟨i, w, invocation, world, rfl⟩ := sites
      have met := h ⟨.name, c, t.world⟩ ⟨.name, c', w⟩ (by simp [request?, asked, Nesting.request?])
        (by simp [request?, asked', Nesting.request?]) ⟨rfl, contexts, world⟩
      refine Ends.bind (Nesting.ends_attempt ⟨i, w, invocation, world, rfl⟩ met) ?_
      rintro outcome outcome' t t' - - (⟨a, a', rfl, rfl, related⟩ | ⟨e, rfl, rfl⟩) sites
      · exact .ok (Nesting.returned_eq related).symm sites
      · cases e <;> exact .error _ sites
  | guest name entry =>
    refine Ends.bind (Nesting.alike_linkContext name entry site site' same) ?_
    intro c c' t t' asked asked' contexts sites
    obtain ⟨i, w, invocation, world, rfl⟩ := sites
    have met := h ⟨.link, c, t.world⟩ ⟨.link, c', w⟩ (by simp [request?, asked, Nesting.request?])
      (by simp [request?, asked', Nesting.request?]) ⟨rfl, contexts, world⟩
    refine Ends.bind (Nesting.ends_attempt ⟨i, w, invocation, world, rfl⟩ met) ?_
    intro outcome outcome' t t' _ _ outcomes sites
    have buffers : c'.input = c.input ∧ c'.output = c.output := by
      obtain ⟨_, ⟨_, _, _, rfl, -⟩, rfl⟩ := contexts
      exact ⟨rfl, rfl⟩
    rw [buffers.1, buffers.2]
    refine Ends.bind (Nesting.blind_release _ t t' sites) ?_
    intro _ _ t t' _ _ _ sites
    refine Ends.bind (Nesting.blind_release _ t t' sites) ?_
    intro _ _ t t' _ _ _ sites
    rcases outcomes with ⟨a, a', rfl, rfl, related⟩ | ⟨e, rfl, rfl⟩
    · exact .ok (Nesting.returned_eq related).symm sites
    · exact .error _ sites

namespace HostFunction

variable {f : HostFunction} {site site' : Site}

theorem ends_value (blind : f.backing.Blind K) (same : site.Same K site')
    (h : ∀ r r', f.backing.request? site = some r → f.backing.request? site' = some r' →
      r.Same K r' →
      Invocation.Ends K ((invoke r.context).run r.world) ((invoke' r'.context).run r'.world)) :
    Ends (Site.Same K) never Eq ((f.value invoke).run site) ((f.value invoke').run site') := by
  refine (Backing.ends_run blind same h).tryCatch fun e => ?_
  cases e with
  | fatal cause => exact Alike.throw _
  | exit code => exact Alike.throw _
  | _ => exact Call.blind_bind (Call.blind_note _) fun _ => Call.blind_pure _

theorem ends_call (blind : f.backing.Blind K) (same : site.Same K site')
    (h : ∀ r r', f.backing.request? site = some r → f.backing.request? site' = some r' →
      r.Same K r' →
      Invocation.Ends K ((invoke r.context).run r.world) ((invoke' r'.context).run r'.world)) :
    Ends (Site.Same K) never Eq ((f.call invoke).run site) ((f.call invoke').run site') := by
  refine Ends.bind (ends_value blind same h) ?_
  rintro value _ t t' - - rfl sites
  refine Alike.bind Call.alike_invocation (fun i i' invocations => ?_) t t' sites
  obtain ⟨trace, _, _, rfl, traced⟩ := invocations
  refine Call.alike_traced (fun k => by rw [traced k]) ?_ _
  cases f.results value with
  | ok results => exact Call.blind_pure _
  | error cause => exact Call.blind_fail _

end HostFunction

namespace Sandbox

/-! ## Runs -/

/-- Surroundings that differ as their worlds do. -/
def Surroundings.Same (K : Prop) (around around' : Surroundings) : Prop :=
  ∃ w, around.world.Same K w ∧ around' = { around with world := w }

/-- All functions that a sandbox calls are blind. -/
def CallsBlind (K : Prop) (s : Sandbox) : Prop :=
  ∀ index f, s.called? index = some f → f.backing.Blind K

variable {s s' : Sandbox} {around around' : Surroundings}

theorem same_site (same : s.Same K s') (arounds : around.Same K around')
    (arguments : List Wasm.Value) (memory : Memory) :
    (s.site arguments memory around).Same K (s'.site arguments memory around') := by
  obtain ⟨_, ⟨i, invocation, rfl⟩, rfl⟩ := same
  obtain ⟨w, world, rfl⟩ := arounds
  exact ⟨i, w, invocation, world, rfl⟩

theorem good_of_asked {index : Nat} {arguments : List Wasm.Value} {memory : Memory}
    {f : HostFunction} {r : Request} (called : s.called? index = some f)
    (good : ∀ n ∈ nestedCall invoke s index arguments memory around, Good n.toRequest)
    (asked : f.backing.request? (s.site arguments memory around) = some r) : Good r := by
  refine good ⟨r, ((f.value invoke).run (s.site arguments memory around)).1⟩ ?_
  simp only [nestedCall, called, asked]
  exact List.mem_singleton_self _

/-- **Host calls end alike.** -/
theorem ends_hostCall (blind : s.CallsBlind K) (same : s.Same K s')
    (arounds : around.Same K around') (matches' : invoke.Matches K Good Good' invoke')
    {index : Nat} {arguments : List Wasm.Value} {memory : Memory}
    (left : ∀ n ∈ nestedCall invoke s index arguments memory around, Good n.toRequest)
    (right : ∀ n ∈ nestedCall invoke' s' index arguments memory around', Good' n.toRequest) :
    Ends (Surroundings.Same K) never Eq ((hostCall invoke s index arguments memory).run around)
      ((hostCall invoke' s' index arguments memory).run around') := by
  obtain ⟨called, shown⟩ : s'.called? index = s.called? index ∧
      s'.program.shown? = s.program.shown? := by
    obtain ⟨_, -, rfl⟩ := same
    exact ⟨rfl, rfl⟩
  unfold hostCall
  rw [called]
  cases found : s.called? index with
  | none => exact .error _ arounds
  | some f =>
    have ends := f.ends_call (blind index f found) (same_site same arounds arguments memory)
      fun r r' asked asked' requests => matches' r r' requests
        (good_of_asked found left asked) (good_of_asked (called.trans found) right asked')
    have apart : around'.apart = around.apart := by
      obtain ⟨_, -, rfl⟩ := arounds
      rfl
    simp only [run_bind, run_get, shown, apart]
    obtain ⟨results, _, t, t', hleft, hright, rfl, i, w, -, world, rfl⟩ |
      ⟨e, t, t', hleft, hright, i, w, -, world, rfl⟩ := ends.cases_never
    · rw [hleft, hright]
      cases s.program.shown? with
      | none => exact .ok rfl ⟨w, world, rfl⟩
      | some n => cases n <;> exact .ok rfl ⟨w, world, rfl⟩
    · rw [hleft, hright]
      cases s.program.shown? with
      | none => exact .error e ⟨w, world, rfl⟩
      | some n => cases n <;> exact .error e ⟨w, world, rfl⟩

/-- **Machines are driven alike**, step by step. -/
theorem ends_drive (blind : s.CallsBlind K) (same : s.Same K s')
    (matches' : invoke.Matches K Good Good' invoke') {fuel : Nat} {machine : Wasm.Machine}
    (arounds : around.Same K around')
    (left : ∀ n ∈ nestedDrive invoke s fuel machine around, Good n.toRequest)
    (right : ∀ n ∈ nestedDrive invoke' s' fuel machine around', Good' n.toRequest) :
    Ends (Surroundings.Same K) never Eq ((drive invoke s fuel machine).run around)
      ((drive invoke' s' fuel machine).run around') := by
  induction fuel generalizing machine around around' with
  | zero => exact .error _ arounds
  | succ fuel ih =>
    cases step : machine.step with
    | running next =>
      simp only [nestedDrive, step] at left right
      simpa only [drive, step] using ih arounds left right
    | finished results memory =>
      simp only [drive, step]
      exact .ok rfl arounds
    | trapped trap =>
      simp only [drive, step]
      exact .error _ arounds
    | calling index arguments next =>
      simp only [nestedDrive, step, List.mem_append] at left right
      simp only [drive, step]
      -- the calls end alike, and what is met after them is met on the way on
      refine Ends.bind (ends_hostCall blind same arounds matches' (fun n hn => left n (.inl hn))
        fun n hn => right n (.inl hn)) ?_
      rintro ⟨results, memory⟩ _ t t' called called' rfl arounds
      refine ih arounds (fun n hn => left n (.inr ?_)) fun n hn => right n (.inr ?_)
      · simpa only [called] using hn
      · simpa only [called'] using hn

theorem ends_instantiate (blind : s.CallsBlind K) (same : s.Same K s')
    (matches' : invoke.Matches K Good Good' invoke') {fuel : Nat}
    (arounds : around.Same K around')
    (left : ∀ n ∈ nestedStart invoke s fuel around, Good n.toRequest)
    (right : ∀ n ∈ nestedStart invoke' s' fuel around', Good' n.toRequest) :
    Ends (Surroundings.Same K) never Eq ((instantiate invoke s fuel).run around)
      ((instantiate invoke' s' fuel).run around') := by
  have program : s'.program = s.program ∧ s'.loaded = s.loaded := by
    obtain ⟨_, -, rfl⟩ := same
    exact ⟨rfl, rfl⟩
  unfold instantiate
  simp only [nestedStart, program.1, program.2] at left right
  rw [program.1, program.2]
  cases loaded : s.loaded with
  | error cause => exact .error _ arounds
  | ok memory =>
    cases start : s.program.start with
    | none => exact .ok rfl arounds
    | some index =>
      simp only [loaded, start] at left right
      exact ends_drive blind same matches' arounds left right

theorem ends_callEntry (blind : s.CallsBlind K) (same : s.Same K s')
    (matches' : invoke.Matches K Good Good' invoke') {fuel : Nat}
    (arounds : around.Same K around')
    (left : ∀ n ∈ nestedEntry invoke s fuel around, Good n.toRequest)
    (right : ∀ n ∈ nestedEntry invoke' s' fuel around', Good' n.toRequest) :
    Ends (Surroundings.Same K) never Eq ((callEntry invoke s fuel).run around)
      ((callEntry invoke' s' fuel).run around') := by
  have entry : ∀ memory, s'.entry memory = s.entry memory := by
    obtain ⟨_, ⟨i, ⟨_, _, _, rfl, -⟩, rfl⟩, rfl⟩ := same
    exact fun _ => rfl
  simp only [nestedEntry, List.mem_append] at left right
  refine Ends.bind (ends_instantiate blind same matches' arounds (fun n hn => left n (.inl hn))
    fun n hn => right n (.inl hn)) ?_
  rintro rest _ t t' started started' rfl arounds
  simp only [started] at left
  simp only [started', entry] at right
  rw [entry]
  cases entered : s.entry rest.memory with
  | error e => exact .ok rfl arounds
  | ok machine =>
    simp only [entered] at left right
    refine Ends.bind (ends_drive blind same matches' arounds (fun n hn => left n (.inr hn))
      fun n hn => right n (.inr hn)) ?_
    rintro rest _ t t' - - rfl arounds
    exact .ok rfl arounds

theorem same_returned {c c' : Context} (same : c.Same K c') (result : Int32) :
    (c.returned result).Same K (c'.returned result) := by
  obtain ⟨i, invocation, rfl⟩ := same
  exact ⟨i, invocation, rfl⟩

/-- What ends two runs ends them alike. -/
theorem ends_ended {c c' : Context} (same : c.Same K c') {w w' : World} (worlds : w.Same K w')
    (e : CallError) : Invocation.Ends K (ended c e, w) (ended c' e, w') := by
  obtain ⟨i, invocation, rfl⟩ := same
  have named : i.guest = c.guest ∧ i.entry = c.entry := by
    obtain ⟨_, _, _, rfl, -⟩ := invocation
    exact ⟨rfl, rfl⟩
  cases e with
  | exit code => exact .ok ⟨i, invocation, rfl⟩ worlds
  | fatal cause =>
    unfold ended
    split
    · rename_i h
      cases h
    · exact .error _ worlds
    · rw [named.1, named.2]
      exact .error _ worlds
    · rw [named.1, named.2]
      exact .error _ worlds
  | _ =>
    unfold ended
    rw [named.1, named.2]
    exact .error _ worlds

theorem same_surroundings (same : s.Same K s') {w w' : World} (worlds : w.Same K w') :
    (s.surroundings w).Same K (s'.surroundings w') := by
  obtain ⟨_, -, rfl⟩ := same
  exact ⟨w', worlds, rfl⟩

/-- **Runs end alike** if the nested invocations that they make do. -/
theorem ends_run (blind : s.CallsBlind K) (same : s.Same K s')
    (matches' : invoke.Matches K Good Good' invoke') {limit : Option Nat} {w w' : World}
    (worlds : w.Same K w') (left : ∀ n ∈ s.nested invoke limit w, Good n.toRequest)
    (right : ∀ n ∈ s'.nested invoke' limit w', Good' n.toRequest) :
    Invocation.Ends K ((s.run invoke limit).run w) ((s'.run invoke' limit).run w') := by
  have contexts : s.context.Same K s'.context := by
    obtain ⟨c, context, rfl⟩ := same
    exact context
  have ends := ends_callEntry blind same matches' (same_surroundings same worlds) left right
  rw [run_run, run_run]
  obtain ⟨outcome, _, t, t', hleft, hright, rfl, u, world, rfl⟩ |
    ⟨e, t, t', hleft, hright, u, world, rfl⟩ := ends.cases_never
  · rw [hleft, hright]
    cases outcome with
    | ok result => exact .ok (same_returned contexts result) world
    | error e => exact .error e world
  · rw [hleft, hright]
    exact ends_ended contexts world e

end Sandbox

end GuestHost
