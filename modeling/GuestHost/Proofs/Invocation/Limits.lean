import GuestHost.Proofs.Invocation.Tree
/-!
# Failures of nesting

Invocations that nest too deep and links that lead back into their chain fail before a guest runs.
The caller does not survive such a failure: its host call traps, and so does the caller,
`limit_failure_traps`. A trap climbs on through links, up to the root if nothing but links lead
there. A call by name stops it: the caller of the guest that trapped gets the sentinel and runs
on, `depth_failure_absorbed`. It also stops a cycle of links that keeps the guest called from being
prepared, `answer_of_cycle`.
-/

namespace GuestHost

/-! ## What a caller survives -/

/-- The failures of a nested invocation that its caller does not survive: all of them behind a
link, and that of nesting too deep behind a name. -/
def Via.Stops : Via → Failure → Prop
  | link, _ => True
  | name, .depthExceeded _ _ => True
  | name, _ => False

namespace Via

variable {v : Via} {e : Failure}

theorem answer_of_stops (h : v.Stops e) : v.answer (.error e) = .error (.fatal (.failure e)) := by
  cases v with
  | link => rfl
  | name => cases e <;> first | rfl | exact h.elim

theorem answer_of_not_stops (h : ¬ v.Stops e) : v.answer (.error e) = .ok sentinel := by
  cases v with
  | link => exact absurd trivial h
  | name => cases e <;> first | rfl | exact absurd trivial h

end Via

namespace Activation

variable {platform : Platform} {a b : Activation} {n : Nested} {e : Failure}

/-- A guest traps in its entry for some cause. -/
def Traps (platform : Platform) (a : Activation) : Prop :=
  ∃ cause, a.outcome platform = .error (.trap a.context.guest a.context.entry cause)

/-- **A failure that the caller does not survive ends it**, with a trap unless the failure is that
of a function that is not implemented. -/
theorem outcome_of_stops (hn : n ∈ a.nested platform)
    (failed : (a.child n).outcome platform = .error e) (stops : n.via.Stops e) :
    n.answer = .error (.fatal (.failure e)) ∧
      a.outcome platform = Sandbox.ended a.context (.fatal (.failure e)) := by
  have answer : n.answer = .error (.fatal (.failure e)) := by
    rw [answer_eq hn, failed, Via.answer_of_stops stops]
  obtain ⟨s, w, hs, made⟩ := mem_nested hn
  rw [outcome_of_sandbox? hs, Sandbox.run_of_error made answer, (prepared hs).context_eq]
  exact ⟨answer, rfl⟩

/-! ## Traps behind links and behind names -/

/-- An activation calls another through a link. -/
def Links (platform : Platform) (a b : Activation) : Prop :=
  ∃ n ∈ a.nested platform, n.via = .link ∧ b = a.child n

/-- A trap behind a link makes the caller trap. -/
theorem Links.traps (h : Links platform a b) (hb : b.Traps platform) : a.Traps platform := by
  obtain ⟨n, hn, link, rfl⟩ := h
  obtain ⟨cause, failed⟩ := hb
  exact ⟨_, (outcome_of_stops hn failed (by rw [link]; trivial)).2⟩

/-- **A trap climbs through links**, however many there are. -/
theorem traps_of_links (h : Relation.ReflTransGen (Links platform) a b) (hb : b.Traps platform) :
    a.Traps platform := by
  induction h using Relation.ReflTransGen.head_induction_on with
  | refl => exact hb
  | head link _ ih => exact link.traps ih

/-- A failure that the caller survives is answered with the sentinel. -/
theorem answer_of_survived (hn : n ∈ a.nested platform)
    (failed : (a.child n).outcome platform = .error e) (survives : ¬ n.via.Stops e) :
    n.answer = .ok sentinel := by
  rw [answer_eq hn, failed, Via.answer_of_not_stops survives]

/-- A trap behind a name is answered with the sentinel. -/
theorem answer_of_traps (hn : n ∈ a.nested platform) (name : n.via = .name)
    (traps : (a.child n).Traps platform) : n.answer = .ok sentinel := by
  obtain ⟨cause, failed⟩ := traps
  exact answer_of_survived hn failed (by rw [name]; exact id)

/-- **So is a cycle of links behind a name**: the guest called by name links back into the chain and
cannot be prepared. -/
theorem answer_of_cycle (hn : n ∈ a.nested platform) (name : n.via = .name) {chain : List String}
    (failed : (a.child n).outcome platform = .error (.cycle chain)) : n.answer = .ok sentinel :=
  answer_of_survived hn failed (by rw [name]; exact id)

/-- **Failures of nesting trap, and the trap climbs through links.** Where an invocation nested
too deep, or one made through a link closed a cycle, the host call that made it traps and its
caller traps with that failure. If the caller was called through links only, the outermost
invocation traps; where a caller was called by name, the one that called it gets the sentinel. -/
theorem limit_failure_traps (h : Host) (context : Context) {a : Activation} {n : Nested}
    {e : Failure} (hn : n ∈ a.nested h.platform)
    (failed : (a.child n).outcome h.platform = .error e)
    (limit : (∃ guest max, e = .depthExceeded guest max) ∨
      (∃ chain, e = .cycle chain) ∧ n.via = .link) :
    n.answer = .error (.fatal (.failure e)) ∧
      a.outcome h.platform =
        .error (.trap a.context.guest a.context.entry (.failure e)) ∧
      (Relation.ReflTransGen (Links h.platform) (root h context) a → ∃ cause,
        (h.invoke context).1 = .error (.trap context.guest context.entry cause)) ∧
      ∀ (b : Activation), ∀ m ∈ b.nested h.platform, m.via = .name → b.child m = a →
        m.answer = .ok sentinel := by
  have stops : n.via.Stops e := by
    rcases limit with ⟨guest, max, rfl⟩ | ⟨-, link⟩
    · cases n.via <;> trivial
    · rw [link]
      trivial
  -- neither failure is that of a function that is not implemented
  have ends : Sandbox.ended a.context (.fatal (.failure e)) =
      .error (.trap a.context.guest a.context.entry (.failure e)) := by
    rcases limit with ⟨guest, max, rfl⟩ | ⟨⟨chain, rfl⟩, -⟩ <;> rfl
  obtain ⟨answer, outcome⟩ := outcome_of_stops hn failed stops
  have traps : a.Traps h.platform := ⟨_, outcome.trans ends⟩
  refine ⟨answer, outcome.trans ends, fun links => traps_of_links links traps, ?_⟩
  rintro b m hm name rfl
  exact answer_of_traps hm name traps

/-! ## A guest that calls itself by name -/

/-- Whether an invocation makes just one call, by name, in which just one call is made, by name,
that nests too deep, while the invocation itself returns the sentinel. -/
def absorbs (h : Host) (context : Context) : Bool :=
  match (root h context).nested h.platform with
  | [n] =>
    match ((root h context).child n).nested h.platform with
    | [m] =>
      let deepest := ((root h context).child n).child m
      decide (n.via = .name ∧
        deepest.outcome h.platform =
          .error (.depthExceeded m.context.guest h.platform.config.maxLinkDepth) ∧
        (h.invoke context).1 = .ok (context.returned sentinel.toInt32))
    | _ => false
  | _ => false

theorem exists_of_absorbs {h : Host} {context : Context} (absorbed : absorbs h context = true) :
    ∃ n m, n ∈ (root h context).nested h.platform ∧
      m ∈ ((root h context).child n).nested h.platform ∧ n.via = .name ∧
      (((root h context).child n).child m).outcome h.platform =
        .error (.depthExceeded m.context.guest h.platform.config.maxLinkDepth) ∧
      (h.invoke context).1 = .ok (context.returned sentinel.toInt32) := by
  unfold absorbs at absorbed
  split at absorbed
  · rename_i n first
    split at absorbed
    · rename_i m second
      exact ⟨n, m, by simp [first], by simp [second], of_decide_eq_true absorbed⟩
    · cases absorbed
  · cases absorbed

/-- A guest whose entry calls the guest and entry of the name "a" and returns what it gets. -/
def selfCaller : String :=
  "(module (import \"core\" \"call_function\"" ++
    " (func $c (param i32 i32 i32 i32 i32 i32 i32 i32 i32 i32) (result i32)))" ++
    " (memory (export \"memory\") 1) (data (i32.const 0) \"a\")" ++
    " (func (export \"a\") (result i32) i32.const 0 i32.const 1 i32.const 0 i32.const 1" ++
    " i32.const 0 i32.const 0 i32.const 0 i32.const 0 i32.const 0 i32.const 0 call $c))"

/-- A host of one such guest, in which invocations may nest once. -/
def selfHost : Host :=
  ((Host.new ⟨1, none, "", 0⟩ .offline 0).registerGuest "a" (Utf8.encode selfCaller)).2

theorem absorbs_selfHost : absorbs selfHost (.top "a" "a") = true := by decide +kernel

/-- An invocation deep down nests too deep, and the outermost one returns the sentinel. -/
theorem depth_failure_absorbed : ∃ (a : Activation) (n : Nested),
    Within selfHost.platform (root selfHost (.top "a" "a")) a ∧ n ∈ a.nested selfHost.platform ∧
      (∃ max, (a.child n).outcome selfHost.platform =
        .error (.depthExceeded n.context.guest max)) ∧
      (selfHost.invoke (.top "a" "a")).1 = .ok ((Context.top "a" "a").returned 65535) := by
  obtain ⟨n, m, hn, hm, -, failed, absorbed⟩ := exists_of_absorbs absorbs_selfHost
  exact ⟨_, m, .single ⟨n, hn, rfl⟩, hm, ⟨_, failed⟩, absorbed⟩

/-- The guest traps where its second call nests too deep, and its first call gets the sentinel. -/
theorem limit_failure_traps_self : ∃ n m,
    n ∈ (root selfHost (.top "a" "a")).nested selfHost.platform ∧
      m ∈ ((root selfHost (.top "a" "a")).child n).nested selfHost.platform ∧
      (∃ max, m.answer = .error (.fatal (.failure (.depthExceeded m.context.guest max)))) ∧
      n.answer = .ok sentinel := by
  obtain ⟨n, m, hn, hm, name, failed, -⟩ := exists_of_absorbs absorbs_selfHost
  have traps := limit_failure_traps selfHost (.top "a" "a") hm failed (.inl ⟨_, _, rfl⟩)
  exact ⟨n, m, hn, hm, ⟨_, traps.1⟩, traps.2.2.2 _ n hn name rfl⟩

end Activation

end GuestHost
