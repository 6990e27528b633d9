import GuestHost.Proofs.Sandbox.Endings
/-!
# What a context reports

An invocation ends in one of three ways: its entry returns, its guest exits, or it fails,
`Host.exists_ends`. A context takes a report of the first two and none of the third, and it may be
used again. So what it reports is the latest word and the latest exit code of all its runs,
`Context.Used.reports`, and these are of its latest run exactly if no earlier run has left what this
one has not replaced: `Context.reports_latest_iff`.
-/

namespace GuestHost

open Stateful

/-! ## Endings -/

/-- How an invocation ends. -/
inductive Ending where
  | returned (value : Int32)
  | exited (code : Int32)
  | failed (e : Failure)

namespace Ending

/-- The result of an invocation that ended so. -/
def word? : Ending → Option Int32
  | returned value => some value
  | exited code => some code
  | failed _ => none

/-- The exit code of an invocation that ended so. -/
def code? : Ending → Option Int32
  | exited code => some code
  | _ => none

/-- An exit code is a result as well. -/
theorem code?_of_word? {e : Ending} (h : e.word? = none) : e.code? = none := by
  cases e with
  | exited code => cases h
  | _ => rfl

/-- What becomes of the context of an invocation that ended so. -/
def outcome (c : Context) : Ending → Except Failure Context
  | returned value => .ok (c.returned value)
  | exited code => .ok (c.exited code)
  | failed e => .error e

end Ending

/-- An invocation ends in some way: its entry returns, a host call of its own exits, or the owner of
the host is told a failure. -/
inductive Host.Ends (h : Host) (c : Context) : Ending → Prop where
  | returned {s : Sandbox} {w : World} {value : Int32}
      (prepared : (Sandbox.prepare h.platform c).run h.world = (.ok s, w))
      (returns : s.Returns (s.invoking h.platform) h.platform.config.fuel w value) :
      Ends h c (.returned value)
  | exited {s : Sandbox} {w : World} {call : HostCall} {code : Int32}
      (prepared : (Sandbox.prepare h.platform c).run h.world = (.ok s, w))
      (ended : s.EndedBy (s.invoking h.platform) h.platform.config.fuel w call (.exit code)) :
      Ends h c (.exited code)
  | failed {e : Failure} (failed : (h.invoke c).1 = .error e) : Ends h c (.failed e)

namespace Host

variable {h : Host} {c r : Context} {s : Sandbox} {w : World} {e e' : Ending}

/-- An invocation comes to what its sandbox comes to. -/
theorem invoke_of_prepared (prepared : (Sandbox.prepare h.platform c).run h.world = (.ok s, w)) :
    s.context = c ∧ (h.invoke c).1 =
      ((s.run (s.invoking h.platform) h.platform.config.fuel).run w).1 := by
  have ready := (Sandbox.obeys_prepare (I := fun _ => True) (fun _ _ _ => trivial)
    (fun _ _ _ => ⟨trivial, fun _ _ => trivial⟩) h.platform c h.world trivial).2 s
    (by rw [prepared])
  have one : Invocation.levels h.platform c.depth =
      Invocation.levels h.platform (c.depth + 1) + 1 := by
    have := ready.depth_le
    unfold Invocation.levels
    omega
  refine ⟨ready.context_eq, ?_⟩
  show ((Invocation.invoke h.platform (Invocation.levels h.platform c.depth) c).run h.world).1 = _
  rw [one]
  simp only [Invocation.invoke, run_bind, prepared, Sandbox.invoking, ready.context_eq]

/-- An invocation whose sandbox cannot be prepared fails. -/
theorem invoke_of_unprepared {fault : Failure}
    (failed : (Sandbox.prepare h.platform c).run h.world = (.error fault, w)) :
    ∃ fault, (h.invoke c).1 = .error fault := by
  show ∃ fault, ((Invocation.invoke h.platform (Invocation.levels h.platform c.depth) c).run
    h.world).1 = .error fault
  cases Invocation.levels h.platform c.depth with
  | zero => exact ⟨_, rfl⟩
  | succ levels =>
    refine ⟨fault, ?_⟩
    simp only [Invocation.invoke, run_bind, failed]

/-- How an invocation ends is what becomes of its context. -/
theorem Ends.invoke_eq (ends : h.Ends c e) : (h.invoke c).1 = e.outcome c := by
  cases ends with
  | returned prepared returns =>
    obtain ⟨same, outcome⟩ := invoke_of_prepared prepared
    rw [outcome, (Sandbox.run_ok_iff _).mpr (.inl ⟨_, returns, rfl⟩), same]
    rfl
  | exited prepared ended =>
    obtain ⟨same, outcome⟩ := invoke_of_prepared prepared
    rw [outcome, (Sandbox.run_ok_iff _).mpr (.inr ⟨_, _, ended, rfl⟩), same]
    rfl
  | failed failed => exact failed

/-- **Every invocation ends in one of the three ways.** -/
theorem exists_ends (h : Host) (c : Context) : ∃ e, h.Ends c e := by
  cases outcome : (h.invoke c).1 with
  | error e => exact ⟨_, .failed outcome⟩
  | ok r =>
    cases prepared : (Sandbox.prepare h.platform c).run h.world with
    | mk come w =>
      cases come with
      | error fault =>
        obtain ⟨fault, failed⟩ := invoke_of_unprepared prepared
        cases outcome.symm.trans failed
      | ok s =>
        rw [(invoke_of_prepared prepared).2] at outcome
        rcases (Sandbox.run_ok_iff r).mp outcome with ⟨value, returns, -⟩ | ⟨call, code, ended, -⟩
        · exact ⟨_, .returned prepared returns⟩
        · exact ⟨_, .exited prepared ended⟩

/-- A guest whose entry returns has not exited. -/
theorem Ends.not_exited {value code : Int32} (returned : h.Ends c (.returned value)) :
    ¬ h.Ends c (.exited code) := by
  intro exited
  cases returned with
  | returned prepared returns =>
    cases exited with
    | exited prepared' ended =>
      -- both are about one sandbox, since preparing has one outcome
      cases prepared.symm.trans prepared'
      have well := Sandbox.callEntry_returns_iff.mpr returns
      have exit := (Sandbox.callEntry_error_iff fun _ never => CallError.noConfusion never).mpr
        ⟨_, ended⟩
      cases well.symm.trans exit

/-- **It ends in one of them only.** -/
theorem Ends.unique (first : h.Ends c e) (second : h.Ends c e') : e = e' := by
  have same := first.invoke_eq.symm.trans second.invoke_eq
  cases e with
  | returned value =>
    cases e' with
    | returned value' =>
      have results := congrArg Context.result (Except.ok.inj same)
      exact congrArg Ending.returned (Option.some.inj results)
    | exited code => exact absurd second first.not_exited
    | failed fault => cases same
  | exited code =>
    cases e' with
    | returned value => exact absurd first second.not_exited
    | exited code' =>
      have results := congrArg Context.result (Except.ok.inj same)
      exact congrArg Ending.exited (Option.some.inj results)
    | failed fault => cases same
  | failed fault =>
    cases e' with
    | failed fault' => exact congrArg Ending.failed (Except.error.inj same)
    | _ => cases same

end Host

/-! ## Contexts that are used again -/

namespace Context

variable {c : Context} {h : Host} {e : Ending} {earlier : List Ending}

/-- A context as its owner holds it after an invocation: what has failed has not changed it. -/
def spent (h : Host) (c : Context) : Context :=
  match (h.invoke c).1 with
  | .ok c => c
  | .error _ => c

/-- A context reports an invocation: its result, and its exit code if it exited. -/
structure Reports (c : Context) (e : Ending) : Prop where
  result_eq : c.result = e.word?
  exitCode_eq : c.exitCode = e.code?

/-- A context has been used for some invocations, the latest first, by hosts in whatever states they
were, and may have been changed in between as contexts can be. -/
inductive Used : List Ending → Context → Prop where
  | top (guest entry : String) : Used [] (top guest entry)
  | nested (parent : Invocation) (guest entry : String) : Used [] (nested parent guest entry)
  | arguments {earlier : List Ending} {c : Context} (arguments : List Int32) :
      Used earlier c → Used earlier (c.withArguments arguments)
  | mode {earlier : List Ending} {c : Context} (mode : Mode) :
      Used earlier c → Used earlier (c.withMode mode)
  | program {earlier : List Ending} {c : Context} (program : String) (arguments : List String) :
      Used earlier c → Used earlier (c.withProgram program arguments)
  | buffers {earlier : List Ending} {c : Context} (input output : Nat) :
      Used earlier c → Used earlier (c.withBuffers input output)
  | trace {earlier : List Ending} {c : Context} (trace : Bool) :
      Used earlier c → Used earlier (c.withTrace trace)
  | again {earlier : List Ending} {c : Context} {h : Host} {e : Ending} (ends : h.Ends c e) :
      Used earlier c → Used (e :: earlier) (c.spent h)

theorem spent_of_ok {r : Context} (well : (h.invoke c).1 = .ok r) : c.spent h = r := by
  unfold spent
  rw [well]

/-- An invocation replaces in its context what it has a word or a code for. -/
theorem spent_eq (ends : h.Ends c e) : (c.spent h).result = e.word?.or c.result ∧
    (c.spent h).exitCode = e.code?.or c.exitCode := by
  unfold spent
  rw [ends.invoke_eq]
  cases e <;> exact ⟨rfl, rfl⟩

/-- **A context reports the latest word and the latest exit code** of all that it has been used
for. -/
theorem Used.reports (used : Used earlier c) :
    c.result = earlier.findSome? Ending.word? ∧ c.exitCode = earlier.findSome? Ending.code? := by
  induction used with
  | top | nested => exact ⟨rfl, rfl⟩
  | arguments _ _ ih | mode _ _ ih | program _ _ _ ih | buffers _ _ _ ih | trace _ _ ih => exact ih
  | again ends _ ih =>
    obtain ⟨result, exitCode⟩ := spent_eq ends
    rw [result, exitCode, ih.1, ih.2, List.findSome?_cons, List.findSome?_cons]
    constructor
    · cases Ending.word? _ <;> rfl
    · cases Ending.code? _ <;> rfl

/-- **A context reports its latest run and only that exactly if** that run exited, or it returned
and no earlier run exited, or it failed and so did all earlier runs. -/
theorem reports_latest_iff (used : Used earlier c) (h : Host) : ∃ e, h.Ends c e ∧
    (∀ e', h.Ends c e' → e' = e) ∧
    (c.spent h).result = (e :: earlier).findSome? Ending.word? ∧
    (c.spent h).exitCode = (e :: earlier).findSome? Ending.code? ∧
    ((c.spent h).Reports e ↔
      match e with
      | .exited _ => True
      | .returned _ => ∀ e' ∈ earlier, e'.code? = none
      | .failed _ => ∀ e' ∈ earlier, e'.word? = none) := by
  obtain ⟨e, ends⟩ := h.exists_ends c
  obtain ⟨result, exitCode⟩ := (used.again ends).reports
  refine ⟨e, ends, fun e' ends' => ends'.unique ends, result, exitCode, ?_⟩
  have exact_iff : (c.spent h).Reports e ↔
      (e :: earlier).findSome? Ending.word? = e.word? ∧
        (e :: earlier).findSome? Ending.code? = e.code? := by
    rw [← result, ← exitCode]
    exact ⟨fun reports => ⟨reports.result_eq, reports.exitCode_eq⟩, fun both => ⟨both.1, both.2⟩⟩
  rw [exact_iff, List.findSome?_cons, List.findSome?_cons]
  cases e with
  | returned value =>
    show (some value = some value ∧ earlier.findSome? Ending.code? = none) ↔ _
    rw [List.findSome?_eq_none_iff]
    exact and_iff_right rfl
  | exited code => exact iff_of_true ⟨rfl, rfl⟩ trivial
  | failed fault =>
    show (earlier.findSome? Ending.word? = none ∧ earlier.findSome? Ending.code? = none) ↔ _
    rw [List.findSome?_eq_none_iff, List.findSome?_eq_none_iff]
    exact and_iff_left_of_imp fun none e' he' => Ending.code?_of_word? (none e' he')

/-! ## A guest that exits and is replaced by one that returns -/

/-- A guest whose entry exits with three. -/
def exiter : String :=
  "(module (import \"wasi_snapshot_preview1\" \"proc_exit\" (func $e (param i32)))" ++
    " (func (export \"run\") (result i32) i32.const 3 call $e i32.const 4))"

/-- A guest whose entry returns two. -/
def returner : String := "(module (func (export \"run\") (result i32) i32.const 2))"

/-- The context of both. -/
def replaced : Context := (top "g" "run").withMode .posix

/-- A host of the first. -/
@[irreducible]
def exitingHost : Host :=
  ((Host.new .default .offline 0).registerGuest "g" (Utf8.encode exiter)).2

/-- A host of the second. -/
@[irreducible]
def returningHost : Host :=
  ((Host.new .default .offline 0).registerGuest "g" (Utf8.encode returner)).2

theorem exitingHost_exits : (exitingHost.invoke replaced).1 = .ok (replaced.exited 3) := by
  decide +kernel

theorem returningHost_returns : (returningHost.invoke (replaced.exited 3)).1 =
    .ok ((replaced.exited 3).returned 2) := by
  decide +kernel

/-- A context that is used for one and then for the other reports the code of the first beside the
word of the second. -/
theorem reports_latest_iff_replaced : ∃ c, Used [.exited 3] c ∧
    returningHost.Ends c (.returned 2) ∧ (c.spent returningHost).result = some 2 ∧
    (c.spent returningHost).exitCode = some 3 ∧
    ¬ (c.spent returningHost).Reports (.returned 2) := by
  have fresh : Used [] replaced := .mode .posix (.top "g" "run")
  obtain ⟨first, exits, -⟩ := reports_latest_iff fresh exitingHost
  obtain rfl : first = .exited 3 := by
    have outcome := exits.invoke_eq.symm.trans exitingHost_exits
    cases first with
    | returned value => cases congrArg Context.exitCode (Except.ok.inj outcome)
    | exited code =>
      exact congrArg Ending.exited
        (Option.some.inj (congrArg Context.result (Except.ok.inj outcome)))
    | failed fault => cases outcome
  have used := fresh.again exits
  rw [spent_of_ok exitingHost_exits] at used
  obtain ⟨second, returns, -, result, exitCode, reports⟩ := reports_latest_iff used returningHost
  obtain rfl : second = .returned 2 := by
    have outcome := returns.invoke_eq.symm.trans returningHost_returns
    cases second with
    | returned value =>
      exact congrArg Ending.returned
        (Option.some.inj (congrArg Context.result (Except.ok.inj outcome)))
    | exited code =>
      have word := Option.some.inj (congrArg Context.result (Except.ok.inj outcome))
      have code := Option.some.inj (congrArg Context.exitCode (Except.ok.inj outcome))
      exact absurd (word.symm.trans code) (by decide)
    | failed fault => cases outcome
  refine ⟨replaced.exited 3, used, returns, result, exitCode, fun good => ?_⟩
  exact absurd (reports.mp good (.exited 3) (List.mem_singleton_self _)) (by decide)

end Context

end GuestHost
