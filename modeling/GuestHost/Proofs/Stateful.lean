import GuestHost.Loading
/-!
# Computations that obey an invariant

Setups, host calls and runs are computations of one shape: each changes a state and may fail. A
computation **obeys** an invariant if the state it leaves meets it, however the computation ends,
whenever the state it starts from does; what the computation yields may be described on the way.
It **fails as** a kind of errors says if it fails with no others. One rule for each way in which
computations are put together is all that is needed to follow a program through.
-/

namespace GuestHost

namespace Stateful

variable {ε σ α β : Type}

/-! ## Outcomes -/

theorem toOption_eq_some_iff {outcome : Except ε α} {a : α} :
    outcome.toOption = some a ↔ outcome = .ok a := by
  cases outcome <;> simp [Except.toOption]

theorem ok_of_toOption_any {outcome : Except ε α} {P : α → Bool}
    (holds : outcome.toOption.any P = true) : ∃ a, outcome = .ok a ∧ P a = true := by
  obtain ⟨a, found, held⟩ := (Option.any_eq_true _ _).mp holds
  exact ⟨a, toOption_eq_some_iff.mp found, held⟩

/-! ## Running -/

theorem run_get (s : σ) : (get : ExceptT ε (StateM σ) σ).run s = (.ok s, s) := rfl

theorem run_set (t s : σ) : (set t : ExceptT ε (StateM σ) PUnit).run s = (.ok ⟨⟩, t) := rfl

theorem run_ofExcept (outcome : Except Failure α) (w : World) :
    (Setup.ofExcept outcome).run w = (outcome, w) := by
  cases outcome <;> rfl

theorem run_bind (x : ExceptT ε (StateM σ) α) (f : α → ExceptT ε (StateM σ) β) (s : σ) :
    (x >>= f).run s =
      match (x.run s).1 with
      | .ok a => (f a).run (x.run s).2
      | .error e => (.error e, (x.run s).2) := by
  change (match (x.run s).1 with
    | .ok a => f a
    | .error e => (pure (.error e) : StateM σ (Except ε β))) (x.run s).2 = _
  cases (x.run s).1 <;> rfl

theorem run_tryCatch (x : ExceptT ε (StateM σ) α) (h : ε → ExceptT ε (StateM σ) α) (s : σ) :
    (tryCatch x h).run s =
      match (x.run s).1 with
      | .ok a => (.ok a, (x.run s).2)
      | .error e => (h e).run (x.run s).2 := by
  change (match (x.run s).1 with
    | .ok a => (pure (.ok a) : StateM σ (Except ε α))
    | .error e => h e) (x.run s).2 = _
  cases (x.run s).1 <;> rfl

/-! ## Invariants -/

/-- A computation keeps an invariant, and yields only values of a kind. -/
def Obeys (I : σ → Prop) (x : ExceptT ε (StateM σ) α) (P : α → Prop) : Prop :=
  ∀ s, I s → I (x.run s).2 ∧ ∀ a, (x.run s).1 = .ok a → P a

variable {I : σ → Prop} {P Q : α → Prop} {R : β → Prop} {x : ExceptT ε (StateM σ) α}
  {f : α → ExceptT ε (StateM σ) β}

namespace Obeys

theorem pure {a : α} (h : P a) : Obeys I (Pure.pure a : ExceptT ε (StateM σ) α) P :=
  fun _ hs => ⟨hs, fun _ ha => Except.ok.inj ha ▸ h⟩

theorem throw (e : ε) : Obeys I (MonadExcept.throw e : ExceptT ε (StateM σ) α) P :=
  fun _ hs => ⟨hs, fun _ ha => nomatch ha⟩

/-- **Two computations in a row.** The second may rely on what the first yields. -/
theorem bind (hx : Obeys I x P) (hf : ∀ a, P a → Obeys I (f a) R) : Obeys I (x >>= f) R := by
  intro s hs
  obtain ⟨hs', hP⟩ := hx s hs
  rw [run_bind]
  cases h : (x.run s).1 with
  | error e => exact ⟨hs', fun _ ha => nomatch ha⟩
  | ok a => exact hf a (hP a h) _ hs'

theorem throw_bind (e : ε) (f : α → ExceptT ε (StateM σ) β) :
    Obeys I (MonadExcept.throw e >>= f) R :=
  bind (P := fun _ => False) (throw e) fun _ h => h.elim

theorem ite {c : Prop} [Decidable c] {y : ExceptT ε (StateM σ) α} (hx : c → Obeys I x P)
    (hy : ¬ c → Obeys I y P) : Obeys I (if c then x else y) P := by
  split
  · exact hx ‹_›
  · exact hy ‹_›

theorem get : Obeys I (MonadState.get : ExceptT ε (StateM σ) σ) I :=
  fun _ hs => ⟨hs, fun _ ha => Except.ok.inj ha ▸ hs⟩

theorem set {s : σ} (h : I s) :
    Obeys I (MonadStateOf.set s : ExceptT ε (StateM σ) PUnit) fun _ => True :=
  fun _ _ => ⟨h, fun _ _ => trivial⟩

theorem update {g : σ → σ} (h : ∀ s, I s → I (g s)) :
    Obeys I (modify g : ExceptT ε (StateM σ) PUnit) fun _ => True :=
  fun s hs => ⟨h s hs, fun _ _ => trivial⟩

theorem mapM {g : β → ExceptT ε (StateM σ) α} (h : ∀ b, Obeys I (g b) fun _ => True)
    (l : List β) : Obeys I (l.mapM g) fun _ => True := by
  induction l with
  | nil => exact pure trivial
  | cons b rest ih =>
    rw [List.mapM_cons]
    exact bind (h b) fun a _ => bind ih fun as _ => pure trivial

theorem ofExcept {J : World → Prop} {outcome : Except Failure α}
    (h : ∀ a, outcome = .ok a → P a) : Obeys J (Setup.ofExcept outcome) P := by
  cases outcome with
  | ok a => exact pure (h a rfl)
  | error e => exact throw e

end Obeys

/-! ## Failures -/

/-- A computation fails with errors of a kind only. -/
def FailsAs (K : ε → Prop) (x : ExceptT ε (StateM σ) α) : Prop :=
  ∀ s e, (x.run s).1 = .error e → K e

variable {K : ε → Prop}

namespace FailsAs

theorem pure (a : α) : FailsAs K (Pure.pure a : ExceptT ε (StateM σ) α) :=
  fun _ _ failed => nomatch failed

theorem throw {e : ε} (h : K e) : FailsAs K (MonadExcept.throw e : ExceptT ε (StateM σ) α) :=
  fun _ _ failed => Except.error.inj failed ▸ h

theorem bind (hx : FailsAs K x) (hf : ∀ a, FailsAs K (f a)) : FailsAs K (x >>= f) := by
  intro s e failed
  rw [run_bind] at failed
  cases come : (x.run s).1 with
  | error fault =>
    rw [come] at failed
    exact Except.error.inj failed ▸ hx s fault come
  | ok a =>
    rw [come] at failed
    exact hf a _ e failed

theorem mono {L : ε → Prop} (hx : FailsAs K x) (h : ∀ e, K e → L e) : FailsAs L x :=
  fun s e failed => h e (hx s e failed)

theorem throw_bind {e : ε} (h : K e) (f : α → ExceptT ε (StateM σ) β) :
    FailsAs K (MonadExcept.throw e >>= f) :=
  fun _ _ failed => Except.error.inj failed ▸ h

theorem ite {c : Prop} [Decidable c] {y : ExceptT ε (StateM σ) α} (hx : c → FailsAs K x)
    (hy : ¬ c → FailsAs K y) : FailsAs K (if c then x else y) := by
  split
  · exact hx ‹_›
  · exact hy ‹_›

theorem get : FailsAs K (MonadState.get : ExceptT ε (StateM σ) σ) :=
  fun _ _ failed => nomatch failed

theorem set (s : σ) : FailsAs K (MonadStateOf.set s : ExceptT ε (StateM σ) PUnit) :=
  fun _ _ failed => nomatch failed

theorem update (g : σ → σ) : FailsAs K (modify g : ExceptT ε (StateM σ) PUnit) :=
  fun _ _ failed => nomatch failed

theorem mapM {g : β → ExceptT ε (StateM σ) α} (h : ∀ b, FailsAs K (g b)) (l : List β) :
    FailsAs K (l.mapM g) := by
  induction l with
  | nil => exact pure []
  | cons b rest ih =>
    rw [List.mapM_cons]
    exact bind (h b) fun a => bind ih fun as => pure (a :: as)

theorem ofExcept {L : Failure → Prop} {outcome : Except Failure α}
    (h : ∀ e, outcome = .error e → L e) : FailsAs L (Setup.ofExcept outcome) := by
  intro w e failed
  rw [run_ofExcept] at failed
  exact h e failed

end FailsAs

end Stateful

end GuestHost
