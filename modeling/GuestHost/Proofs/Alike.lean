import GuestHost.Proofs.Stateful
/-!
# Computations that end alike

Two computations of one shape run side by side from related states. They **end alike** if both end
with values that are related or both with the same failure, in states that are related again; some
failures may be excused, and an end with one of them is like any other. As with invariants, one
rule for each way in which computations are put together follows two programs through. The rule for
two in a row also comes in a form for given states, for computations that are only alike where they
are in fact run.
-/

namespace GuestHost

namespace Stateful

variable {ε σ α β : Type}

/-- Two ends of computations are alike, the failures in `L` being excused. -/
inductive Ends (R : σ → σ → Prop) (L : ε → Prop) (P : α → α → Prop) :
    Except ε α × σ → Except ε α × σ → Prop where
  | ok {a a' : α} {s s' : σ} : P a a' → R s s' → Ends R L P (.ok a, s) (.ok a', s')
  | error (e : ε) {s s' : σ} : R s s' → Ends R L P (.error e, s) (.error e, s')
  | left {e : ε} {s : σ} {r : Except ε α × σ} : L e → Ends R L P (.error e, s) r
  | right {e : ε} {s : σ} {r : Except ε α × σ} : L e → Ends R L P r (.error e, s)

/-- Two computations end alike from all related states. -/
def Alike (R : σ → σ → Prop) (L : ε → Prop) (x x' : ExceptT ε (StateM σ) α)
    (P : α → α → Prop) : Prop :=
  ∀ s s', R s s' → Ends R L P (x.run s) (x'.run s')

/-- No failure is excused. -/
def never : ε → Prop := fun _ => False

variable {R : σ → σ → Prop} {L : ε → Prop} {P P' : α → α → Prop} {Q : β → β → Prop}
  {x x' : ExceptT ε (StateM σ) α} {f f' : α → ExceptT ε (StateM σ) β} {s s' : σ}

namespace Ends

/-- **Two computations in a row**, from given states. The second ones run where the first ones
have ended well. -/
theorem bind (hx : Ends R L P (x.run s) (x'.run s'))
    (hf : ∀ a a' t t', x.run s = (.ok a, t) → x'.run s' = (.ok a', t') → P a a' → R t t' →
      Ends R L Q ((f a).run t) ((f' a').run t')) :
    Ends R L Q ((x >>= f).run s) ((x' >>= f').run s') := by
  rw [run_bind, run_bind]
  revert hx hf
  generalize x.run s = r
  generalize x'.run s' = r'
  intro hx hf
  cases hx with
  | ok related states => exact hf _ _ _ _ rfl rfl related states
  | error e states => exact .error e states
  | left excused => exact .left excused
  | right excused => exact .right excused

/-- Ends that are alike are of one kind, unless one of them is excused. -/
theorem cases {r r' : Except ε α × σ} (h : Ends R L P r r') :
    (∃ a a' t t', r = (.ok a, t) ∧ r' = (.ok a', t') ∧ P a a' ∧ R t t') ∨
      (∃ e t t', r = (.error e, t) ∧ r' = (.error e, t') ∧ R t t') ∨
      (∃ e t, r = (.error e, t) ∧ L e) ∨ ∃ e t, r' = (.error e, t) ∧ L e := by
  cases h with
  | ok related states => exact .inl ⟨_, _, _, _, rfl, rfl, related, states⟩
  | error e states => exact .inr (.inl ⟨e, _, _, rfl, rfl, states⟩)
  | left excused => exact .inr (.inr (.inl ⟨_, _, rfl, excused⟩))
  | right excused => exact .inr (.inr (.inr ⟨_, _, rfl, excused⟩))

theorem cases_never {r r' : Except ε α × σ} (h : Ends R never P r r') :
    (∃ a a' t t', r = (.ok a, t) ∧ r' = (.ok a', t') ∧ P a a' ∧ R t t') ∨
      ∃ e t t', r = (.error e, t) ∧ r' = (.error e, t') ∧ R t t' := by
  obtain ok | error | ⟨_, _, -, excused⟩ | ⟨_, _, -, excused⟩ := h.cases
  · exact .inl ok
  · exact .inr error
  · exact excused.elim
  · exact excused.elim

/-- The states are related, however two computations have ended. -/
theorem states {r r' : Except ε α × σ} (h : Ends R never P r r') : R r.2 r'.2 := by
  cases h with
  | ok _ states => exact states
  | error _ states => exact states
  | left excused => exact excused.elim
  | right excused => exact excused.elim

theorem tryCatch {h h' : ε → ExceptT ε (StateM σ) α} (hx : Ends R never P (x.run s) (x'.run s'))
    (hh : ∀ e, Alike R never (h e) (h' e) P) :
    Ends R never P ((MonadExcept.tryCatch x h).run s) ((MonadExcept.tryCatch x' h').run s') := by
  rw [run_tryCatch, run_tryCatch]
  obtain ⟨a, a', t, t', hr, hr', related, states⟩ | ⟨e, t, t', hr, hr', states⟩ := hx.cases_never
  · rw [hr, hr']
    exact .ok related states
  · rw [hr, hr']
    exact hh e t t' states

end Ends

namespace Alike

theorem pure {a a' : α} (h : P a a') :
    Alike R L (Pure.pure a : ExceptT ε (StateM σ) α) (Pure.pure a') P :=
  fun _ _ states => .ok h states

theorem throw (e : ε) :
    Alike R L (MonadExcept.throw e : ExceptT ε (StateM σ) α) (MonadExcept.throw e) P :=
  fun _ _ states => .error e states

/-- **Two computations in a row.** -/
theorem bind (hx : Alike R L x x' P) (hf : ∀ a a', P a a' → Alike R L (f a) (f' a') Q) :
    Alike R L (x >>= f) (x' >>= f') Q :=
  fun s s' states => (hx s s' states).bind fun a a' t t' _ _ related states =>
    hf a a' related t t' states

theorem ite {c c' : Prop} [Decidable c] [Decidable c'] {y y' : ExceptT ε (StateM σ) α}
    (same : c ↔ c') (hx : Alike R L x x' P) (hy : Alike R L y y' P) :
    Alike R L (if c then x else y) (if c' then x' else y') P := by
  by_cases h : c
  · rw [if_pos h, if_pos (same.mp h)]
    exact hx
  · rw [if_neg h, if_neg (mt same.mpr h)]
    exact hy

theorem get : Alike R L (MonadState.get : ExceptT ε (StateM σ) σ) MonadState.get R :=
  fun _ _ states => .ok states states

theorem set (h : R s s') :
    Alike R L (MonadStateOf.set s : ExceptT ε (StateM σ) PUnit) (MonadStateOf.set s')
      fun _ _ => True :=
  fun _ _ _ => .ok trivial h

/-- **A step that only one side takes** does not matter if the states stay related. -/
theorem optional {c c' : Prop} [Decidable c] [Decidable c'] {g : σ → σ}
    (both : ∀ s s', R s s' → R (g s) (g s'))
    (apart : (c ↔ c') ∨ (∀ s s', R s s' → R (g s) s') ∧ ∀ s s', R s s' → R s (g s'))
    (hx : Alike R L x x' P) :
    Alike R L (if c then do modify g; x else x) (if c' then do modify g; x' else x') P := by
  intro s s' states
  by_cases hc : c <;> by_cases hc' : c' <;> simp only [hc, hc', if_true, if_false]
  · exact hx _ _ (both s s' states)
  · rcases apart with same | apart
    · exact absurd (same.mp hc) hc'
    · exact hx _ _ (apart.1 s s' states)
  · rcases apart with same | apart
    · exact absurd (same.mpr hc') hc
    · exact hx _ _ (apart.2 s s' states)
  · exact hx s s' states

/-- A guard whose failure is excused. -/
theorem guard {c c' : Prop} [Decidable c] [Decidable c'] {e e' : ε}
    {y y' : α → ExceptT ε (StateM σ) β} {z z' : ExceptT ε (StateM σ) β} (he : L e) (he' : L e')
    (hz : Alike R L z z' Q) :
    Alike R L (if c then MonadExcept.throw e >>= y else z)
      (if c' then MonadExcept.throw e' >>= y' else z') Q := by
  intro s s' states
  by_cases hc : c
  · rw [if_pos hc]
    exact .left he
  · by_cases hc' : c'
    · rw [if_pos hc']
      exact .right he'
    · rw [if_neg hc, if_neg hc']
      exact hz s s' states

theorem ofExcept {R : World → World → Prop} {L : Failure → Prop}
    {outcome outcome' : Except Failure α} (h : outcome = outcome') (hP : ∀ a, P a a) :
    Alike R L (Setup.ofExcept outcome) (Setup.ofExcept outcome') P := by
  subst h
  cases outcome with
  | ok a => exact pure (hP a)
  | error e => exact throw e

theorem tryCatch {h h' : ε → ExceptT ε (StateM σ) α} (hx : Alike R never x x' P)
    (hh : ∀ e, Alike R never (h e) (h' e) P) :
    Alike R never (MonadExcept.tryCatch x h) (MonadExcept.tryCatch x' h') P :=
  fun s s' states => (hx s s' states).tryCatch hh

end Alike

end Stateful

end GuestHost
