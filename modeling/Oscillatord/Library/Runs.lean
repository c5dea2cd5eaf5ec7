import Mathlib.Data.List.Infix
import Mathlib.Tactic.Common

/-!
# Runs of a step function

A deterministic component is a step function `step : σ → ε → σ`; a run feeds it a finite list of
events. Two judgements of a run carry everything said about one here:

* `Throughout step P s es`: `P` holds in every state the run reaches;
* `EachStep step C s es`: every step of the run meets `C`, a condition on the state before the
  step and on its event.

`throughout_of_eachStep` is the invariant rule: a property kept by every step that meets `C`
holds throughout every run whose steps meet it. `throughout_iff_eachStep` is its exact form: when
a step keeps `P` *exactly* when it meets `C`, the runs throughout which `P` holds are exactly the
runs whose steps meet `C`. `eachStep_congr` exchanges two step conditions that agree on an
invariant, and `after_hom` projects an instrumented component to the component itself.

A run is also read by position: `stateAt step s es k` is the state before its event `k`, and
`Latest p k i` says that `i` is the last position before `k` at which `p` holds.

A component that goes on forever is given a schedule, an infinite sequence of events, and `orbit`
is its state as time passes. `exists_fixed_of_fair` is the rule for what a component comes to under
every schedule in which each event keeps occurring: where an effective step brings a measure down
or reaches a state that no event changes, such a state is reached.
-/

namespace StepRun

universe u v w

variable {σ : Type u} {ε : Type v} {τ : Type w} (step : σ → ε → σ)

/-- The state after the events `es`, taken one by one from `s`. -/
def after (s : σ) (es : List ε) : σ := es.foldl step s

/-- `P` holds in every state the run reaches, the first and the last included. -/
def Throughout (P : σ → Prop) (s : σ) (es : List ε) : Prop :=
  ∀ pre, pre <+: es → P (after step s pre)

/-- Every step of the run meets `C`, judged on the state before the step and on its event. -/
def EachStep (C : σ → ε → Prop) (s : σ) (es : List ε) : Prop :=
  ∀ pre e, pre ++ [e] <+: es → C (after step s pre) e

variable {step} {P J : σ → Prop} {C D : σ → ε → Prop} {s : σ} {es : List ε} {e : ε}

@[simp] theorem after_nil : after step s [] = s := rfl

@[simp] theorem after_cons : after step s (e :: es) = after step (step s e) es := rfl

@[simp] theorem after_append {fs : List ε} :
    after step s (es ++ fs) = after step (after step s es) fs :=
  List.foldl_append

/-! ### The recursion of the two judgements -/

@[simp] theorem throughout_nil : Throughout step P s [] ↔ P s := by
  constructor
  · intro h
    exact h [] (List.prefix_refl _)
  · intro h pre hpre
    rw [List.prefix_nil.mp hpre]
    exact h

@[simp] theorem throughout_cons :
    Throughout step P s (e :: es) ↔ P s ∧ Throughout step P (step s e) es := by
  constructor
  · intro h
    refine ⟨h [] List.nil_prefix, fun pre hpre => ?_⟩
    exact h (e :: pre) (List.cons_prefix_cons.mpr ⟨rfl, hpre⟩)
  · rintro ⟨hs, hrest⟩ pre hpre
    rcases pre with _ | ⟨a, pre⟩
    · exact hs
    · obtain ⟨rfl, htail⟩ := List.cons_prefix_cons.mp hpre
      exact hrest pre htail

@[simp] theorem eachStep_nil : EachStep step C s [] := by
  intro pre e hpre
  have hlen := hpre.length_le
  simp at hlen

@[simp] theorem eachStep_cons :
    EachStep step C s (e :: es) ↔ C s e ∧ EachStep step C (step s e) es := by
  constructor
  · intro h
    refine ⟨h [] e ?_, fun pre a hpre => ?_⟩
    · exact List.cons_prefix_cons.mpr ⟨rfl, List.nil_prefix⟩
    · exact h (e :: pre) a (List.cons_prefix_cons.mpr ⟨rfl, hpre⟩)
  · rintro ⟨hs, hrest⟩ pre a hpre
    rcases pre with _ | ⟨b, pre⟩
    · obtain ⟨rfl, -⟩ := List.cons_prefix_cons.mp hpre
      exact hs
    · obtain ⟨rfl, htail⟩ := List.cons_prefix_cons.mp hpre
      exact hrest pre a htail

/-- Whether every step meets a decidable condition is decided step by step. -/
instance decidableEachStep [∀ s e, Decidable (C s e)] :
    ∀ s es, Decidable (EachStep step C s es)
  | _, [] => isTrue eachStep_nil
  | s, e :: es =>
    have : Decidable (EachStep step C (step s e) es) := decidableEachStep (step s e) es
    decidable_of_iff _ eachStep_cons.symm

@[simp] theorem eachStep_append {fs : List ε} :
    EachStep step C s (es ++ fs) ↔ EachStep step C s es ∧ EachStep step C (after step s es) fs := by
  induction es generalizing s with
  | nil => simp
  | cons e es ih => simp only [List.cons_append, eachStep_cons, ih, after_cons, and_assoc]

/-- A property that holds throughout a run holds at its end. -/
theorem Throughout.last (h : Throughout step P s es) : P (after step s es) :=
  h es (List.prefix_refl es)

/-! ### The invariant rules -/

/-- A property every step keeps holds at the end of every run. -/
theorem after_induction (hs : P s) (hstep : ∀ s e, P s → P (step s e)) :
    P (after step s es) := by
  induction es generalizing s with
  | nil => exact hs
  | cons e es ih => exact ih (hstep s e hs)

/-- **The invariant rule.** A property kept by every step that meets `C` holds throughout every
run whose steps meet `C`. -/
theorem throughout_of_eachStep (hs : P s) (hstep : ∀ s e, P s → C s e → P (step s e))
    (h : EachStep step C s es) : Throughout step P s es := by
  induction es generalizing s with
  | nil => exact throughout_nil.mpr hs
  | cons e es ih =>
    obtain ⟨hC, hrest⟩ := eachStep_cons.mp h
    exact throughout_cons.mpr ⟨hs, ih (hstep s e hs hC) hrest⟩

/-- A condition that every step meets in the states of an invariant is met throughout a run. -/
theorem eachStep_of_invariant (hJ : J s) (hJstep : ∀ s e, J s → J (step s e))
    (hC : ∀ s e, J s → C s e) : EachStep step C s es :=
  fun _ e _ => hC _ e (after_induction hJ hJstep)

/-- **The exact invariant rule.** When, on the states of an unconditional invariant `J`, a step
from a `P`-state reaches a `P`-state exactly when it meets `C`, the property `P` holds throughout
a run exactly when every step of the run meets `C`. -/
theorem throughout_iff_eachStep (hJ : J s) (hs : P s) (hJstep : ∀ s e, J s → J (step s e))
    (hstep : ∀ s e, J s → P s → (P (step s e) ↔ C s e)) :
    Throughout step P s es ↔ EachStep step C s es := by
  constructor
  · intro h pre e hpre
    have hJpre : J (after step s pre) := after_induction hJ hJstep
    have hPpre : P (after step s pre) := h pre ((List.prefix_append pre [e]).trans hpre)
    refine (hstep _ e hJpre hPpre).mp ?_
    have hnext := h (pre ++ [e]) hpre
    rw [after_append] at hnext
    exact hnext
  · intro h
    have hboth : Throughout step (fun s => J s ∧ P s) s es :=
      throughout_of_eachStep ⟨hJ, hs⟩
        (fun s e hJP hC => ⟨hJstep s e hJP.1, (hstep s e hJP.1 hJP.2).mpr hC⟩) h
    exact fun pre hpre => (hboth pre hpre).2

/-- Two step conditions that agree on the states of an invariant are met by the same runs. -/
theorem eachStep_congr (hJ : J s) (hJstep : ∀ s e, J s → J (step s e))
    (hCD : ∀ s e, J s → (C s e ↔ D s e)) :
    EachStep step C s es ↔ EachStep step D s es := by
  refine forall_congr' fun pre => forall_congr' fun e => imp_congr_right fun _ => ?_
  exact hCD _ e (after_induction hJ hJstep)

/-- Two step conditions that agree on the states of a property are met by the same runs when the
steps that meet the second one keep the property. -/
theorem eachStep_congr_of_kept (hJ : J s) (hCD : ∀ s e, J s → (C s e ↔ D s e))
    (hJstep : ∀ s e, J s → D s e → J (step s e)) :
    EachStep step C s es ↔ EachStep step D s es := by
  induction es generalizing s with
  | nil => exact iff_of_true eachStep_nil eachStep_nil
  | cons e es ih =>
    rw [eachStep_cons, eachStep_cons, hCD s e hJ]
    exact and_congr_right fun hD => ih (hJstep s e hJ hD)

/-- Two step conditions that agree where a third one is met are met by the same of the runs whose
steps meet that one. -/
theorem eachStep_congr_of_eachStep {A : σ → ε → Prop} (hA : EachStep step A s es)
    (hCD : ∀ s e, A s e → (C s e ↔ D s e)) :
    EachStep step C s es ↔ EachStep step D s es :=
  forall_congr' fun _ => forall_congr' fun e => forall_congr' fun hpre => hCD _ e (hA _ e hpre)

/-- **Projection.** When `f` commutes with the steps of two components, it commutes with their
runs. -/
theorem after_hom {step' : τ → ε → τ} (f : σ → τ) (hf : ∀ s e, f (step s e) = step' (f s) e) :
    f (after step s es) = after step' (f s) es := by
  induction es generalizing s with
  | nil => rfl
  | cons e es ih => rw [after_cons, after_cons, ih, hf]

/-! ### Reading a run by position -/

/-- The state before event `k` of the run. -/
def stateAt (step : σ → ε → σ) (s : σ) (es : List ε) (k : ℕ) : σ := after step s (es.take k)

theorem stateAt_succ {k : ℕ} (he : es[k]? = some e) :
    stateAt step s es (k + 1) = step (stateAt step s es k) e := by
  have htake : es.take (k + 1) = es.take k ++ [e] := by
    rw [List.take_add_one, he]
    rfl
  rw [stateAt, htake, after_append]
  rfl

/-- `i` is the last position before `k` at which `p` holds. -/
structure Latest (p : ℕ → Prop) (k i : ℕ) : Prop where
  lt : i < k
  holds : p i
  none_between : ∀ m, i < m → m < k → ¬ p m

namespace Latest

variable {p : ℕ → Prop} {i j k l : ℕ}

theorem of_holds (hk : p k) : Latest p (k + 1) k :=
  ⟨k.lt_succ_self, hk, fun _ hkm hmk _ => by omega⟩

theorem succ (h : Latest p k i) (hk : ¬ p k) : Latest p (k + 1) i := by
  refine ⟨h.lt.trans k.lt_succ_self, h.holds, fun m him hmk => ?_⟩
  rcases Nat.lt_succ_iff_lt_or_eq.mp hmk with hlt | rfl
  · exact h.none_between m him hlt
  · exact hk

theorem of_succ (h : Latest p (k + 1) i) (hk : ¬ p k) : Latest p k i := by
  have hik : i ≠ k := fun heq => hk (heq ▸ h.holds)
  exact ⟨by have := h.lt; omega, h.holds, fun m him hmk => h.none_between m him (by omega)⟩

theorem unique (hi : Latest p k i) (hj : Latest p k j) : i = j := by
  rcases Nat.lt_trichotomy i j with hlt | heq | hgt
  · exact absurd hj.holds (hi.none_between j hlt hj.lt)
  · exact heq
  · exact absurd hi.holds (hj.none_between i hgt hi.lt)

/-- A position is the latest before at most one position at which `p` holds. -/
theorem next_unique (hk : Latest p k i) (hl : Latest p l i) (hpk : p k) (hpl : p l) : k = l := by
  rcases Nat.lt_trichotomy k l with hlt | heq | hgt
  · exact absurd hpk (hl.none_between k hk.lt hlt)
  · exact heq
  · exact absurd hpl (hk.none_between l hl.lt hgt)

end Latest

/-! ### Schedules -/

/-- The state at each time of a schedule. -/
def orbit (step : σ → ε → σ) (s : σ) (schedule : ℕ → ε) : ℕ → σ
  | 0 => s
  | n + 1 => step (orbit step s schedule n) (schedule n)

/-- Every event occurs again and again. -/
def Fair (schedule : ℕ → ε) : Prop := ∀ e n, ∃ m, n ≤ m ∧ schedule m = e

/-- No event changes the state. -/
def Fixed (step : σ → ε → σ) (s : σ) : Prop := ∀ e, step s e = s

variable {schedule : ℕ → ε} {m n : ℕ}

theorem orbit_succ :
    orbit step s schedule (n + 1) = step (orbit step s schedule n) (schedule n) := rfl

/-- A property every step keeps holds at every time. -/
theorem orbit_induction (hs : P s) (hstep : ∀ s e, P s → P (step s e)) :
    ∀ n, P (orbit step s schedule n)
  | 0 => hs
  | n + 1 => hstep _ _ (orbit_induction hs hstep n)

/-- A state that no event changes is never left. -/
theorem Fixed.orbit_eq (h : Fixed step (orbit step s schedule n)) (hnm : n ≤ m) :
    orbit step s schedule m = orbit step s schedule n := by
  induction m, hnm using Nat.le_induction with
  | base => rfl
  | succ m _ ih => rw [orbit_succ, ih, h]

/-- Under a fair schedule, a state that some event changes is left. -/
theorem Fair.exists_orbit_ne (hfair : Fair schedule)
    (h : ¬ Fixed step (orbit step s schedule n)) :
    ∃ k, orbit step s schedule (n + k) = orbit step s schedule n ∧
      orbit step s schedule (n + k + 1) ≠ orbit step s schedule (n + k) := by
  by_contra hnone
  push Not at hnone
  have hstays : ∀ k, orbit step s schedule (n + k) = orbit step s schedule n := by
    intro k
    induction k with
    | zero => rfl
    | succ k ih => exact (hnone k ih).trans ih
  refine h fun e => ?_
  -- the event `e` occurs while the state is still the same
  obtain ⟨m, hnm, rfl⟩ := hfair e n
  obtain ⟨k, rfl⟩ := Nat.exists_eq_add_of_le hnm
  have hstep := hnone k (hstays k)
  rw [orbit_succ, hstays k] at hstep
  exact hstep

/-- **The rule of fair schedules.** When, on the states of an invariant, every step that changes
the state reaches a fixed state or brings the measure down, a fixed state is reached under every
fair schedule. -/
theorem exists_fixed_of_fair {μ : σ → ℕ} (hJ : J s) (hJstep : ∀ s e, J s → J (step s e))
    (hμ : ∀ s e, J s → step s e = s ∨ Fixed step (step s e) ∨ μ (step s e) < μ s)
    (hfair : Fair schedule) : ∃ n, Fixed step (orbit step s schedule n) := by
  have key : ∀ b n, μ (orbit step s schedule n) ≤ b →
      ∃ n, Fixed step (orbit step s schedule n) := by
    intro b
    induction b using Nat.strong_induction_on with
    | _ b ih =>
      intro n hn
      by_cases hfixed : Fixed step (orbit step s schedule n)
      · exact ⟨n, hfixed⟩
      · obtain ⟨k, hsame, hne⟩ := hfair.exists_orbit_ne hfixed
        rw [orbit_succ] at hne
        rcases hμ _ (schedule (n + k)) (orbit_induction hJ hJstep (n + k)) with heq | hdone | hlt
        · exact absurd heq hne
        · exact ⟨n + k + 1, hdone⟩
        · rw [hsame] at hlt
          refine ih (μ (orbit step s schedule (n + k + 1))) ?_ (n + k + 1) le_rfl
          rw [orbit_succ, hsame]
          exact hlt.trans_le hn
  exact key _ 0 le_rfl

end StepRun
