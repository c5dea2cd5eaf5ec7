import Mathlib.Data.List.Basic
import Oscillatord.Library.Runs

/-!
# Waiting on a condition variable without a predicate

A producer keeps a shared value and signals a condition variable at some of its steps, its
*publications*; a reader waits for the variable once and returns what it then finds. The wait may
also end without a signal, and between its end and the moment the reader has the mutex again the
producer may go on. `Cell` is the two of them with the publications made and the values returned.

Nothing ties the returned value to a publication but the schedule. When no wait ends without a
signal and the value stands still between the signal and the return (`Signalled`), every value
returned is a publication made since its call began (`CellInv.fresh`); when the producer changes the
value at its publications only (`Quiet`), a value that is not the initial one is a publication in
every schedule (`KnownValue.known`).
-/

namespace ConditionWait

open StepRun

universe u v w

variable {σ : Type u} {ε : Type v} {α : Type w}

/-- The reader: outside, in the wait, or past it and about to take the mutex. `since` counts the
publications made before its call began. -/
inductive Reader
  | idle
  | waiting (since : ℕ)
  | woken (since : ℕ)
  deriving Repr, DecidableEq

/-- A signal ends the wait. -/
def Reader.signal : Reader → Reader
  | .waiting since => .woken since
  | r => r

/-- A value returned: how many publications were made before the call began and before it returned.
The value delivers the publication made last, if there is one. -/
structure Delivery (α : Type w) where
  since : ℕ
  upTo : ℕ
  value : α
  deriving Repr, DecidableEq

/-- The shared state, the publications, oldest first, and the reader with what it has returned,
newest first. -/
structure Cell (σ : Type u) (α : Type w) where
  shared : σ
  published : List α
  reader : Reader
  deliveries : List (Delivery α)

/-- A cell without a publication or a call. -/
def Cell.start (shared : σ) : Cell σ α :=
  { shared, published := [], reader := .idle, deliveries := [] }

/-- The steps: of the producer, and of the reader, whose wait may end without a signal. -/
inductive CellEvent (ε : Type v)
  | produce (e : ε)
  | calls
  | wakes
  | returns
  deriving Repr, DecidableEq

variable (step : σ → ε → σ × Bool) (view : σ → α)

/-- One step. `step` tells whether it signals, and `view` what the reader returns. -/
def cellStep (c : Cell σ α) : CellEvent ε → Cell σ α
  | .produce e =>
    let next := step c.shared e
    if next.2 then
      { c with
        shared := next.1
        published := c.published ++ [view next.1]
        reader := c.reader.signal }
    else { c with shared := next.1 }
  | .calls =>
    match c.reader with
    | .idle => { c with reader := .waiting c.published.length }
    | _ => c
  | .wakes =>
    match c.reader with
    | .waiting since => { c with reader := .woken since }
    | _ => c
  | .returns =>
    match c.reader with
    | .woken since =>
      { c with
        reader := .idle
        deliveries := ⟨since, c.published.length, view c.shared⟩ :: c.deliveries }
    | _ => c

/-- The value returned is the publication made last, and that one was made since the call began. -/
structure Fresh (published : List α) (d : Delivery α) : Prop where
  since : d.since < d.upTo
  value : published[d.upTo - 1]? = some d.value

/-- No wait ends without a signal, and between the signal and the return the value stands still
unless it is published again. -/
def Signalled (c : Cell σ α) : CellEvent ε → Prop
  | .wakes => ∀ since, c.reader ≠ .waiting since
  | .produce e => ∀ since, c.reader = .woken since → (step c.shared e).2 = false →
    view (step c.shared e).1 = view c.shared
  | _ => True

/-- The producer changes the value at its publications only. -/
def Quiet : Prop := ∀ s e, (step s e).2 = false → view (step s e).1 = view s

variable {step view} {c : Cell σ α} {published : List α} {d : Delivery α}

/-! ### The order of the calls -/

/-- The publications the reader's call began after. -/
def Reader.since : Reader → Option ℕ
  | .idle => none
  | .waiting since => some since
  | .woken since => some since

/-- Calls follow one another: each begins after the publications the earlier ones have seen. -/
structure Ordered (c : Cell σ α) : Prop where
  calls : c.deliveries.Pairwise fun d d' => d'.upTo ≤ d.since
  made : ∀ d ∈ c.deliveries, d.upTo ≤ c.published.length
  reader : ∀ since, c.reader.since = some since → since ≤ c.published.length ∧
    ∀ d ∈ c.deliveries, d.upTo ≤ since

theorem ordered_start (shared : σ) : Ordered (Cell.start shared : Cell σ α) :=
  ⟨List.Pairwise.nil, nofun, nofun⟩

theorem since_signal (r : Reader) : r.signal.since = r.since := by
  cases r <;> rfl

theorem Ordered.next (h : Ordered c) (e : CellEvent ε) : Ordered (cellStep step view c e) := by
  cases e with
  | produce e =>
    simp only [cellStep]
    split
    · refine ⟨h.calls, fun d hd => ?_, fun since hsince => ?_⟩
      · have hmade := h.made d hd
        simp only [List.length_append, List.length_singleton]
        omega
      · rw [since_signal] at hsince
        obtain ⟨hle, hcalls⟩ := h.reader since hsince
        refine ⟨?_, hcalls⟩
        simp only [List.length_append, List.length_singleton]
        omega
    · exact ⟨h.calls, h.made, h.reader⟩
  | calls =>
    simp only [cellStep]
    split
    · refine ⟨h.calls, h.made, fun since hsince => ?_⟩
      obtain rfl : c.published.length = since := Option.some.inj hsince
      exact ⟨le_rfl, h.made⟩
    · exact h
  | wakes =>
    simp only [cellStep]
    split
    · rename_i since hreader
      refine ⟨h.calls, h.made, fun since' hsince => h.reader since' ?_⟩
      rw [hreader]
      exact hsince
    · exact h
  | returns =>
    simp only [cellStep]
    split
    · rename_i since hreader
      obtain ⟨-, hcalls⟩ := h.reader since (by rw [hreader]; rfl)
      refine ⟨List.pairwise_cons.mpr ⟨hcalls, h.calls⟩, fun d hd => ?_, nofun⟩
      rcases List.mem_cons.mp hd with rfl | hd
      · exact le_rfl
      · exact h.made d hd
    · exact h

/-- Two calls that both return after a publication of their own deliver different ones. -/
theorem Ordered.distinct (h : Ordered c) (hfresh : ∀ d ∈ c.deliveries, d.since < d.upTo) :
    c.deliveries.Pairwise fun d d' => d.upTo ≠ d'.upTo := by
  refine h.calls.imp_of_mem fun hd _ hle => ?_
  have hlt := hfresh _ hd
  omega

/-! ### Waits that end with a signal -/

theorem Fresh.append (h : Fresh published d) (hmade : d.upTo ≤ published.length) (a : α) :
    Fresh (published ++ [a]) d := by
  have hlt := h.since
  refine ⟨h.since, ?_⟩
  rw [List.getElem?_append_left (by omega)]
  exact h.value

/-- What the schedules keep in which the waits end with a signal: a reader that is past its wait
finds the value of a publication that was made since its call began. -/
structure CellInv (view : σ → α) (c : Cell σ α) : Prop where
  ordered : Ordered c
  fresh : ∀ d ∈ c.deliveries, Fresh c.published d
  woken : ∀ since, c.reader = .woken since →
    since < c.published.length ∧ c.published[c.published.length - 1]? = some (view c.shared)

theorem cellInv_start (shared : σ) : CellInv view (Cell.start shared) :=
  ⟨ordered_start shared, nofun, nofun⟩

theorem CellInv.next (h : CellInv view c) {e : CellEvent ε} (hsignalled : Signalled step view c e) :
    CellInv view (cellStep step view c e) := by
  refine ⟨h.ordered.next e, ?_, ?_⟩
  · cases e with
    | produce e =>
      simp only [cellStep]
      split
      · exact fun d hd => (h.fresh d hd).append (h.ordered.made d hd) _
      · exact h.fresh
    | calls =>
      simp only [cellStep]
      split <;> exact h.fresh
    | wakes =>
      simp only [cellStep]
      split <;> exact h.fresh
    | returns =>
      simp only [cellStep]
      split
      · rename_i since hreader
        intro d hd
        rcases List.mem_cons.mp hd with rfl | hd
        · obtain ⟨hlt, hvalue⟩ := h.woken since hreader
          exact ⟨hlt, hvalue⟩
        · exact h.fresh d hd
      · exact h.fresh
  · cases e with
    | produce e =>
      simp only [cellStep]
      split
      · -- the publication is new to whoever is past the wait
        intro since hwoken
        have hsince : c.reader.since = some since :=
          (since_signal c.reader).symm.trans (congrArg Reader.since hwoken)
        have hle := (h.ordered.reader since hsince).1
        refine ⟨?_, ?_⟩
        · simp only [List.length_append, List.length_singleton]
          omega
        · simp
      · rename_i hquiet
        intro since hwoken
        obtain ⟨hlt, hvalue⟩ := h.woken since hwoken
        have hview := hsignalled since hwoken (Bool.eq_false_iff.mpr hquiet)
        exact ⟨hlt, hvalue.trans (congrArg some hview.symm)⟩
    | calls =>
      simp only [cellStep]
      split
      · nofun
      · exact h.woken
    | wakes =>
      simp only [cellStep]
      split
      · rename_i since hreader
        exact absurd hreader (hsignalled since)
      · exact h.woken
    | returns =>
      simp only [cellStep]
      split
      · nofun
      · exact h.woken

/-! ### Values that change at publications only -/

/-- What every schedule keeps when the value changes at publications only: it is the initial one or
the one published last, and so is every value returned. -/
structure KnownValue (view : σ → α) (initial : α) (c : Cell σ α) : Prop where
  made : ∀ d ∈ c.deliveries, d.upTo ≤ c.published.length
  now : view c.shared = initial ∨ c.published[c.published.length - 1]? = some (view c.shared)
  known : ∀ d ∈ c.deliveries, d.value = initial ∨ c.published[d.upTo - 1]? = some d.value

theorem KnownValue.next {initial : α} (hquiet : Quiet step view) (h : KnownValue view initial c)
    (e : CellEvent ε) : KnownValue view initial (cellStep step view c e) := by
  cases e with
  | produce e =>
    simp only [cellStep]
    split
    · refine ⟨fun d hd => ?_, .inr (by simp), fun d hd => ?_⟩
      · have hmade := h.made d hd
        simp only [List.length_append, List.length_singleton]
        omega
      · refine (h.known d hd).imp_right fun hvalue => ?_
        have hlt := (List.getElem?_eq_some_iff.mp hvalue).1
        rw [List.getElem?_append_left hlt]
        exact hvalue
    · rename_i hsilent
      have hview := hquiet c.shared e (Bool.eq_false_iff.mpr hsilent)
      refine ⟨h.made, ?_, h.known⟩
      rw [hview]
      exact h.now
  | calls =>
    simp only [cellStep]
    split <;> exact ⟨h.made, h.now, h.known⟩
  | wakes =>
    simp only [cellStep]
    split <;> exact ⟨h.made, h.now, h.known⟩
  | returns =>
    simp only [cellStep]
    split
    · refine ⟨fun d hd => ?_, h.now, fun d hd => ?_⟩
      · rcases List.mem_cons.mp hd with rfl | hd
        · exact le_rfl
        · exact h.made d hd
      · rcases List.mem_cons.mp hd with rfl | hd
        · exact h.now
        · exact h.known d hd
    · exact h

end ConditionWait
