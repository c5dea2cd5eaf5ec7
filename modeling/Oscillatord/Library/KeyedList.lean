import Mathlib.Data.List.Nodup
import Mathlib.Tactic.Common

/-!
# Lists of entries with keys

A list has room for a number of entries, and each entry a key of its own. An entry is added at the
end when there is room and its key is new (`Fits`). A run of steps adds an entry at each of them, or
fails (`addSteps`): it goes through exactly when every step has an entry and the entries fit
together (`addSteps_eq_true_iff`), and it keeps the list and its law even when it fails.

`modifyLast` changes the last entry that meets a condition.
-/

namespace KeyedList

variable {α κ : Type} {entries added : List α}

section Fits

variable (key : α → κ) (room : ℕ)

/-- The keys are different, and there are no more entries than there is room for. -/
structure Keyed (entries : List α) : Prop where
  nodup : (entries.map key).Nodup
  length_le : entries.length ≤ room

/-- The entries can be added one after the other. -/
structure Fits (entries added : List α) : Prop where
  nodup : (added.map key).Nodup
  fresh : ∀ entry ∈ added, key entry ∉ entries.map key
  room : added ≠ [] → entries.length + added.length ≤ room

variable {key room}

theorem fits_nil : Fits key room entries [] :=
  ⟨List.nodup_nil, fun _ hmem => absurd hmem List.not_mem_nil, fun h => absurd rfl h⟩

theorem fits_cons {entry : α} :
    Fits key room entries (entry :: added) ↔
      (entries.length < room ∧ key entry ∉ entries.map key) ∧
        Fits key room (entries ++ [entry]) added := by
  constructor
  · rintro ⟨hnodup, hfresh, hroom⟩
    obtain ⟨hentry, hadded⟩ := List.nodup_cons.mp hnodup
    obtain ⟨hnew, hothers⟩ := List.forall_mem_cons.mp hfresh
    have hlength := hroom (List.cons_ne_nil _ _)
    rw [List.length_cons] at hlength
    refine ⟨⟨by omega, hnew⟩, hadded, fun other hmem => ?_, fun _ => ?_⟩
    · rw [List.map_append, List.mem_append, not_or]
      refine ⟨hothers other hmem, fun hsame => hentry ?_⟩
      rw [List.map_singleton, List.mem_singleton] at hsame
      exact hsame ▸ List.mem_map_of_mem hmem
    · rw [List.length_append, List.length_singleton]
      omega
  · rintro ⟨⟨hlength, hnew⟩, hadded, hfresh, hroom⟩
    have hapart : ∀ other ∈ added, key other ∉ entries.map key ∧ key other ≠ key entry := by
      intro other hmem
      have hother := hfresh other hmem
      rwa [List.map_append, List.mem_append, not_or, List.map_singleton,
        List.mem_singleton] at hother
    refine ⟨List.nodup_cons.mpr ⟨fun hmem => ?_, hadded⟩,
      List.forall_mem_cons.mpr ⟨hnew, fun other hmem => (hapart other hmem).1⟩, fun _ => ?_⟩
    · obtain ⟨other, hother, hsame⟩ := List.mem_map.mp hmem
      exact (hapart other hother).2 hsame
    · rcases eq_or_ne added [] with rfl | hne
      · rw [List.length_singleton]
        omega
      · have hle := hroom hne
        rw [List.length_append, List.length_singleton] at hle
        rw [List.length_cons]
        omega

end Fits

section Steps

variable [DecidableEq κ] (key : α → κ) (room : ℕ)

/-- A run of steps: each adds its entry, or fails when it has none. -/
def addSteps : List (Option α) → List α → Bool × List α
  | [], entries => (true, entries)
  | none :: _, entries => (false, entries)
  | some entry :: steps, entries =>
    if entries.length < room ∧ key entry ∉ entries.map key then
      addSteps steps (entries ++ [entry])
    else (false, entries)

variable {key room}

/-- **A run goes through** when each step has an entry and the entries fit. -/
theorem addSteps_eq_true_iff {steps : List (Option α)} {result : List α} :
    addSteps key room steps entries = (true, result) ↔
      ∃ added, steps = added.map some ∧ Fits key room entries added ∧
        result = entries ++ added := by
  induction steps generalizing entries with
  | nil =>
    constructor
    · intro h
      obtain rfl := (Prod.mk.inj h).2
      exact ⟨[], rfl, fits_nil, (List.append_nil entries).symm⟩
    · rintro ⟨added, hsteps, -, rfl⟩
      obtain rfl := List.map_eq_nil_iff.mp hsteps.symm
      rw [addSteps, List.append_nil]
  | cons step steps ih =>
    rcases step with _ | entry
    · refine iff_of_false (fun h => Bool.false_ne_true (Prod.mk.inj h).1) ?_
      rintro ⟨added, hsteps, -⟩
      rcases added with _ | ⟨entry, added⟩ <;> cases hsteps
    · rw [addSteps]
      split_ifs with hfits
      · rw [ih]
        constructor
        · rintro ⟨added, rfl, hadded, rfl⟩
          exact ⟨entry :: added, rfl, fits_cons.mpr ⟨hfits, hadded⟩, by simp⟩
        · rintro ⟨added, hsteps, hadded, rfl⟩
          rcases added with _ | ⟨other, added⟩
          · cases hsteps
          obtain ⟨hhead, rfl⟩ := List.cons.inj hsteps
          obtain rfl := Option.some.inj hhead
          exact ⟨added, rfl, (fits_cons.mp hadded).2, by simp⟩
      · refine iff_of_false (fun h => Bool.false_ne_true (Prod.mk.inj h).1) ?_
        rintro ⟨added, hsteps, hadded, -⟩
        rcases added with _ | ⟨other, added⟩
        · cases hsteps
        obtain rfl := Option.some.inj (List.cons.inj hsteps).1
        exact hfits (fits_cons.mp hadded).1

/-- One run after another. -/
theorem addSteps_append (first second : List (Option α)) :
    addSteps key room (first ++ second) entries
      = if (addSteps key room first entries).1 then
          addSteps key room second (addSteps key room first entries).2
        else addSteps key room first entries := by
  induction first generalizing entries with
  | nil => rfl
  | cons step first ih =>
    rcases step with _ | entry
    · rfl
    · rw [List.cons_append, addSteps, addSteps]
      by_cases hfits : entries.length < room ∧ key entry ∉ entries.map key
      · simp only [if_pos hfits]
        exact ih
      · simp only [if_neg hfits]
        rfl

/-- The entries that are there stay. -/
theorem prefix_addSteps (steps : List (Option α)) :
    entries <+: (addSteps key room steps entries).2 := by
  induction steps generalizing entries with
  | nil => exact List.prefix_rfl
  | cons step steps ih =>
    rcases step with _ | entry
    · exact List.prefix_rfl
    · rw [addSteps]
      split_ifs
      · exact (List.prefix_append entries [entry]).trans ih
      · exact List.prefix_rfl

/-- **The law is kept** by every run. -/
theorem Keyed.addSteps (h : Keyed key room entries) (steps : List (Option α)) :
    Keyed key room (addSteps key room steps entries).2 := by
  induction steps generalizing entries with
  | nil => exact h
  | cons step steps ih =>
    rcases step with _ | entry
    · exact h
    · rw [KeyedList.addSteps]
      split_ifs with hfits
      · refine ih ⟨?_, ?_⟩
        · rw [List.map_append, List.map_singleton]
          refine List.Nodup.append h.nodup (List.nodup_singleton _) ?_
          exact List.disjoint_singleton.mpr hfits.2
        · rw [List.length_append, List.length_singleton]
          exact hfits.1
      · exact h

end Steps

/-! ### Steps that all have an entry -/

/-- The entries of steps, where each has one. -/
def entriesOf : List (Option α) → Option (List α)
  | [] => some []
  | none :: _ => none
  | some entry :: steps => (entriesOf steps).map (entry :: ·)

theorem entriesOf_eq_some_iff {steps : List (Option α)} :
    entriesOf steps = some entries ↔ steps = entries.map some := by
  induction steps generalizing entries with
  | nil => rw [entriesOf, Option.some.injEq, eq_comm, eq_comm (a := []), List.map_eq_nil_iff]
  | cons step steps ih =>
    rcases step with _ | entry
    · refine iff_of_false (fun h => by cases h) fun h => ?_
      rcases entries with _ | ⟨other, entries⟩ <;> cases h
    · rw [entriesOf, Option.map_eq_some_iff]
      constructor
      · rintro ⟨rest, hrest, rfl⟩
        rw [ih.mp hrest, List.map_cons]
      · intro h
        rcases entries with _ | ⟨other, entries⟩
        · cases h
        obtain ⟨hhead, hrest⟩ := List.cons.inj h
        obtain rfl := Option.some.inj hhead
        exact ⟨entries, ih.mpr hrest, rfl⟩

theorem entriesOf_append (first second : List (Option α)) :
    entriesOf (first ++ second)
      = (entriesOf first).bind fun entries =>
          (entriesOf second).bind fun others => some (entries ++ others) := by
  induction first with
  | nil => simp [entriesOf]
  | cons step first ih =>
    rcases step with _ | entry
    · rfl
    · rw [List.cons_append, entriesOf, ih, entriesOf]
      rcases entriesOf first with _ | entries
      · rfl
      · rcases entriesOf second with _ | others <;> rfl

theorem entriesOf_singleton (step : Option α) :
    entriesOf [step] = step.map fun entry => [entry] := by
  cases step <;> rfl

/-- The entries of steps that are computed one by one. -/
theorem entriesOf_map {β : Type} (f : β → Option α) (l : List β) :
    entriesOf (l.map f) = l.mapM f := by
  induction l with
  | nil => rfl
  | cons b l ih =>
    rw [List.map_cons, List.mapM_cons]
    rcases f b with _ | entry
    · rfl
    · rw [entriesOf, ih]
      rcases l.mapM f with _ | entries <;> rfl

/-! ### Changing an entry -/

/-- The last entry that meets the condition is changed; there is no result when none does. -/
def modifyLast (p : α → Bool) (f : α → α) : List α → Option (List α)
  | [] => none
  | entry :: entries =>
    match modifyLast p f entries with
    | some modified => some (entry :: modified)
    | none => if p entry then some (f entry :: entries) else none

theorem modifyLast_eq_some {p : α → Bool} {f : α → α} {modified : List α}
    (h : modifyLast p f entries = some modified) :
    ∃ before entry after, entries = before ++ entry :: after ∧ p entry = true ∧
      modified = before ++ f entry :: after := by
  induction entries generalizing modified with
  | nil => cases h
  | cons entry entries ih =>
    rw [modifyLast] at h
    rcases hlater : modifyLast p f entries with _ | later
    · simp only [hlater] at h
      split_ifs at h with hentry
      exact ⟨[], entry, entries, rfl, hentry, (Option.some.inj h).symm⟩
    · simp only [hlater] at h
      obtain ⟨before, found, after, rfl, hfound, rfl⟩ := ih hlater
      exact ⟨entry :: before, found, after, rfl, hfound, (Option.some.inj h).symm⟩

/-- Of different keys, the others are not the key of an entry. -/
theorem key_ne_of_nodup {key : α → κ} {before after : List α} {entry : α}
    (hnodup : ((before ++ entry :: after).map key).Nodup) :
    ∀ other ∈ before ++ after, key other ≠ key entry := by
  rw [List.map_append, List.map_cons, List.nodup_middle, List.nodup_cons, ← List.map_append]
    at hnodup
  exact fun other hmem hsame => hnodup.1 (hsame ▸ List.mem_map_of_mem hmem)

end KeyedList
