import Mathlib.Logic.Function.Iterate
import Oscillatord.Library.Envz

/-!
# Pointers into a vector

A vector lies in memory entry after entry, each with its terminator (`memory`), and what is looked
up in it is a pointer (`offset`). Giving a key a value shifts what comes after the entry that is
removed, so that a pointer kept from before is too far by what was removed before its entry: after
any number of values for one key, by the first entries of that key (`offset_iterate_add`).
-/

namespace Envz

universe u

variable {α : Type u}

/-- The memory of a vector. -/
def memory (zero : α) (entries : List (List α)) : List α := entries.flatMap (· ++ [zero])

section Memory

variable {zero : α} {entry : List α} {entries : List (List α)}

@[simp] theorem memory_nil : memory zero ([] : List (List α)) = [] := rfl

@[simp] theorem memory_cons :
    memory zero (entry :: entries) = entry ++ zero :: memory zero entries := by
  simp [memory]

theorem memory_append (first second : List (List α)) :
    memory zero (first ++ second) = memory zero first ++ memory zero second :=
  List.flatMap_append

theorem memory_eq_nil_iff : memory zero entries = [] ↔ entries = [] := by
  cases entries <;> simp

end Memory

variable [DecidableEq α]

/-- Where the value of a key begins in the memory. -/
def offset (sep : α) (key : List α) : List (List α) → Option ℕ
  | [] => none
  | entry :: entries =>
    if matchesKey sep key entry then (value sep entry).map fun _ => (name sep entry).length + 1
    else (offset sep key entries).map (entry.length + 1 + ·)

/-- The entries before that of a key. -/
def before (sep : α) (key : List α) (entries : List (List α)) : List (List α) :=
  entries.takeWhile fun entry => !matchesKey sep key entry

variable {sep zero : α} {key other val entry : List α} {entries : List (List α)}

theorem before_cons : before sep key (entry :: entries)
    = if matchesKey sep key entry then [] else entry :: before sep key entries := by
  rw [before, List.takeWhile_cons]
  cases matchesKey sep key entry <;> rfl

/-- An entry with a value is its name, the separator and the value. -/
theorem eq_of_value {val : List α} (h : value sep entry = some val) :
    entry = name sep entry ++ sep :: val := by
  have hsplit := List.takeWhile_append_dropWhile (p := fun a => decide (a ≠ sep)) (l := entry)
  rw [value] at h
  rcases hrest : entry.dropWhile fun a => decide (a ≠ sep) with _ | ⟨a, rest⟩
  · rw [hrest] at h
    cases h
  · have hhead := List.head?_dropWhile_not (fun a => decide (a ≠ sep)) entry
    rw [hrest] at h hsplit hhead
    obtain rfl : rest = val := Option.some.inj h
    obtain rfl : a = sep := by simpa using hhead
    exact hsplit.symm

/-- What is looked up is what the pointer points to. -/
theorem get_eq_offset (hzero : ∀ entry ∈ entries, zero ∉ entry) (rest : List α) :
    get sep entries key = (offset sep key entries).map fun p =>
      ((memory zero entries ++ rest).drop p).takeWhile fun a => decide (a ≠ zero) := by
  induction entries with
  | nil => rfl
  | cons entry entries ih =>
    rw [List.forall_mem_cons] at hzero
    rw [offset, memory_cons]
    split_ifs with hkey
    · rw [get, List.find?_cons_of_pos hkey, Option.bind_some]
      rcases hval : value sep entry with _ | val
      · rfl
      · have hentry := eq_of_value hval
        have hval : zero ∉ val := fun hmem => hzero.1 (by rw [hentry]; simp [hmem])
        simp only [Option.map_some, Option.some.injEq]
        have hmemory : entry ++ zero :: memory zero entries ++ rest
            = name sep entry ++ [sep] ++ (val ++ zero :: (memory zero entries ++ rest)) := by
          conv_lhs => rw [hentry]
          simp
        rw [hmemory, List.drop_left' (by simp), List.takeWhile_append_of_pos]
        · simp
        · intro a ha
          exact decide_eq_true fun h => hval (h ▸ ha)
    · rw [get, List.find?_cons_of_neg hkey, ← get, ih hzero.2, Option.map_map]
      refine congrArg₂ Option.map (funext fun p => ?_) rfl
      have hmemory : entry ++ zero :: memory zero entries ++ rest
          = entry ++ [zero] ++ (memory zero entries ++ rest) := by simp
      have hlength : entry.length + 1 + p = (entry ++ [zero]).length + p := by simp
      rw [Function.comp_apply, hmemory, hlength, ← List.drop_drop, List.drop_left]

/-- The entry of another name is removed from those before, or comes after. -/
theorem before_remove (hne : name sep key ≠ name sep other) :
    before sep key (remove sep entries other) = remove sep (before sep key entries) other := by
  induction entries with
  | nil => rfl
  | cons entry entries ih =>
    by_cases hother : matchesKey sep other entry = true
    · have hkey : matchesKey sep key entry = false := by
        rw [← Bool.not_eq_true, matchesKey_iff, matchesKey_iff.mp hother]
        exact hne.symm
      simp [remove, before_cons, hother, hkey]
    · rw [remove] at ih ⊢
      by_cases hkey : matchesKey sep key entry = true
      · simp [remove, before_cons, hother, hkey]
      · rw [List.eraseP_cons_of_neg hother, before_cons, before_cons, if_neg hkey, if_neg hkey, ih,
          remove, remove, List.eraseP_cons_of_neg hother]

/-- A pointer after another name was removed. -/
theorem offset_remove (hne : name sep key ≠ name sep other) {p : ℕ}
    (hp : offset sep key entries = some p) :
    ∃ q, offset sep key (remove sep entries other) = some q ∧ p = q + (memory zero
      (((before sep key entries).filter (matchesKey sep other)).take 1)).length := by
  induction entries generalizing p with
  | nil => cases hp
  | cons entry entries ih =>
    by_cases hkey : matchesKey sep key entry = true
    · have hother : ¬ matchesKey sep other entry = true := by
        rw [matchesKey_iff] at hkey ⊢
        rw [hkey]
        exact hne
      refine ⟨p, ?_, by simp [before_cons, hkey]⟩
      rw [remove, List.eraseP_cons_of_neg hother]
      rw [offset, if_pos hkey] at hp ⊢
      exact hp
    · rw [offset, if_neg hkey] at hp
      obtain ⟨p, hrest, rfl⟩ := Option.map_eq_some_iff.mp hp
      by_cases hother : matchesKey sep other entry = true
      · refine ⟨p, ?_, ?_⟩
        · rw [remove, List.eraseP_cons_of_pos hother]
          exact hrest
        · simp [before_cons, hkey, hother, add_comm]
      · obtain ⟨q, hq, rfl⟩ := ih hrest
        refine ⟨entry.length + 1 + q, ?_, ?_⟩
        · rw [remove, List.eraseP_cons_of_neg hother, ← remove, offset, if_neg hkey, hq]
          rfl
        · rw [before_cons, if_neg hkey, List.filter_cons_of_neg hother, ← add_assoc]

/-- What comes behind the entry of a key does not count for it. -/
theorem offset_append_of_isSome {p : ℕ} (hp : offset sep key entries = some p)
    (more : List (List α)) : offset sep key (entries ++ more) = some p ∧
      before sep key (entries ++ more) = before sep key entries := by
  induction entries generalizing p with
  | nil => cases hp
  | cons entry entries ih =>
    rw [offset] at hp
    rw [List.cons_append, offset]
    split_ifs at hp ⊢ with hkey
    · exact ⟨hp, by simp [before_cons, hkey]⟩
    · obtain ⟨p, hrest, rfl⟩ := Option.map_eq_some_iff.mp hp
      obtain ⟨hoffset, hbefore⟩ := ih hrest
      exact ⟨by rw [hoffset]; rfl, by simp [before_cons, hkey, hbefore]⟩

theorem filter_remove (entries : List (List α)) :
    (remove sep entries key).filter (matchesKey sep key)
      = (entries.filter (matchesKey sep key)).drop 1 := by
  induction entries with
  | nil => rfl
  | cons entry entries ih =>
    by_cases hkey : matchesKey sep key entry = true
    · simp [remove, hkey]
    · rw [remove] at ih ⊢
      simp [hkey, ih]

/-- **A pointer that was kept.** After `n` values for another name, the value of the key lies before
the pointer by the first `n` entries of this name in front of it. -/
theorem offset_iterate_add (hne : name sep key ≠ name sep other) {p : ℕ}
    (hp : offset sep key entries = some p) (n : ℕ) :
    ∃ q, offset sep key ((fun entries => add sep entries other val)^[n] entries) = some q ∧
      p = q + (memory zero
        (((before sep key entries).filter (matchesKey sep other)).take n)).length := by
  induction n generalizing entries p with
  | zero => exact ⟨p, hp, by simp⟩
  | succ n ih =>
    obtain ⟨q, hq, rfl⟩ : ∃ q, offset sep key (remove sep entries other) = some q ∧ p = q +
        (memory zero (((before sep key entries).filter (matchesKey sep other)).take 1)).length :=
      offset_remove hne hp
    obtain ⟨hoffset, hbefore⟩ := offset_append_of_isSome hq [other ++ sep :: val]
    obtain ⟨r, hr, rfl⟩ := ih hoffset
    refine ⟨r, hr, ?_⟩
    rw [hbefore, before_remove hne, filter_remove, Nat.add_comm n 1, List.take_add, memory_append,
      List.length_append]
    omega

end Envz
