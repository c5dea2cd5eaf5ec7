import Mathlib.Logic.Function.Basic
import Oscillatord.Library.Runs

/-!
# Handles that are acquired, used and released

A program acquires handles from a system that gives them out again once they were released: the
descriptors of a kernel, the slots of a table. A handle is a plain value, so that nothing keeps the
program from using one it has released. `Op` is one operation, `Status` what the program knows
of a handle from its own operations, and a program is judged by the list of the operations it makes:

* `Fits`: the system gives out no handle that is held;
* `Proper`: no handle is used or released after its release and before it is acquired again.

Both are judgements of the operations one by one (`EachStep Op.apply`). `Clear` says that an owner
holds nothing.
-/

namespace Handles

open StepRun

universe u v

variable {η : Type u} {κ : Type v}

/-- One operation on a handle. -/
inductive Op (η : Type u)
  | acquire (h : η)
  | use (h : η)
  | release (h : η)
  deriving Repr, DecidableEq

/-- The handle an operation is on. -/
def Op.handle : Op η → η
  | .acquire h => h
  | .use h => h
  | .release h => h

/-- What the operations so far make of a handle. -/
inductive Status (κ : Type v)
  | unknown
  | held (owner : κ)
  | released
  deriving Repr, DecidableEq

/-- An operation of one owner. -/
def Op.apply [DecidableEq η] (owner : κ) (t : η → Status κ) : Op η → η → Status κ
  | .acquire h => Function.update t h (.held owner)
  | .use _ => t
  | .release h => Function.update t h .released

/-- The system may answer the operation so. -/
def Op.Fits (t : η → Status κ) : Op η → Prop
  | .acquire h => ∀ owner, t h ≠ .held owner
  | _ => True

/-- The operation is on no handle that is released. -/
def Op.Proper (t : η → Status κ) : Op η → Prop
  | .acquire _ => True
  | .use h => t h ≠ .released
  | .release h => t h ≠ .released

/-- The owner holds nothing. -/
def Clear (owner : κ) (t : η → Status κ) : Prop := ∀ h, t h ≠ .held owner

instance (t : η → Status κ) (op : Op η) : Decidable (op.Fits t) :=
  match op with
  | .acquire h =>
    match ht : t h with
    | .held owner => isFalse fun hfits => hfits owner ht
    | .unknown => isTrue fun owner hheld => by rw [ht] at hheld; cases hheld
    | .released => isTrue fun owner hheld => by rw [ht] at hheld; cases hheld
  | .use _ => isTrue trivial
  | .release _ => isTrue trivial

variable {t : η → Status κ} {h : η}

@[simp] theorem proper_release : (Op.release h).Proper t ↔ t h ≠ .released := Iff.rfl

/-- Every operation uses this handle. -/
def Uses (h : η) (ops : List (Op η)) : Prop := ∀ op ∈ ops, op = .use h

variable {op : Op η} {ops ops' : List (Op η)}

@[simp] theorem uses_nil : Uses h [] := nofun

@[simp] theorem uses_cons : Uses h (op :: ops) ↔ op = .use h ∧ Uses h ops := List.forall_mem_cons

@[simp] theorem uses_append : Uses h (ops ++ ops') ↔ Uses h ops ∧ Uses h ops' :=
  List.forall_mem_append

theorem uses_flatMap {α : Type*} {as : List α} {f : α → List (Op η)} (hf : ∀ a, Uses h (f a)) :
    Uses h (as.flatMap f) := by
  intro op hop
  obtain ⟨a, -, ha⟩ := List.mem_flatMap.mp hop
  exact hf a op ha

variable [DecidableEq η] {owner : κ}

@[simp] theorem apply_acquire :
    (Op.acquire h).apply owner t = Function.update t h (.held owner) := rfl

@[simp] theorem apply_release : (Op.release h).apply owner t = Function.update t h .released := rfl

/-- Uses of one handle change nothing. -/
theorem after_uses (huses : Uses h ops) : after (Op.apply owner) t ops = t := by
  induction ops with
  | nil => rfl
  | cons op ops ih =>
    obtain ⟨rfl, hrest⟩ := uses_cons.mp huses
    exact ih hrest

/-- Uses of one handle are proper when it is not released. -/
theorem proper_uses (huses : Uses h ops) (hopen : t h ≠ .released) :
    EachStep (Op.apply owner) Op.Proper t ops := by
  induction ops with
  | nil => exact eachStep_nil
  | cons op ops ih =>
    obtain ⟨rfl, hrest⟩ := uses_cons.mp huses
    exact eachStep_cons.mpr ⟨hopen, ih hrest⟩

/-! ### Sessions -/

/-- The owner holds at most this handle. -/
def HoldsOnly (owner : κ) (t : η → Status κ) (h : η) : Prop := ∀ h', t h' = .held owner → h' = h

theorem holdsOnly_acquire (hclear : Clear owner t) :
    HoldsOnly owner (Function.update t h (.held owner)) h := by
  intro h' hheld
  by_contra hne
  rw [Function.update_of_ne hne] at hheld
  exact hclear h' hheld

theorem clear_release (hheld : HoldsOnly owner t h) :
    Clear owner (Function.update t h .released) := by
  intro h' hh'
  by_cases heq : h' = h
  · subst heq
    rw [Function.update_self] at hh'
    cases hh'
  · rw [Function.update_of_ne heq] at hh'
    exact heq (hheld h' hh')

/-- What another owner holds it held before. -/
theorem held_of_after {other : κ} (hne : other ≠ owner)
    (hheld : after (Op.apply owner) t ops h = .held other) : t h = .held other := by
  induction ops generalizing t with
  | nil => exact hheld
  | cons op ops ih =>
    have hop := ih hheld
    cases op with
    | acquire h' =>
      rw [apply_acquire, Function.update_apply] at hop
      split at hop
      · exact absurd (Status.held.inj hop).symm hne
      · exact hop
    | use h' => exact hop
    | release h' =>
      rw [apply_release, Function.update_apply] at hop
      split at hop
      · cases hop
      · exact hop

/-- An acquired handle is held while it is used. -/
theorem proper_acquire_uses {uses : List (Op η)} (huses : Uses h uses) :
    EachStep (Op.apply owner) Op.Proper t (.acquire h :: (uses ++ ops)) ↔
      EachStep (Op.apply owner) Op.Proper (Function.update t h (.held owner)) ops := by
  have hheld : Function.update t h (.held owner) h ≠ .released := by
    rw [Function.update_self]
    nofun
  rw [eachStep_cons, eachStep_append, apply_acquire, after_uses huses]
  exact ⟨fun hproper => hproper.2.2, fun hproper => ⟨trivial, proper_uses huses hheld, hproper⟩⟩

theorem after_acquire_uses {uses : List (Op η)} (huses : Uses h uses) :
    after (Op.apply owner) t (.acquire h :: (uses ++ ops)) =
      after (Op.apply owner) (Function.update t h (.held owner)) ops := by
  rw [after_cons, after_append, apply_acquire, after_uses huses]

/-- A handle that is acquired, used and released is left closed. -/
theorem clear_acquire_release {uses : List (Op η)} (huses : Uses h uses)
    (hclear : Clear owner t) :
    EachStep (Op.apply owner) Op.Proper t (.acquire h :: (uses ++ [.release h])) ∧
      Clear owner (after (Op.apply owner) t (.acquire h :: (uses ++ [.release h]))) := by
  rw [proper_acquire_uses huses, after_acquire_uses huses]
  refine ⟨eachStep_cons.mpr ⟨?_, eachStep_nil⟩, clear_release (holdsOnly_acquire hclear)⟩
  rw [proper_release, Function.update_self]
  nofun

/-- It is not released twice. -/
theorem not_proper_release_release {uses : List (Op η)} (huses : Uses h uses) :
    ¬ EachStep (Op.apply owner) Op.Proper t
      (.acquire h :: (uses ++ [.release h, .release h])) := by
  rw [proper_acquire_uses huses, eachStep_cons, eachStep_cons, apply_release]
  rintro ⟨-, hagain, -⟩
  exact hagain (Function.update_self _ _ _)

/-- A session takes an owner that holds at most the first handle to one that holds at most the
second. It starts on the first handle, and is proper when that one is not released. -/
structure Session (owner : κ) (ops : List (Op η)) (h h' : η) : Prop where
  starts : ops = [] ∨ ∃ rest, ops = .use h :: rest
  holds : ∀ t, HoldsOnly owner t h → HoldsOnly owner (after (Op.apply owner) t ops) h'
  proper : ∀ t : η → Status κ, t h ≠ .released → EachStep (Op.apply owner) Op.Proper t ops

theorem session_uses (huses : Uses h ops) : Session owner ops h h where
  starts := by
    cases ops with
    | nil => exact .inl rfl
    | cons op ops => exact .inr ⟨ops, by rw [huses op List.mem_cons_self]⟩
  holds := fun t hheld => by rwa [after_uses huses]
  proper := fun _ => proper_uses huses

/-- One handle is released and another one acquired and used. -/
theorem holdsOnly_replace {h' : η} (huses : Uses h' ops) (hheld : HoldsOnly owner t h) :
    HoldsOnly owner (after (Op.apply owner) t (.release h :: .acquire h' :: ops)) h' := by
  rw [after_cons, after_cons, after_uses huses, apply_release, apply_acquire]
  exact holdsOnly_acquire (clear_release hheld)

/-- A session goes on after uses of its first handle. -/
theorem Session.prepend {uses : List (Op η)} {h' : η} (hne : uses ≠ [])
    (huses : Uses h uses)
    (hholds : ∀ t, HoldsOnly owner t h → HoldsOnly owner (after (Op.apply owner) t ops) h')
    (hproper : ∀ t : η → Status κ, t h ≠ .released → EachStep (Op.apply owner) Op.Proper t ops) :
    Session owner (uses ++ ops) h h' where
  starts := by
    obtain ⟨op, uses, rfl⟩ := List.exists_cons_of_ne_nil hne
    exact .inr ⟨uses ++ ops, by rw [huses op List.mem_cons_self, List.cons_append]⟩
  holds := fun t hheld => by
    rw [after_append, after_uses huses]
    exact hholds t hheld
  proper := fun t hopen => by
    rw [eachStep_append, after_uses huses]
    exact ⟨proper_uses huses hopen, hproper t hopen⟩

theorem Session.after_uses {uses : List (Op η)} {h' : η} (huses : Uses h uses)
    (hs : Session owner ops h h') : Session owner (uses ++ ops) h h' := by
  by_cases hne : uses = []
  · rw [hne]
    exact hs
  · exact Session.prepend hne huses hs.holds hs.proper

/-- A session with an operation is proper exactly when its first handle is not released. -/
theorem Session.proper_iff {h' : η} (hs : Session owner ops h h') :
    EachStep (Op.apply owner) Op.Proper t ops ↔ (ops ≠ [] → t h ≠ .released) := by
  constructor
  · intro hproper hne
    obtain ⟨rest, rfl⟩ := hs.starts.resolve_left hne
    exact (eachStep_cons.mp hproper).1
  · intro hopen
    by_cases hne : ops = []
    · rw [hne]
      exact eachStep_nil
    · exact hs.proper t (hopen hne)

end Handles
