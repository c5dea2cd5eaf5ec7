import Mathlib.Logic.Function.Basic
import Mathlib.Tactic.Common

/-!
# Slots that are marked as used

A pool of slots, each marked as used or not, and holders with room for one slot each. A holder takes
a slot that is not marked, gives its slot back, or forgets it; what it held before is overwritten
when it takes another one. `Pool.Exclusive` says that a slot is held by one holder at most and that
what is held is marked; every operation keeps it. `Pool.Kept` says that no slot is lost, that is,
marked with nobody to give it back: an operation keeps that exactly when it overwrites nothing
(`kept_take_iff`, `kept_forget_iff`), and a slot once lost stays so.
-/

namespace SlotPool

universe u v

variable {H : Type u} {N : Type v}

/-- What the holders hold, and the marks. -/
structure Pool (H : Type u) (N : Type v) where
  holds : H → Option N
  inUse : N → Bool

namespace Pool

/-- A slot has one holder at most, and is marked if it has one. -/
structure Exclusive (p : Pool H N) : Prop where
  unique : ∀ h h' n, p.holds h = some n → p.holds h' = some n → h = h'
  inUse : ∀ h n, p.holds h = some n → p.inUse n = true

/-- Every slot that is marked has a holder. -/
def Kept (p : Pool H N) : Prop := ∀ n, p.inUse n = true → ∃ h, p.holds h = some n

/-- A pool nobody has come to. -/
def empty : Pool H N := ⟨fun _ => none, fun _ => false⟩

theorem kept_empty : (empty : Pool H N).Kept := nofun

section Operations

variable [DecidableEq H]

/-- A holder forgets its slot. -/
def forget (p : Pool H N) (h : H) : Pool H N where
  holds := Function.update p.holds h none
  inUse := p.inUse

@[simp] theorem holds_forget (p : Pool H N) (h : H) :
    (p.forget h).holds = Function.update p.holds h none := rfl

variable {p : Pool H N} {h : H} {o : Option N} {n : N}

theorem exclusive_forget (hp : p.Exclusive) (h : H) : (p.forget h).Exclusive := by
  have hholds : ∀ h' n, (p.forget h).holds h' = some n → p.holds h' = some n := by
    intro h' n hn
    by_cases hh : h' = h
    · subst hh
      simp at hn
    · rwa [holds_forget, Function.update_of_ne hh] at hn
  exact
    { unique := fun h₁ h₂ n h₁n h₂n => hp.unique h₁ h₂ n (hholds h₁ n h₁n) (hholds h₂ n h₂n)
      inUse := fun h' n hn => hp.inUse h' n (hholds h' n hn) }

variable [DecidableEq N]

/-- A holder takes a slot, or is left with none. -/
def take (p : Pool H N) (h : H) (o : Option N) : Pool H N where
  holds := Function.update p.holds h o
  inUse := fun n => if o = some n then true else p.inUse n

/-- A holder gives its slot back. -/
def give (p : Pool H N) (h : H) : Pool H N where
  holds := Function.update p.holds h none
  inUse := fun n => if p.holds h = some n then false else p.inUse n

/-- The slot is one that is not marked. -/
def Fresh (p : Pool H N) (o : Option N) : Prop := ∀ n, o = some n → p.inUse n = false

@[simp] theorem holds_take (p : Pool H N) (h : H) (o : Option N) :
    (p.take h o).holds = Function.update p.holds h o := rfl

@[simp] theorem inUse_take (p : Pool H N) (h : H) (o : Option N) (n : N) :
    (p.take h o).inUse n = if o = some n then true else p.inUse n := rfl

@[simp] theorem holds_give (p : Pool H N) (h : H) :
    (p.give h).holds = Function.update p.holds h none := rfl

@[simp] theorem inUse_give (p : Pool H N) (h : H) (n : N) :
    (p.give h).inUse n = if p.holds h = some n then false else p.inUse n := rfl

theorem exclusive_take (hp : p.Exclusive) (hfresh : p.Fresh o) (h : H) :
    (p.take h o).Exclusive := by
  have hholds : ∀ h' n, (p.take h o).holds h' = some n →
      h' = h ∧ o = some n ∨ h' ≠ h ∧ p.holds h' = some n := by
    intro h' n hn
    by_cases hh : h' = h
    · subst hh
      exact .inl ⟨rfl, by simpa using hn⟩
    · exact .inr ⟨hh, by rwa [holds_take, Function.update_of_ne hh] at hn⟩
  refine { unique := fun h₁ h₂ n h₁n h₂n => ?_, inUse := fun h' n hn => ?_ }
  · rcases hholds h₁ n h₁n with ⟨rfl, ho⟩ | ⟨-, hn₁⟩ <;>
      rcases hholds h₂ n h₂n with ⟨rfl, ho'⟩ | ⟨-, hn₂⟩
    · rfl
    · have hused := hp.inUse h₂ n hn₂
      rw [hfresh n ho] at hused
      cases hused
    · have hused := hp.inUse h₁ n hn₁
      rw [hfresh n ho'] at hused
      cases hused
    · exact hp.unique h₁ h₂ n hn₁ hn₂
  · rcases hholds h' n hn with ⟨-, ho⟩ | ⟨-, hn'⟩
    · exact if_pos ho
    · simp only [inUse_take]
      split_ifs
      · rfl
      · exact hp.inUse h' n hn'

theorem exclusive_give (hp : p.Exclusive) (h : H) : (p.give h).Exclusive := by
  have hforgot := exclusive_forget hp h
  refine { unique := hforgot.unique, inUse := fun h' n hn => ?_ }
  have hused := hforgot.inUse h' n hn
  by_cases hh : h' = h
  · subst hh
    simp at hn
  · simp only [inUse_give]
    rw [if_neg fun hholds => hh ?_]
    · exact hused
    · rw [holds_give, Function.update_of_ne hh] at hn
      exact hp.unique h' h n hn hholds

/-- **Taking a slot loses none** unless another one is overwritten. -/
theorem kept_take_iff (hp : p.Exclusive) (hfresh : p.Fresh o) (h : H) :
    (p.take h o).Kept ↔ p.Kept ∧ p.holds h = none := by
  constructor
  · intro hkept
    have hempty : p.holds h = none := by
      by_contra hsome
      obtain ⟨n, hn⟩ := Option.ne_none_iff_exists'.mp hsome
      have hused := hp.inUse h n hn
      have hno : o ≠ some n := fun ho => by
        rw [hfresh n ho] at hused
        cases hused
      obtain ⟨h', hh'⟩ := hkept n (by rwa [inUse_take, if_neg hno])
      by_cases hh : h' = h
      · subst hh
        exact hno (by simpa using hh')
      · rw [holds_take, Function.update_of_ne hh] at hh'
        exact hh (hp.unique h' h n hh' hn)
    refine ⟨fun n hused => ?_, hempty⟩
    have hno : o ≠ some n := fun ho => by
      rw [hfresh n ho] at hused
      cases hused
    obtain ⟨h', hh'⟩ := hkept n (by rwa [inUse_take, if_neg hno])
    by_cases hh : h' = h
    · subst hh
      exact absurd (by simpa using hh') hno
    · exact ⟨h', by rwa [holds_take, Function.update_of_ne hh] at hh'⟩
  · rintro ⟨hkept, hempty⟩ n hused
    by_cases ho : o = some n
    · exact ⟨h, by rw [holds_take, Function.update_self, ho]⟩
    · rw [inUse_take, if_neg ho] at hused
      obtain ⟨h', hh'⟩ := hkept n hused
      have hh : h' ≠ h := fun heq => by
        rw [heq, hempty] at hh'
        cases hh'
      exact ⟨h', by rw [holds_take, Function.update_of_ne hh, hh']⟩

/-- Forgetting a slot loses it. -/
theorem kept_forget_iff (hp : p.Exclusive) (h : H) :
    (p.forget h).Kept ↔ p.Kept ∧ p.holds h = none := by
  have htake : p.forget h = p.take h none := by simp [forget, take]
  rw [htake]
  exact kept_take_iff hp (fun n hn => by cases hn) h

/-- Giving a slot back loses none. -/
theorem kept_give_iff (h : H) : (p.give h).Kept ↔ p.Kept := by
  constructor
  · intro hkept n hused
    by_cases hn : p.holds h = some n
    · exact ⟨h, hn⟩
    · obtain ⟨h', hh'⟩ := hkept n (by rwa [inUse_give, if_neg hn])
      by_cases hh : h' = h
      · subst hh
        simp at hh'
      · exact ⟨h', by rwa [holds_give, Function.update_of_ne hh] at hh'⟩
  · intro hkept n hused
    simp only [inUse_give] at hused
    split_ifs at hused with hn
    obtain ⟨h', hh'⟩ := hkept n hused
    have hh : h' ≠ h := fun heq => hn (heq ▸ hh')
    exact ⟨h', by rw [holds_give, Function.update_of_ne hh, hh']⟩

end Operations

end Pool

end SlotPool
