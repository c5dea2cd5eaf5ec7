import Mathlib.Data.List.Count
import Mathlib.Data.List.Nodup
import Mathlib.Data.Nat.Basic
import Mathlib.Logic.Equiv.Basic

/-!
# Custody of numbered resources

Resources are issued one after another and known by a number, such as a file descriptor, that may
be given to a later resource once the earlier one was returned. Several parties pass the numbers
among themselves: each holds one at most, and a resource is returned by the party that holds its
number. `Ledger` is the state of such a system and `Ledger.Sound` says that every number in use is
in the custody of exactly one holder. Issuing a resource to a party with empty hands, exchanging
what two parties hold, and returning what a party holds keep a ledger sound, so no resource is
returned twice, and when all hands are empty each was returned exactly once.
-/

namespace Custody

universe u v

variable {H : Type u} {N : Type v}

/-- Who holds which number, which resource a number in use stands for, how many resources were
issued, and those that were returned. -/
@[ext]
structure Ledger (H : Type u) (N : Type v) where
  holds : H → Option N
  denotes : N → Option ℕ
  issued : ℕ
  returned : List ℕ

namespace Ledger

/-- A ledger before anything is issued. -/
def empty : Ledger H N :=
  { holds := fun _ => none, denotes := fun _ => none, issued := 0, returned := [] }

/-- The numbers in use are those that are held, each by one party; they stand for different
resources; and the returned resources are the issued ones that no number stands for, once each. -/
structure Sound (l : Ledger H N) : Prop where
  exclusive : ∀ h h' n, l.holds h = some n → l.holds h' = some n → h = h'
  held : ∀ n, (l.denotes n).isSome = true ↔ ∃ h, l.holds h = some n
  unique : ∀ n n' k, l.denotes n = some k → l.denotes n' = some k → n = n'
  returned : ∀ k, k ∈ l.returned ↔ k < l.issued ∧ ∀ n, l.denotes n ≠ some k
  lt : ∀ n k, l.denotes n = some k → k < l.issued
  nodup : l.returned.Nodup

variable {l : Ledger H N} {h h' : H} {n : N} {k : ℕ}

theorem sound_empty : Sound (empty : Ledger H N) := by
  refine ⟨nofun, fun n => ?_, nofun, fun k => ?_, nofun, List.nodup_nil⟩
  · simp [empty]
  · simp [empty]

/-- No resource is returned twice. -/
theorem Sound.count_le_one (hl : l.Sound) (k : ℕ) : l.returned.count k ≤ 1 :=
  List.nodup_iff_count_le_one.mp hl.nodup k

/-- When all hands are empty, every resource was returned exactly once. -/
theorem Sound.count_eq_one (hl : l.Sound) (hempty : ∀ h, l.holds h = none) (hk : k < l.issued) :
    l.returned.count k = 1 := by
  refine List.count_eq_one_of_mem hl.nodup ((hl.returned k).mpr ⟨hk, fun n hn => ?_⟩)
  obtain ⟨h, hh⟩ := (hl.held n).mp (by rw [hn]; rfl)
  rw [hempty h] at hh
  cases hh

/-! ### The three operations -/

variable [DecidableEq H]

/-- Two parties exchange what they hold. -/
def exchange (l : Ledger H N) (h h' : H) : Ledger H N :=
  { l with holds := l.holds ∘ Equiv.swap h h' }

@[simp] theorem exchange_left : (l.exchange h h').holds h = l.holds h' :=
  congrArg l.holds (Equiv.swap_apply_left h h')

@[simp] theorem exchange_right : (l.exchange h h').holds h' = l.holds h :=
  congrArg l.holds (Equiv.swap_apply_right h h')

theorem Sound.exchange (hl : l.Sound) (h h' : H) : (l.exchange h h').Sound := by
  refine ⟨fun h₁ h₂ n h₁n h₂n => ?_, fun n => ?_, hl.unique, hl.returned, hl.lt, hl.nodup⟩
  · exact (Equiv.swap h h').injective (hl.exclusive _ _ n h₁n h₂n)
  · rw [Ledger.exchange, hl.held n]
    exact (Equiv.swap h h').surjective.exists

variable [DecidableEq N]

/-- The next resource is issued to `h`, under the number `n`. -/
def issue (l : Ledger H N) (h : H) (n : N) : Ledger H N :=
  { holds := Function.update l.holds h (some n)
    denotes := Function.update l.denotes n (some l.issued)
    issued := l.issued + 1
    returned := l.returned }

/-- The party `h` returns the resource under the number `n`. -/
def giveBack (l : Ledger H N) (h : H) (n : N) : Ledger H N :=
  { holds := Function.update l.holds h none
    denotes := Function.update l.denotes n none
    issued := l.issued
    returned := (l.denotes n).toList ++ l.returned }

theorem Sound.issue (hl : l.Sound) (hh : l.holds h = none) (hn : l.denotes n = none) :
    (l.issue h n).Sound := by
  have hfree : ∀ h', l.holds h' ≠ some n := fun h' heq => by
    have hsome := (hl.held n).mpr ⟨h', heq⟩
    rw [hn] at hsome
    cases hsome
  refine ⟨fun h₁ h₂ m h₁m h₂m => ?_, fun m => ?_, fun m m' k hm hm' => ?_, fun k => ?_,
    fun m k hm => ?_, hl.nodup⟩
  · simp only [Ledger.issue, Function.update_apply] at h₁m h₂m
    split_ifs at h₁m h₂m with h₁h h₂h h₂h
    · rw [h₁h, h₂h]
    · obtain rfl : n = m := Option.some.inj h₁m
      exact absurd h₂m (hfree h₂)
    · obtain rfl : n = m := Option.some.inj h₂m
      exact absurd h₁m (hfree h₁)
    · exact hl.exclusive h₁ h₂ m h₁m h₂m
  · by_cases hm : m = n
    · subst hm
      exact iff_of_true (by simp [Ledger.issue]) ⟨h, by simp [Ledger.issue]⟩
    · simp only [Ledger.issue, Function.update_of_ne hm, hl.held m]
      constructor
      · rintro ⟨h', hh'⟩
        have hne : h' ≠ h := by
          rintro rfl
          rw [hh] at hh'
          cases hh'
        exact ⟨h', by rw [Function.update_of_ne hne, hh']⟩
      · rintro ⟨h', hh'⟩
        rw [Function.update_apply] at hh'
        split_ifs at hh' with heq
        · exact absurd (Option.some.inj hh').symm hm
        · exact ⟨h', hh'⟩
  · simp only [Ledger.issue, Function.update_apply] at hm hm'
    split_ifs at hm hm' with hmn hmn' hmn'
    · rw [hmn, hmn']
    · obtain rfl : l.issued = k := Option.some.inj hm
      exact absurd (hl.lt m' _ hm') (lt_irrefl _)
    · obtain rfl : l.issued = k := Option.some.inj hm'
      exact absurd (hl.lt m _ hm) (lt_irrefl _)
    · exact hl.unique m m' k hm hm'
  · simp only [Ledger.issue, hl.returned k]
    constructor
    · rintro ⟨hlt, hnone⟩
      refine ⟨Nat.lt_succ_of_lt hlt, fun m hm => ?_⟩
      rw [Function.update_apply] at hm
      split_ifs at hm with hmn
      · exact absurd (Option.some.inj hm) (Nat.ne_of_gt hlt)
      · exact hnone m hm
    · rintro ⟨hlt, hnone⟩
      have hne : k ≠ l.issued := by
        rintro rfl
        exact hnone n (Function.update_self n _ _)
      refine ⟨by omega, fun m hm => hnone m ?_⟩
      have hmn : m ≠ n := by
        rintro rfl
        rw [hn] at hm
        cases hm
      rw [Function.update_of_ne hmn, hm]
  · simp only [Ledger.issue, Function.update_apply] at hm ⊢
    split_ifs at hm with hmn
    · obtain rfl : l.issued = k := Option.some.inj hm
      exact Nat.lt_succ_self _
    · exact Nat.lt_succ_of_lt (hl.lt m k hm)

theorem Sound.giveBack (hl : l.Sound) (hh : l.holds h = some n) : (l.giveBack h n).Sound := by
  obtain ⟨k, hk⟩ := Option.isSome_iff_exists.mp ((hl.held n).mpr ⟨h, hh⟩)
  have hdenotes : ∀ m j, Function.update l.denotes n none m = some j ↔
      m ≠ n ∧ l.denotes m = some j := fun m j => by
    rw [Function.update_apply]
    split_ifs with hmn
    · exact iff_of_false nofun fun h => h.1 hmn
    · exact ⟨fun h => ⟨hmn, h⟩, fun h => h.2⟩
  refine ⟨fun h₁ h₂ m h₁m h₂m => ?_, fun m => ?_, fun m m' j hm hm' => ?_, fun j => ?_,
    fun m j hm => hl.lt m j ((hdenotes m j).mp hm).2, ?_⟩
  · simp only [Ledger.giveBack, Function.update_apply] at h₁m h₂m
    split_ifs at h₁m h₂m
    exact hl.exclusive h₁ h₂ m h₁m h₂m
  · have hiff : (Function.update l.denotes n none m).isSome = true ↔
        m ≠ n ∧ (l.denotes m).isSome = true := by
      simp only [Option.isSome_iff_exists, hdenotes]
      exact ⟨fun ⟨j, hne, hj⟩ => ⟨hne, j, hj⟩, fun ⟨hne, j, hj⟩ => ⟨j, hne, hj⟩⟩
    simp only [Ledger.giveBack, hiff, hl.held m]
    constructor
    · rintro ⟨hmn, h', hh'⟩
      have hne : h' ≠ h := by
        rintro rfl
        exact hmn (Option.some.inj (hh'.symm.trans hh))
      exact ⟨h', by rw [Function.update_of_ne hne, hh']⟩
    · rintro ⟨h', hh'⟩
      rw [Function.update_apply] at hh'
      split_ifs at hh' with heq
      refine ⟨?_, h', hh'⟩
      rintro rfl
      exact heq (hl.exclusive h' h m hh' hh)
  · exact hl.unique m m' j ((hdenotes m j).mp hm).2 ((hdenotes m' j).mp hm').2
  · simp only [Ledger.giveBack, hk, Option.toList_some, List.singleton_append, List.mem_cons,
      hl.returned j, ne_eq, hdenotes, not_and]
    constructor
    · rintro (rfl | ⟨hlt, hnone⟩)
      · exact ⟨hl.lt n j hk, fun m hmn hm => hmn (hl.unique m n j hm hk)⟩
      · exact ⟨hlt, fun m _ => hnone m⟩
    · rintro ⟨hlt, hnone⟩
      by_cases hj : j = k
      · exact .inl hj
      · refine .inr ⟨hlt, fun m hm => ?_⟩
        by_cases hmn : m = n
        · subst hmn
          exact hj (Option.some.inj (hm.symm.trans hk))
        · exact hnone m hmn hm
  · simp only [Ledger.giveBack, hk, Option.toList_some, List.singleton_append]
    refine List.nodup_cons.mpr ⟨fun hmem => ?_, hl.nodup⟩
    exact ((hl.returned k).mp hmem).2 n hk

end Ledger

end Custody
