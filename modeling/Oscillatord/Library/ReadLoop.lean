import Mathlib.Data.List.Basic
import Mathlib.Tactic.Common

/-!
# Loops that read into a buffer until nothing more comes

A loop polls a descriptor and, as long as something is unread there, reads into what is left of its
buffer; it ends when the poll times out. A read takes at least one of the unread items where there
is space for one, and how many more is up to the device (`chunk`). Without space left a read takes
nothing, and what is unread stays unread.

So the loop takes in a prefix of what was sent, never more than its buffer holds, and it ends
exactly when everything fits (`exists_ended_iff`).
-/

namespace ReadLoop

variable {β : Type*}

/-- The loop between two polls: what the reads have taken, one after the other, and what is
unread. -/
structure State (β : Type*) where
  reads : List (List β)
  unread : List β

/-- What the buffer holds. -/
def State.stored (s : State β) : List β := s.reads.flatten

/-- The poll times out. -/
def State.Ended (s : State β) : Prop := s.unread = []

/-- A turn of the loop with a buffer of `capacity` items: nothing happens any more once the poll
has timed out. -/
def turn (capacity chunk : ℕ) (s : State β) : State β :=
  if s.unread = [] then s
  else
    let count := min (chunk + 1) (capacity - s.stored.length)
    { reads := s.reads ++ [s.unread.take count], unread := s.unread.drop count }

/-- The loop after `n` turns, with what was sent. -/
def turns (capacity : ℕ) (chunk : ℕ → ℕ) (sent : List β) : ℕ → State β
  | 0 => { reads := [], unread := sent }
  | n + 1 => turn capacity (chunk n) (turns capacity chunk sent n)

variable {capacity : ℕ} {chunk : ℕ → ℕ} {sent : List β} {s : State β}

theorem turn_of_ended (capacity chunk : ℕ) (h : s.Ended) : turn capacity chunk s = s := if_pos h

theorem stored_turn (capacity chunk : ℕ) (s : State β) :
    (turn capacity chunk s).stored ++ (turn capacity chunk s).unread = s.stored ++ s.unread := by
  rw [turn]
  split_ifs with hended
  · rfl
  · simp [State.stored, List.append_assoc]

theorem length_stored_turn_le (chunk : ℕ) (h : s.stored.length ≤ capacity) :
    (turn capacity chunk s).stored.length ≤ capacity := by
  rw [turn]
  split_ifs with hended
  · exact h
  · simp only [State.stored, List.flatten_append, List.length_append, List.flatten_singleton,
      List.length_take] at h ⊢
    omega

/-- What is taken in and what is unread make up what was sent. -/
theorem stored_append_unread (capacity : ℕ) (chunk : ℕ → ℕ) (sent : List β) (n : ℕ) :
    (turns capacity chunk sent n).stored ++ (turns capacity chunk sent n).unread = sent := by
  induction n with
  | zero => rfl
  | succ n ih => rw [turns, stored_turn, ih]

/-- The buffer is never overrun. -/
theorem length_stored_le (capacity : ℕ) (chunk : ℕ → ℕ) (sent : List β) (n : ℕ) :
    (turns capacity chunk sent n).stored.length ≤ capacity := by
  induction n with
  | zero => exact Nat.zero_le _
  | succ n ih => exact length_stored_turn_le (chunk n) ih

/-- While there is space, a turn leaves less unread. -/
theorem length_unread_turn_lt (chunk : ℕ) (hunread : ¬ s.Ended)
    (hspace : s.stored.length < capacity) :
    (turn capacity chunk s).unread.length < s.unread.length := by
  have hpos : 0 < s.unread.length := List.length_pos_of_ne_nil hunread
  simp only [turn, if_neg (show ¬ s.unread = [] from hunread), List.length_drop]
  omega

/-- With enough space, `n` turns leave `n` items less unread, or none. -/
theorem length_unread_turns_le (chunk : ℕ → ℕ) (hfits : sent.length ≤ capacity) (n : ℕ) :
    (turns capacity chunk sent n).unread.length ≤ sent.length - n := by
  induction n with
  | zero => exact Nat.le_refl _
  | succ n ih =>
    by_cases hended : (turns capacity chunk sent n).Ended
    · have hstays : turns capacity chunk sent (n + 1) = turns capacity chunk sent n := by
        rw [turns, turn_of_ended capacity (chunk n) hended]
      rw [hstays, hended]
      exact Nat.zero_le _
    · have hlength := congrArg List.length (stored_append_unread capacity chunk sent n)
      have hpos : 0 < (turns capacity chunk sent n).unread.length :=
        List.length_pos_of_ne_nil hended
      rw [List.length_append] at hlength
      have hlt := length_unread_turn_lt (chunk n) hended (show _ < capacity by omega)
      rw [turns]
      omega

/-- What fits is taken in within as many turns as there are items. -/
theorem ended_of_length_le (hfits : sent.length ≤ capacity) :
    (turns capacity chunk sent sent.length).Ended := by
  have hle := length_unread_turns_le chunk hfits sent.length
  exact List.length_eq_zero_iff.mp (by omega)

/-- **Termination.** The loop ends exactly when what was sent fits into the buffer, however the
device cuts it. -/
theorem exists_ended_iff :
    (∃ n, (turns capacity chunk sent n).Ended) ↔ sent.length ≤ capacity := by
  constructor
  · rintro ⟨n, hended⟩
    have hall := stored_append_unread capacity chunk sent n
    rw [hended, List.append_nil] at hall
    rw [← hall]
    exact length_stored_le capacity chunk sent n
  · intro hfits
    exact ⟨sent.length, ended_of_length_le hfits⟩

/-- Where it ends, it has taken in all that was sent. -/
theorem stored_of_ended {n : ℕ} (h : (turns capacity chunk sent n).Ended) :
    (turns capacity chunk sent n).stored = sent := by
  have hall := stored_append_unread capacity chunk sent n
  rwa [h, List.append_nil] at hall

end ReadLoop
