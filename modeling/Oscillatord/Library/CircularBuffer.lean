import Mathlib.Data.List.Basic
import Mathlib.Data.Nat.ModEq

/-!
# Circular buffers

The cells of a buffer are read and written around its end. `window` is the list of the cells from
one on, and `store` writes items next to one another. What is stored right behind a window makes it
longer, as long as it goes neither beyond the end of the buffer nor back into the window
(`window_store`).
-/

namespace CircularBuffer

universe u

variable {α : Type u} {n : ℕ} {cells : ℕ → α} {start stop len a b : ℕ} {items : List α}

/-- The cells from `start` on. -/
def window (n : ℕ) (cells : ℕ → α) (start len : ℕ) : List α :=
  (List.range len).map fun i => cells ((start + i) % n)

/-- The items are written from `stop` on. -/
def store (cells : ℕ → α) (stop : ℕ) (items : List α) (i : ℕ) : α :=
  if stop ≤ i then items[i - stop]?.getD (cells i) else cells i

@[simp] theorem length_window : (window n cells start len).length = len := by simp [window]

@[simp] theorem window_mod : window n cells (start % n) len = window n cells start len := by
  simp [window]

theorem window_add :
    window n cells start (a + b) = window n cells start a ++ window n cells (start + a) b := by
  simp [window, List.range_add, Nat.add_assoc]

@[simp] theorem store_nil : store cells stop [] = cells := by
  funext i
  simp [store]

/-- A window is not changed by what is stored elsewhere. -/
theorem window_store_of_disjoint
    (hdisjoint : ∀ i < len, ∀ j < items.length, (start + i) % n ≠ stop + j) :
    window n (store cells stop items) start len = window n cells start len := by
  refine List.map_congr_left fun i hi => ?_
  rw [store]
  split_ifs with hstop
  · rw [List.getElem?_eq_none, Option.getD_none]
    by_contra hinside
    refine hdisjoint i (List.mem_range.mp hi) _ (not_le.mp hinside) ?_
    omega
  · rfl

/-- The window of what was stored. -/
theorem window_store_self (hfits : stop + items.length ≤ n) :
    window n (store cells stop items) stop items.length = items := by
  refine List.ext_getElem (by simp) fun i hi hi' => ?_
  have hcell : (stop + i) % n = stop + i := Nat.mod_eq_of_lt (by omega)
  simp [window, store, hcell, List.getElem?_eq_getElem hi']

/-- **Storing behind a window.** -/
theorem window_store (hfits : (start + len) % n + items.length ≤ n)
    (hroom : len + items.length ≤ n) :
    window n (store cells ((start + len) % n) items) start (len + items.length)
      = window n cells start len ++ items := by
  have hshift : window n (store cells ((start + len) % n) items) ((start + len) % n) items.length
      = _ := window_mod
  rw [window_add, ← hshift, window_store_self hfits, window_store_of_disjoint]
  intro i hi j hj heq
  have hlt : (start + len) % n + j < n := by omega
  have hmod : start + i ≡ start + (len + j) [MOD n] := by
    rw [Nat.ModEq, heq, ← Nat.add_assoc, Nat.add_mod (start + len) j, Nat.mod_eq_of_lt (a := j)]
    · exact (Nat.mod_eq_of_lt hlt).symm
    · omega
  have hsame := (Nat.ModEq.add_left_cancel' start hmod).eq_of_lt_of_lt (by omega) (by omega)
  omega

end CircularBuffer
