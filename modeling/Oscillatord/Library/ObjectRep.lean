import Mathlib.Logic.Equiv.Fin.Basic
import Mathlib.Data.List.OfFn
import Mathlib.Data.List.TakeWhile
import Mathlib.Tactic.Common

/-!
# Object representations

An object of `n` bytes is a function on `Fin n`. A type whose values are stored in such an object,
each in one way and every content being the storage of a value, has a `ObjectRep`: a
bijection with the objects of its size. Representations of records are built from those of their
fields, laid out one after the other (`byte`, `raw`, `pair`, `array`).

`memcpy` between objects is one of three operations here: the first bytes of a larger object
(`prefixOf`), an object padded with zeros (`padded`), and an object whose first bytes come from a
file that may be too short (`filled`).

An object may also hold a string, the bytes before its first NUL (`cString`). A buffer that is
written from its beginning is a string followed by zeros, `written n text`.
-/

/-- A representation of the values of `α` in objects of `n` bytes. -/
abbrev ObjectRep (α : Type) (n : ℕ) := α ≃ (Fin n → UInt8)

namespace ObjectRep

/-- An object of `n` bytes. -/
abbrev Bytes (n : ℕ) := Fin n → UInt8

variable {α β : Type} {k m n : ℕ}

/-! ### Records -/

/-- A field of one byte. -/
def byte : ObjectRep UInt8 1 := (Equiv.funUnique (Fin 1) UInt8).symm

/-- A field known only by its bytes. -/
def raw (n : ℕ) : ObjectRep (Bytes n) n := Equiv.refl _

/-- Two fields, one after the other. -/
def pair (r : ObjectRep α m) (s : ObjectRep β n) : ObjectRep (α × β) (m + n) :=
  (Equiv.prodCongr r s).trans (Fin.appendEquiv m n)

/-- An array of fields. -/
def array (k : ℕ) (r : ObjectRep α m) : ObjectRep (Fin k → α) (k * m) :=
  (Equiv.arrowCongr (Equiv.refl (Fin k)) r).trans
    ((Equiv.curry (Fin k) (Fin m) UInt8).symm.trans
      (Equiv.arrowCongr finProdFinEquiv (Equiv.refl UInt8)))

/-- The first byte of a record is the first byte of its first field. -/
theorem pair_apply_castAdd (r : ObjectRep α m) (s : ObjectRep β n) (x : α × β)
    (i : Fin m) : pair r s x (Fin.castAdd n i) = r x.1 i :=
  Fin.append_left (r x.1) (s x.2) i

/-- The bytes of the second field of a record follow those of the first. -/
theorem pair_apply_natAdd (r : ObjectRep α m) (s : ObjectRep β n) (x : α × β)
    (i : Fin n) : pair r s x (Fin.natAdd m i) = s x.2 i :=
  Fin.append_right (r x.1) (s x.2) i

/-! ### Copies -/

/-- The first `k` bytes of an object. -/
def prefixOf (h : k ≤ n) (b : Bytes n) : Bytes k := fun i => b (Fin.castLE h i)

/-- An object of zeros. -/
def zeros (n : ℕ) : Bytes n := fun _ => 0

/-- An object followed by zeros. -/
def padded (n : ℕ) (b : Bytes k) : Bytes n := fun i => if h : i < k then b ⟨i, h⟩ else 0

/-- An object overwritten by the bytes of a file, as far as the file goes. -/
def filled (file : List UInt8) (b : Bytes n) : Bytes n := fun i => file.getD i (b i)

@[simp] theorem prefixOf_padded (h : k ≤ n) (b : Bytes k) : prefixOf h (padded n b) = b := by
  funext i
  simp [prefixOf, padded]

theorem padded_apply {b : Bytes k} {i : Fin n} (hi : (i : ℕ) < k) :
    padded n b i = b ⟨i, hi⟩ := by
  simp [padded, hi]

/-- A file that holds an object fills an object with it. -/
@[simp] theorem filled_ofFn (c b : Bytes n) : filled (List.ofFn c) b = c := by
  funext i
  simp [filled]

/-! ### Strings -/

/-- The string at the beginning of an object, if a NUL ends it. -/
def cString (b : Bytes n) : Option (List UInt8) :=
  if 0 ∈ List.ofFn b then some ((List.ofFn b).takeWhile (· ≠ 0)) else none

/-- An object of zeros that a text is written in. -/
def written (n : ℕ) (text : List UInt8) : Bytes n := filled text (zeros n)

theorem written_apply (text : List UInt8) (i : Fin n) : written n text i = text.getD i 0 := rfl

/-- Writing the next byte of a buffer. -/
theorem update_written {text : List UInt8} (h : text.length < n) (b : UInt8) :
    Function.update (written n text) ⟨text.length, h⟩ b = written n (text ++ [b]) := by
  funext i
  by_cases hi : i = ⟨text.length, h⟩
  · subst hi
    simp [written_apply]
  · have hne : (i : ℕ) ≠ text.length := fun heq => hi (Fin.ext heq)
    rw [Function.update_of_ne hi]
    rcases lt_or_gt_of_ne hne with hlt | hgt
    · simp [written_apply, List.getD_eq_getElem?_getD, List.getElem?_append_left hlt]
    · have hout : (text ++ [b]).length ≤ i := by
        rw [List.length_append, List.length_singleton]
        omega
      simp [written_apply, List.getD_eq_getElem?_getD, List.getElem?_eq_none hgt.le,
        List.getElem?_eq_none hout]

/-- The bytes of a buffer written from its beginning. -/
theorem ofFn_written {text : List UInt8} (h : text.length ≤ n) :
    List.ofFn (written n text) = text ++ List.replicate (n - text.length) 0 := by
  refine List.ext_getElem (by simp; omega) fun i hi hi' => ?_
  rw [List.getElem_ofFn]
  by_cases hlt : i < text.length
  · simp [written_apply, List.getD_eq_getElem?_getD, List.getElem_append_left hlt, hlt]
  · simp [written_apply, List.getD_eq_getElem?_getD, List.getElem_append_right (not_lt.mp hlt),
      hlt]

/-- A buffer with room left holds the text up to its first NUL. -/
theorem cString_written {text : List UInt8} (h : text.length < n) :
    cString (written n text) = some (text.takeWhile (· ≠ 0)) := by
  obtain ⟨k, hk⟩ : ∃ k, n - text.length = k + 1 := ⟨n - text.length - 1, by omega⟩
  rw [cString, ofFn_written h.le, hk, if_pos (by simp), List.takeWhile_append]
  split_ifs with hall
  · -- no NUL in the text: the zero after it ends the string
    rw [List.replicate_succ, List.takeWhile_cons_of_neg (by simp), List.append_nil,
      (List.takeWhile_prefix _).eq_of_length hall]
  · rfl

/-- A buffer is without a string only when a text without a NUL fills it. -/
theorem cString_written_eq_none_iff {text : List UInt8} (h : text.length ≤ n) :
    cString (written n text) = none ↔ text.length = n ∧ 0 ∉ text := by
  have hmem : 0 ∈ List.ofFn (written n text) ↔ 0 ∈ text ∨ text.length ≠ n := by
    rw [ofFn_written h, List.mem_append, List.mem_replicate]
    exact or_congr_right ⟨fun hne => by omega, fun hne => ⟨by omega, rfl⟩⟩
  rw [cString]
  split_ifs with hnul
  · refine iff_of_false (by simp) fun hfull => ?_
    rcases hmem.mp hnul with h0 | hne
    · exact hfull.2 h0
    · exact hne hfull.1
  · rw [hmem, not_or, not_not] at hnul
    exact iff_of_true rfl ⟨hnul.2, hnul.1⟩

/-- A buffer of zeros holds the empty string. -/
theorem cString_zero (h : 0 < n) : cString (zeros n) = some [] := by
  have hnil : ([] : List UInt8).length < n := h
  exact cString_written hnil

/-- A string leaves room for the NUL that ends it. -/
theorem length_lt_of_cString {b : Bytes n} {string : List UInt8} (h : cString b = some string) :
    string.length < n := by
  rw [cString] at h
  split_ifs at h with hnul
  obtain rfl := Option.some.inj h
  have hlen : (List.ofFn b).length = n := List.length_ofFn
  refine ((List.takeWhile_prefix _).length_le.trans hlen.le).lt_of_ne fun heq => ?_
  have hall := (List.takeWhile_prefix fun a : UInt8 => a ≠ 0).eq_of_length (heq.trans hlen.symm)
  exact absurd (List.takeWhile_eq_self_iff.mp hall 0 hnul) (by simp)

/-- A buffer holds a part of the text at most. -/
theorem cString_written_prefix {text string : List UInt8} (h : text.length ≤ n)
    (hstring : cString (written n text) = some string) : string <+: text := by
  rw [cString, ofFn_written h] at hstring
  split_ifs at hstring
  obtain rfl := Option.some.inj hstring
  rw [List.takeWhile_append]
  split_ifs with hall
  · simp
  · exact List.takeWhile_prefix _

end ObjectRep
