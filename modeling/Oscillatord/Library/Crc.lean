import Mathlib.Algebra.Field.ZMod
import Mathlib.RingTheory.AdjoinRoot

/-!
# Cyclic redundancy checks

A cyclic redundancy check has a register of some bits. A step shifts it, and adds the taps when a
bit leaves it (`step`); the words of a message are added to it one after the other, with as many
steps after each as it has bits (`checksum`).

It is the remainder of a polynomial over the field of two elements: a step is the product with `X`
modulo the generator (`mk_ofWord_step`), so that the register holds the message, and what it began
with, times powers of `X` (`mk_ofWord_checksum`).

A generator with a constant term has no factor `X`, so that polynomials of lower degree differ
modulo it, whatever power of `X` they are multiplied with (`eq_of_dvd_sub_mul_X_pow`). So two
messages that differ, and only within a window of as many bits as the register has, have different
checks (`checksum_ne_of_window`).
-/

namespace Crc

open Polynomial

variable {w : ℕ}

/-! ### The register -/

section Register

variable (taps : BitVec w)

/-- A step of the register. -/
def step (c : BitVec w) : BitVec w := if c.msb then (c <<< 1) ^^^ taps else c <<< 1

/-- The register after the words of a message. -/
def checksum (start : BitVec w) (words : List (BitVec w)) : BitVec w :=
  words.foldl (fun c word => (step taps)^[w] (c ^^^ word)) start

end Register

/-- The bits of a word, from the most significant one. -/
def wordBits (c : BitVec w) : List Bool := List.ofFn fun i : Fin w => c.getMsbD i

/-- The bits of a message. -/
def bitsOf (words : List (BitVec w)) : List Bool := words.flatMap wordBits

/-- Two lists of one length differ, and only within a window of some length. -/
structure DiffersInWindow {α : Type} (n : ℕ) (l l' : List α) : Prop where
  length_eq : l.length = l'.length
  ne : l ≠ l'
  window : ∃ start, ∀ i, l[i]? ≠ l'[i]? → start ≤ i ∧ i < start + n

/-! ### The polynomial of a list of bits -/

/-- A bit as a coefficient. -/
def bit (b : Bool) : ZMod 2 := if b then 1 else 0

theorem bit_injective : Function.Injective bit := by decide

theorem bit_xor (a b : Bool) : bit (a ^^ b) = bit a + bit b := by
  cases a <;> cases b <;> rfl

/-- The polynomial of a list of bits, of which the first is that of the highest power. -/
noncomputable def ofBits : List Bool → (ZMod 2)[X]
  | [] => 0
  | b :: bits => C (bit b) * X ^ bits.length + ofBits bits

theorem coeff_ofBits (bits : List Bool) (n : ℕ) :
    (ofBits bits).coeff n = bit (bits.reverse[n]?.getD false) := by
  induction bits with
  | nil => rfl
  | cons b bits ih =>
    rw [ofBits, coeff_add, coeff_C_mul, coeff_X_pow, ih, List.reverse_cons]
    rcases lt_trichotomy n bits.length with hlt | rfl | hgt
    · rw [if_neg hlt.ne, mul_zero, zero_add,
        List.getElem?_append_left (by rwa [List.length_reverse])]
    · rw [if_pos rfl, mul_one, List.getElem?_eq_none (by rw [List.length_reverse]),
        List.getElem?_append_right (by rw [List.length_reverse]), List.length_reverse, Nat.sub_self]
      exact add_zero _
    · rw [if_neg hgt.ne', mul_zero, zero_add,
        List.getElem?_eq_none (by rw [List.length_reverse]; exact hgt.le),
        List.getElem?_eq_none (by simpa using hgt)]

theorem degree_ofBits_lt (bits : List Bool) : (ofBits bits).degree < bits.length := by
  rw [degree_lt_iff_coeff_zero]
  intro n hn
  rw [coeff_ofBits, List.getElem?_eq_none (by rwa [List.length_reverse])]
  rfl

theorem ofBits_append (first second : List Bool) :
    ofBits (first ++ second) = ofBits first * X ^ second.length + ofBits second := by
  induction first with
  | nil => rw [List.nil_append, ofBits, zero_mul, zero_add]
  | cons b first ih =>
    rw [List.cons_append, ofBits, ofBits, ih, List.length_append]
    ring

/-- Lists of one length with the same polynomial are the same. -/
theorem eq_of_ofBits_eq {bits bits' : List Bool} (hlength : bits.length = bits'.length)
    (h : ofBits bits = ofBits bits') : bits = bits' := by
  rw [← List.reverse_inj]
  refine List.ext_getElem (by rwa [List.length_reverse, List.length_reverse]) fun n hn hn' => ?_
  have hcoeff := congrArg (fun p => p.coeff n) h
  simp only [coeff_ofBits] at hcoeff
  rw [List.getElem?_eq_getElem hn, List.getElem?_eq_getElem hn'] at hcoeff
  exact bit_injective hcoeff

/-! ### The polynomial of a word -/

/-- The polynomial of a word. -/
noncomputable def ofWord (c : BitVec w) : (ZMod 2)[X] := ofBits (wordBits c)

theorem length_wordBits (c : BitVec w) : (wordBits c).length = w := List.length_ofFn

theorem coeff_ofWord (c : BitVec w) (n : ℕ) : (ofWord c).coeff n = bit (c.getLsbD n) := by
  rw [ofWord, coeff_ofBits]
  congr 1
  by_cases hn : n < w
  · rw [List.getElem?_reverse (by rwa [length_wordBits]), length_wordBits, wordBits,
      List.getElem?_ofFn, dif_pos (by omega), Option.getD_some, BitVec.getLsbD_eq_getMsbD,
      decide_eq_true hn, Bool.true_and]
  · rw [List.getElem?_eq_none (by rw [List.length_reverse, length_wordBits]; omega),
      BitVec.getLsbD_of_ge c n (by omega)]
    rfl

theorem degree_ofWord_lt (c : BitVec w) : (ofWord c).degree < w := by
  have h := degree_ofBits_lt (wordBits c)
  rwa [length_wordBits] at h

theorem ofWord_injective : Function.Injective (ofWord : BitVec w → (ZMod 2)[X]) := by
  intro a b h
  refine BitVec.eq_of_getLsbD_eq fun n _ => ?_
  have hcoeff := congrArg (fun p => p.coeff n) h
  simp only [coeff_ofWord] at hcoeff
  exact bit_injective hcoeff

theorem ofWord_xor (a b : BitVec w) : ofWord (a ^^^ b) = ofWord a + ofWord b := by
  ext n
  rw [coeff_add, coeff_ofWord, coeff_ofWord, coeff_ofWord, BitVec.getLsbD_xor, bit_xor]

/-- A shift is the product with `X`, but for the bit that leaves the word. -/
theorem ofWord_mul_X (c : BitVec w) :
    ofWord c * X = C (bit c.msb) * X ^ w + ofWord (c <<< 1) := by
  ext n
  rw [coeff_add, coeff_C_mul, coeff_X_pow, coeff_ofWord, BitVec.getLsbD_shiftLeft]
  cases n with
  | zero =>
    rw [mul_coeff_zero, coeff_X_zero, mul_zero]
    rcases Nat.eq_zero_or_pos w with rfl | hpos
    · rw [BitVec.msb_eq_getLsbD_last, BitVec.getLsbD_of_ge c _ le_rfl]
      rfl
    · rw [if_neg hpos.ne, mul_zero, zero_add]
      simp [bit]
  | succ n =>
    rw [coeff_mul_X, coeff_ofWord]
    rcases lt_trichotomy (n + 1) w with hlt | rfl | hgt
    · rw [if_neg hlt.ne, mul_zero, zero_add, decide_eq_true hlt]
      simp
    · rw [if_pos rfl, mul_one, BitVec.msb_eq_getLsbD_last, Nat.add_sub_cancel]
      simp [bit]
    · rw [if_neg hgt.ne', BitVec.getLsbD_of_ge c n (by omega), decide_eq_false hgt.not_gt]
      simp [bit]

/-! ### The remainder -/

section Remainder

variable (taps : BitVec w)

/-- The generator of a check: the highest power, which the taps leave out, and the taps. -/
noncomputable def generator : (ZMod 2)[X] := X ^ w + ofWord taps

theorem degree_generator : (generator taps).degree = w := by
  have hdegree : (ofWord taps).degree < (X ^ w : (ZMod 2)[X]).degree := by
    rw [degree_X_pow]
    exact degree_ofWord_lt taps
  rw [generator, degree_add_eq_left_of_degree_lt hdegree, degree_X_pow]

/-- **A step is the product with `X`** modulo the generator. -/
theorem mk_ofWord_step (c : BitVec w) :
    AdjoinRoot.mk (generator taps) (ofWord (step taps c))
      = AdjoinRoot.mk (generator taps) (ofWord c) * AdjoinRoot.root (generator taps) := by
  rw [← AdjoinRoot.mk_X, ← map_mul, ofWord_mul_X, AdjoinRoot.mk_eq_mk, step]
  split_ifs with hmsb
  · -- the power that leaves the word and the taps that come in are the generator
    have hgenerator : ofWord ((c <<< 1) ^^^ taps) - (C (bit c.msb) * X ^ w + ofWord (c <<< 1))
        = generator taps := by
      rw [ofWord_xor, hmsb, generator, bit, if_pos rfl, C_1, one_mul, CharTwo.sub_eq_add]
      calc ofWord (c <<< 1) + ofWord taps + (X ^ w + ofWord (c <<< 1))
          = ofWord (c <<< 1) + ofWord (c <<< 1) + (X ^ w + ofWord taps) := by ring
        _ = X ^ w + ofWord taps := by rw [CharTwo.add_self_eq_zero, zero_add]
    rw [hgenerator]
  · rw [Bool.eq_false_of_not_eq_true hmsb, bit, if_neg Bool.false_ne_true, C_0, zero_mul, zero_add,
      sub_self]
    exact dvd_zero _

theorem mk_ofWord_iterate_step (n : ℕ) (c : BitVec w) :
    AdjoinRoot.mk (generator taps) (ofWord ((step taps)^[n] c))
      = AdjoinRoot.mk (generator taps) (ofWord c) * AdjoinRoot.root (generator taps) ^ n := by
  induction n generalizing c with
  | zero => rw [Function.iterate_zero_apply, pow_zero, mul_one]
  | succ n ih =>
    rw [Function.iterate_succ_apply, ih, mk_ofWord_step, mul_assoc, ← pow_succ']

theorem length_bitsOf (words : List (BitVec w)) : (bitsOf words).length = words.length * w := by
  induction words with
  | nil => rw [bitsOf, List.flatMap_nil, List.length_nil, List.length_nil, Nat.zero_mul]
  | cons word words ih =>
    rw [bitsOf] at ih ⊢
    rw [List.flatMap_cons, List.length_append, length_wordBits, ih, List.length_cons,
      Nat.succ_mul, Nat.add_comm]

/-- **The register holds the remainder** of what it began with and the message. -/
theorem mk_ofWord_checksum (start : BitVec w) (words : List (BitVec w)) :
    AdjoinRoot.mk (generator taps) (ofWord (checksum taps start words))
      = AdjoinRoot.mk (generator taps)
          (ofWord start * X ^ (words.length * w) + ofBits (bitsOf words) * X ^ w) := by
  induction words generalizing start with
  | nil => simp [checksum, bitsOf, ofBits]
  | cons word words ih =>
    have hcons : checksum taps start (word :: words)
        = checksum taps ((step taps)^[w] (start ^^^ word)) words := rfl
    have hbits : ofBits (bitsOf (word :: words))
        = ofWord word * X ^ (words.length * w) + ofBits (bitsOf words) := by
      rw [bitsOf, List.flatMap_cons, ofBits_append, ← bitsOf, length_bitsOf]
      rfl
    rw [hcons, ih, map_add, map_mul, mk_ofWord_iterate_step, ofWord_xor, hbits]
    simp only [map_add, map_mul, map_pow, AdjoinRoot.mk_X, List.length_cons]
    ring

theorem monic_generator : (generator taps).Monic :=
  monic_X_pow_add (degree_ofWord_lt taps)

/-- A word that has the remainder of a polynomial is that remainder. -/
theorem ofWord_eq_modByMonic {c : BitVec w} {p : (ZMod 2)[X]}
    (h : AdjoinRoot.mk (generator taps) (ofWord c) = AdjoinRoot.mk (generator taps) p) :
    ofWord c = p %ₘ generator taps := by
  obtain ⟨q, hq⟩ := AdjoinRoot.mk_eq_mk.mp h.symm
  refine (div_modByMonic_unique q _ (monic_generator taps) ⟨?_, ?_⟩).2.symm
  · rw [← hq, add_sub_cancel]
  · rw [degree_generator]
    exact degree_ofWord_lt c

/-- A generator with a constant term has no factor `X`, so that polynomials of lower degree differ
modulo it, times any power of `X`. -/
theorem eq_of_dvd_sub_mul_X_pow {p q : (ZMod 2)[X]} (hconstant : taps.getLsbD 0 = true)
    (hp : p.degree < w) (hq : q.degree < w) {k : ℕ} (h : generator taps ∣ (p - q) * X ^ k) :
    p = q := by
  have hpos : 0 < w := BitVec.lt_of_getLsbD hconstant
  have hcoeff : (generator taps).coeff 0 = 1 := by
    rw [generator, coeff_add, coeff_X_pow, if_neg hpos.ne, coeff_ofWord, hconstant]
    rfl
  have hcoprime : IsCoprime (generator taps) (X ^ k) := by
    refine IsCoprime.pow_right (IsCoprime.symm (irreducible_X.coprime_iff_not_dvd.mpr ?_))
    rw [X_dvd_iff, hcoeff]
    exact one_ne_zero
  have hdegree : (p - q).degree < (generator taps).degree := by
    rw [degree_generator]
    exact (degree_sub_le p q).trans_lt (max_lt hp hq)
  have hzero := eq_zero_of_dvd_of_degree_lt (hcoprime.dvd_of_dvd_mul_right h) hdegree
  exact sub_eq_zero.mp hzero

/-- Words with the same remainder are the same. -/
theorem eq_of_mk_ofWord_eq {a b : BitVec w}
    (h : AdjoinRoot.mk (generator taps) (ofWord a) = AdjoinRoot.mk (generator taps) (ofWord b)) :
    a = b :=
  ofWord_injective ((ofWord_eq_modByMonic taps h).trans (ofWord_eq_modByMonic taps rfl).symm)

/-- **Messages of one length have the same check** when the generator divides their difference. -/
theorem checksum_eq_iff (start : BitVec w) {words words' : List (BitVec w)}
    (hlength : words.length = words'.length) :
    checksum taps start words = checksum taps start words' ↔
      generator taps ∣ (ofBits (bitsOf words) - ofBits (bitsOf words')) * X ^ w := by
  have hdifference : (ofBits (bitsOf words) - ofBits (bitsOf words')) * X ^ w
      = ofWord start * X ^ (words.length * w) + ofBits (bitsOf words) * X ^ w
        - (ofWord start * X ^ (words'.length * w) + ofBits (bitsOf words') * X ^ w) := by
    rw [hlength]
    ring
  rw [hdifference, ← AdjoinRoot.mk_eq_mk, ← mk_ofWord_checksum, ← mk_ofWord_checksum]
  exact ⟨fun h => by rw [h], eq_of_mk_ofWord_eq taps⟩

variable {taps}

theorem step_injective (hconstant : taps.getLsbD 0 = true) : Function.Injective (step taps) := by
  intro a b h
  have hproduct := congrArg (fun c => AdjoinRoot.mk (generator taps) (ofWord c)) h
  simp only [mk_ofWord_step, ← AdjoinRoot.mk_X, ← map_mul] at hproduct
  rw [AdjoinRoot.mk_eq_mk, ← sub_mul, ← pow_one X] at hproduct
  exact ofWord_injective (eq_of_dvd_sub_mul_X_pow taps hconstant (degree_ofWord_lt a)
    (degree_ofWord_lt b) hproduct)

/-- **A message with its check after it has the check zero**, and no other word does. -/
theorem checksum_append_eq_zero_iff (hconstant : taps.getLsbD 0 = true) (start c : BitVec w)
    (words : List (BitVec w)) :
    checksum taps start (words ++ [c]) = 0#w ↔ checksum taps start words = c := by
  have hzero : (step taps)^[w] 0#w = 0#w := by
    refine Function.iterate_fixed ?_ w
    rw [step]
    simp
  have happend : checksum taps start (words ++ [c])
      = (step taps)^[w] (checksum taps start words ^^^ c) := by
    rw [checksum, List.foldl_append]
    rfl
  rw [happend, ← BitVec.xor_eq_zero_iff (y := c)]
  refine ⟨fun h => (step_injective hconstant).iterate w (h.trans hzero.symm), fun h => ?_⟩
  rw [h, hzero]

end Remainder

/-! ### Windows -/

/-- The parts of two lists that differ within a window. -/
theorem DiffersInWindow.exists_parts {α : Type} {n : ℕ} {l l' : List α}
    (h : DiffersInWindow n l l') :
    ∃ before window window' after, l = before ++ window ++ after ∧
      l' = before ++ window' ++ after ∧ window.length = window'.length ∧ window.length ≤ n ∧
      window ≠ window' := by
  obtain ⟨start, hwindow⟩ := h.window
  have hbefore : l.take start = l'.take start := by
    refine List.ext_getElem? fun i => ?_
    rw [List.getElem?_take, List.getElem?_take]
    split_ifs with hi
    · by_contra hne
      exact absurd (hwindow i hne).1 hi.not_ge
    · rfl
  have hafter : l.drop (start + n) = l'.drop (start + n) := by
    refine List.ext_getElem? fun i => ?_
    rw [List.getElem?_drop, List.getElem?_drop]
    by_contra hne
    exact absurd (hwindow _ hne).2 (by omega)
  have hparts : ∀ list : List α,
      list = list.take start ++ (list.drop start).take n ++ list.drop (start + n) := by
    intro list
    rw [List.append_assoc, ← List.drop_drop, List.take_append_drop, List.take_append_drop]
  refine ⟨l.take start, (l.drop start).take n, (l'.drop start).take n, l.drop (start + n),
    hparts l, ?_, ?_, List.length_take_le _ _, fun heq => h.ne ?_⟩
  · rw [hbefore, hafter]
    exact hparts l'
  · rw [List.length_take, List.length_take, List.length_drop, List.length_drop, h.length_eq]
  · rw [hparts l, hparts l', hbefore, heq, hafter]

/-- **A difference within a window of the width of the register is found.** -/
theorem checksum_ne_of_window {taps : BitVec w} (hconstant : taps.getLsbD 0 = true)
    (start : BitVec w) {words words' : List (BitVec w)}
    (h : DiffersInWindow w (bitsOf words) (bitsOf words')) :
    checksum taps start words ≠ checksum taps start words' := by
  have hlength : words.length = words'.length := by
    have hbits := h.length_eq
    rw [length_bitsOf, length_bitsOf] at hbits
    exact Nat.eq_of_mul_eq_mul_right (BitVec.lt_of_getLsbD hconstant) hbits
  obtain ⟨before, window, window', after, hwords, hwords', hsame, hwidth, hne⟩ := h.exists_parts
  have hdifference : (ofBits (bitsOf words) - ofBits (bitsOf words')) * X ^ w
      = (ofBits window - ofBits window') * X ^ (after.length + w) := by
    rw [hwords, hwords']
    simp only [ofBits_append, hsame]
    ring
  have hdegree : ∀ bits : List Bool, bits.length = window.length → (ofBits bits).degree < w :=
    fun bits hbits =>
      (degree_ofBits_lt bits).trans_le (Nat.cast_le.mpr (hbits.le.trans hwidth))
  rw [Ne, checksum_eq_iff taps start hlength, hdifference]
  intro hdvd
  have hwindow := eq_of_dvd_sub_mul_X_pow taps hconstant (hdegree window rfl)
    (hdegree window' hsame.symm) hdvd
  exact hne (eq_of_ofBits_eq hsame hwindow)

end Crc
