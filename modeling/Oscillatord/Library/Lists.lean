import Mathlib.Data.List.Basic
import Mathlib.Data.List.TakeWhile
import Mathlib.Tactic.Common

/-!
# Lists filled by a loop

A loop that may fail and stores one value per turn is a `List.mapM` in `Option`; two such loops,
one inside the other, that store at `i * n + j` fill the concatenation of rows of length `n`.
The two lemmas say which value stands at which index.

A loop that keeps one value, and replaces it until it meets a test, ends with the first element
that meets the test, or with the last one (`firstOrLast`). What it ends with is a property of the
elements, whatever their order, exactly when they are `Settled`.

A text read up to a character is the same whatever follows the character
(`takeWhile_append_of_mem`), and one read up to a width shows what follows it until it is full
(`take_append_singleton_ne`).
-/

namespace Lists

variable {α β : Type*}

/-! ### Beginnings -/

theorem takeWhile_append_of_mem {p : α → Bool} {a : α} {l : List α} (ha : a ∈ l)
    (hp : p a = false) (more : List α) : (l ++ more).takeWhile p = l.takeWhile p := by
  rw [List.takeWhile_append, if_neg]
  intro hlength
  have hall := (List.takeWhile_prefix p).eq_of_length hlength
  have htrue := List.takeWhile_eq_self_iff.mp hall a ha
  rw [hp] at htrue
  cases htrue

/-- A run that nothing at the beginning of the next text continues ends with its own text. -/
theorem takeWhile_append_of_head? {p : α → Bool} {rest : List α}
    (hrest : ∀ b ∈ rest.head?, p b = false) (l : List α) :
    (l ++ rest).takeWhile p = l.takeWhile p ∧
      (l ++ rest).dropWhile p = l.dropWhile p ++ rest := by
  induction l with
  | nil =>
    rcases rest with _ | ⟨b, rest⟩
    · exact ⟨rfl, rfl⟩
    · have hb : ¬ p b = true := by
        rw [hrest b rfl]
        exact Bool.false_ne_true
      exact ⟨List.takeWhile_cons_of_neg hb, List.dropWhile_cons_of_neg hb⟩
  | cons a l ih =>
    by_cases ha : p a = true
    · rw [List.cons_append, List.takeWhile_cons_of_pos ha, List.dropWhile_cons_of_pos ha,
        List.takeWhile_cons_of_pos ha, List.dropWhile_cons_of_pos ha, ih.1, ih.2]
      exact ⟨rfl, rfl⟩
    · rw [List.cons_append, List.takeWhile_cons_of_neg ha, List.dropWhile_cons_of_neg ha,
        List.takeWhile_cons_of_neg ha, List.dropWhile_cons_of_neg ha]
      exact ⟨rfl, rfl⟩

theorem take_append_singleton_ne {l : List α} {n : ℕ} (h : l.length < n) (a : α) :
    (l ++ [a]).take n ≠ l.take n := by
  intro heq
  rw [List.take_of_length_le h.le,
    List.take_of_length_le (by rw [List.length_append, List.length_singleton]; omega)] at heq
  simpa using congrArg List.length heq

/-! ### Loops that store -/

/-- What a loop that may fail stored at each index. -/
theorem getElem?_of_mapM {f : α → Option β} {l : List α} {values : List β}
    (h : l.mapM f = some values) (i : ℕ) : values[i]? = l[i]?.bind f := by
  induction l generalizing values i with
  | nil =>
    rw [List.mapM_nil] at h
    obtain rfl := Option.some.inj h
    simp
  | cons a l ih =>
    rw [List.mapM_cons] at h
    obtain ⟨b, hb, h⟩ := Option.bind_eq_some_iff.mp h
    obtain ⟨bs, hbs, h⟩ := Option.bind_eq_some_iff.mp h
    obtain rfl := Option.some.inj h
    rcases i with _ | i
    · simpa using hb.symm
    · simpa using ih hbs i

/-- A loop that does not fail stores one value per turn. -/
theorem length_of_mapM {f : α → Option β} {l : List α} {values : List β}
    (h : l.mapM f = some values) : values.length = l.length := by
  induction l generalizing values with
  | nil =>
    rw [List.mapM_nil] at h
    obtain rfl := Option.some.inj h
    rfl
  | cons a l ih =>
    rw [List.mapM_cons] at h
    obtain ⟨b, -, h⟩ := Option.bind_eq_some_iff.mp h
    obtain ⟨bs, hbs, h⟩ := Option.bind_eq_some_iff.mp h
    obtain rfl := Option.some.inj h
    simpa using ih hbs

/-- A loop does not fail exactly when none of its turns does. -/
theorem isSome_mapM_iff {f : α → Option β} {l : List α} :
    (l.mapM f).isSome = true ↔ ∀ a ∈ l, (f a).isSome = true := by
  induction l with
  | nil => simp
  | cons a l ih =>
    rw [List.mapM_cons, List.forall_mem_cons, ← ih]
    rcases f a with _ | b
    · simp
    · rcases l.mapM f with _ | bs <;> simp

/-- A loop whose turns all have a value stores these. -/
theorem mapM_eq_some_map {f : α → Option β} {g : α → β} {l : List α}
    (h : ∀ a ∈ l, f a = some (g a)) : l.mapM f = some (l.map g) := by
  induction l with
  | nil => rfl
  | cons a l ih =>
    rw [List.mapM_cons, h a List.mem_cons_self, ih fun b hb => h b (List.mem_cons_of_mem _ hb)]
    rfl

/-- The value a loop over a range stored at each index of it. -/
theorem exists_of_mapM_range {n : ℕ} {f : ℕ → Option β} {values : List β}
    (h : (List.range n).mapM f = some values) {i : ℕ} (hi : i < n) :
    ∃ b, values[i]? = some b ∧ f i = some b := by
  have hlen : i < values.length := by
    rw [length_of_mapM h, List.length_range]
    exact hi
  have hget : values[i]? = f i := by
    rw [getElem?_of_mapM h, List.getElem?_range hi, Option.bind_some]
  rw [List.getElem?_eq_getElem hlen] at hget
  exact ⟨values[i], List.getElem?_eq_getElem hlen, hget.symm⟩

/-- The elements of equally long rows, laid end to end. -/
theorem getElem?_flatten_of_length {n : ℕ} {rows : List (List α)}
    (hlen : ∀ row ∈ rows, row.length = n) {i j : ℕ} (hj : j < n) :
    rows.flatten[i * n + j]? = rows[i]?.bind (·[j]?) := by
  induction rows generalizing i with
  | nil => simp
  | cons row rows ih =>
    have hrow : row.length = n := hlen row (by simp)
    have hrest : ∀ r ∈ rows, r.length = n := fun r hr => hlen r (by simp [hr])
    rw [List.flatten_cons]
    rcases i with _ | i
    · rw [List.getElem?_append_left (by omega)]
      simp
    · have hidx : (i + 1) * n + j - row.length = i * n + j := by
        rw [hrow, Nat.succ_mul]
        omega
      rw [List.getElem?_append_right (by rw [hrow, Nat.succ_mul]; omega), hidx, ih hrest]
      simp

/-- What does not meet a test is left when one element that meets it is erased. -/
theorem filter_not_eraseP {p : α → Bool} (l : List α) :
    (l.eraseP p).filter (fun a => !p a) = l.filter fun a => !p a := by
  induction l with
  | nil => rfl
  | cons a l ih =>
    by_cases ha : p a = true
    · rw [List.eraseP_cons_of_pos ha, List.filter_cons_of_neg (by simp [ha])]
    · rw [List.eraseP_cons_of_neg ha, List.filter_cons_of_pos (by simp [ha]),
        List.filter_cons_of_pos (by simp [ha]), ih]

/-- Joined parts, the last one apart: each of the others is followed by the separator. -/
theorem intercalate_concat (separator : List α) (parts : List (List α)) (last : List α) :
    separator.intercalate (parts ++ [last])
      = parts.flatMap (fun part => part ++ separator) ++ last := by
  induction parts with
  | nil => exact List.intercalate_singleton
  | cons part parts ih =>
    rw [List.cons_append, List.intercalate_cons_of_ne_nil (by simp), ih, List.flatMap_cons]
    simp only [List.append_assoc]

/-! ### The first that meets a test, or the last -/

/-- The first element that meets the test, the last one where none does, `init` in the empty
list. -/
def firstOrLast (p : α → Bool) (init : α) (l : List α) : α :=
  (l.find? p).getD (l.getLast?.getD init)

/-- All elements that meet the test are equal, and where there are none all elements are. -/
def Settled (p : α → Bool) (l : List α) : Prop :=
  (∀ a ∈ l, ∀ b ∈ l, p a = true → p b = true → a = b) ∧
    ((∀ a ∈ l, p a = false) → ∀ a ∈ l, ∀ b ∈ l, a = b)

instance [DecidableEq α] (p : α → Bool) (l : List α) : Decidable (Settled p l) :=
  inferInstanceAs (Decidable (_ ∧ _))

variable {p : α → Bool} {init : α}

/-- The loop that keeps the first element that meets the test. -/
theorem foldl_eq_firstOrLast (hinit : p init = false) (l : List α) :
    l.foldl (fun current a => if p current then current else a) init = firstOrLast p init l := by
  induction l generalizing init with
  | nil => rfl
  | cons a l ih =>
    have hstart : (if p init then init else a) = a := by rw [hinit, if_neg Bool.false_ne_true]
    rw [List.foldl_cons, hstart]
    cases ha : p a
    · rw [ih ha, firstOrLast, firstOrLast, List.find?_cons_of_neg (by simp [ha]),
        List.getLast?_cons, Option.getD_some]
    · -- From here on nothing is replaced.
      have hkept : ∀ rest : List α,
          rest.foldl (fun current a => if p current then current else a) a = a := by
        intro rest
        induction rest with
        | nil => rfl
        | cons b rest ih' => rw [List.foldl_cons, if_pos ha, ih']
      rw [hkept, firstOrLast, List.find?_cons_of_pos ha, Option.getD_some]

/-- Where some element meets the test, one of these is taken. -/
theorem firstOrLast_mem_of_exists (init : α) {l : List α} (h : ∃ a ∈ l, p a = true) :
    firstOrLast p init l ∈ l ∧ p (firstOrLast p init l) = true := by
  obtain ⟨b, hb⟩ := Option.isSome_iff_exists.mp (List.find?_isSome.mpr h)
  rw [firstOrLast, hb, Option.getD_some]
  exact ⟨List.mem_of_find?_eq_some hb, List.find?_some hb⟩

/-- Where none does, the last element is. -/
theorem firstOrLast_eq_getLast {l : List α} (h : ∀ a ∈ l, p a = false) :
    firstOrLast p init l = l.getLast?.getD init := by
  rw [firstOrLast, List.find?_eq_none.mpr fun a ha => by simp [h a ha], Option.getD_none]

/-- An element of a list that is not empty is taken. -/
theorem firstOrLast_mem (init : α) {l : List α} (hl : l ≠ []) : firstOrLast p init l ∈ l := by
  by_cases h : ∃ a ∈ l, p a = true
  · exact (firstOrLast_mem_of_exists init h).1
  · have hnone : ∀ a ∈ l, p a = false := by simpa using h
    rw [firstOrLast_eq_getLast hnone, List.getLast?_eq_getLast_of_ne_nil hl, Option.getD_some]
    exact List.getLast_mem hl

/-- What is taken of settled elements does not depend on their order. -/
theorem Settled.firstOrLast_perm {l l' : List α} (h : Settled p l) (hperm : l'.Perm l) :
    firstOrLast p init l' = firstOrLast p init l := by
  rcases eq_or_ne l [] with rfl | hl
  · rw [hperm.eq_nil]
  have hl' : l' ≠ [] := fun hnil => hl (hnil ▸ hperm).nil_eq.symm
  by_cases hmet : ∃ a ∈ l, p a = true
  · obtain ⟨hmem, hp⟩ := firstOrLast_mem_of_exists init hmet
    have hmet' : ∃ a ∈ l', p a = true := hmet.imp fun a ha => ⟨hperm.mem_iff.mpr ha.1, ha.2⟩
    obtain ⟨hmem', hp'⟩ := firstOrLast_mem_of_exists init hmet'
    exact h.1 _ (hperm.mem_iff.mp hmem') _ hmem hp' hp
  · have hnone : ∀ a ∈ l, p a = false := by simpa using hmet
    exact h.2 hnone _ (hperm.mem_iff.mp (firstOrLast_mem init hl')) _ (firstOrLast_mem init hl)

/-- Moved to the front, an element that meets the test is taken; moved to the end, any element is
taken where none does. So elements are settled when no order of them makes a difference. -/
theorem settled_map_of_forall_perm {f : β → α} {l : List β}
    (h : ∀ l' : List β, l'.Perm l → firstOrLast p init (l'.map f) = firstOrLast p init (l.map f)) :
    Settled p (l.map f) := by
  constructor
  · have htaken : ∀ b ∈ l, p (f b) = true → firstOrLast p init (l.map f) = f b := by
      intro b hb hp
      obtain ⟨front, back, rfl⟩ := List.append_of_mem hb
      rw [← h _ List.perm_middle.symm, List.map_cons, firstOrLast, List.find?_cons_of_pos hp,
        Option.getD_some]
    intro _ hfirst _ hsecond hpa hpb
    obtain ⟨a, ha, rfl⟩ := List.mem_map.mp hfirst
    obtain ⟨b, hb, rfl⟩ := List.mem_map.mp hsecond
    rw [← htaken a ha hpa, ← htaken b hb hpb]
  · intro hnone
    have htaken : ∀ b ∈ l, firstOrLast p init (l.map f) = f b := by
      intro b hb
      obtain ⟨front, back, rfl⟩ := List.append_of_mem hb
      have hperm : (front ++ back ++ [b]).Perm (front ++ b :: back) := by
        rw [List.append_assoc]
        exact (List.perm_append_singleton b back).append_left front
      have hnone' : ∀ a ∈ (front ++ back ++ [b]).map f, p a = false :=
        fun a ha => hnone a ((hperm.map f).mem_iff.mp ha)
      rw [← h _ hperm, firstOrLast_eq_getLast hnone']
      simp
    intro _ hfirst _ hsecond
    obtain ⟨a, ha, rfl⟩ := List.mem_map.mp hfirst
    obtain ⟨b, hb, rfl⟩ := List.mem_map.mp hsecond
    rw [← htaken a ha, ← htaken b hb]

end Lists
