import Mathlib.Algebra.GroupWithZero.Nat
import Mathlib.Tactic.Common

/-!
# Environment vectors

An environment vector is a list of entries, each a name and, after a separator, a value; an entry
without a separator is a name alone. The entry of a name is the first one that has it. A vector is
made from a text by cutting it at a delimiter, and turned into a text by joining its entries.

Cutting a text drops its empty parts, except one at its end, so the entries of a vector made from a
text are `Compact`: none that is not empty follows one that is. `createSep_stringify` is the round
trip through the text, and `get_filter_append` says that the empty parts it drops do not matter.
`get_add_self_iff` is the law of an addition: the name has its new value, unless an older entry of
the same name is left, since an addition replaces one entry only.
-/

namespace Envz

universe u

variable {α : Type u} [DecidableEq α]

/-! ### Entries -/

/-- The name of an entry, and of a key. -/
def name (sep : α) (entry : List α) : List α := entry.takeWhile fun a => decide (a ≠ sep)

/-- The value of an entry, if it has one. -/
def value (sep : α) (entry : List α) : Option (List α) :=
  (entry.dropWhile fun a => decide (a ≠ sep)).tail?

/-- An entry of the name of the key. -/
def matchesKey (sep : α) (key entry : List α) : Bool := decide (name sep entry = name sep key)

variable {sep delim : α} {key entry : List α} {entries : List (List α)}

theorem matchesKey_iff : matchesKey sep key entry = true ↔ name sep entry = name sep key :=
  decide_eq_true_iff

@[simp] theorem name_nil : name sep [] = [] := rfl

/-- The name of an entry made from a key and a value is the name of the key. -/
theorem name_append (key rest : List α) : name sep (key ++ sep :: rest) = name sep key := by
  induction key with
  | nil => simp [name]
  | cons a key ih =>
    rw [List.cons_append, name, name, List.takeWhile_cons, List.takeWhile_cons]
    split_ifs
    · exact congrArg (a :: ·) ih
    · rfl

/-- The value of an entry made from a key without a separator. -/
theorem value_append (hkey : sep ∉ key) (rest : List α) :
    value sep (key ++ sep :: rest) = some rest := by
  induction key with
  | nil => simp [value]
  | cons a key ih =>
    obtain ⟨hne, hmem⟩ := not_or.mp (mt List.mem_cons.mpr hkey)
    rw [List.cons_append, value, List.dropWhile_cons_of_pos (by simpa using Ne.symm hne)]
    exact ih hmem

/-! ### Vectors -/

/-- The value of a key: that of the first entry of its name. -/
def get (sep : α) (entries : List (List α)) (key : List α) : Option (List α) :=
  (entries.find? (matchesKey sep key)).bind (value sep)

/-- The first entry of the name of a key is removed. -/
def remove (sep : α) (entries : List (List α)) (key : List α) : List (List α) :=
  entries.eraseP (matchesKey sep key)

/-- A key is given a value: the first entry of its name is removed, and a new one comes last. -/
def add (sep : α) (entries : List (List α)) (key val : List α) : List (List α) :=
  remove sep entries key ++ [key ++ sep :: val]

theorem get_append (first second : List (List α)) (key : List α) :
    get sep (first ++ second) key =
      if first.any (matchesKey sep key) then get sep first key else get sep second key := by
  rw [get, List.find?_append]
  split_ifs with hany
  · obtain ⟨found, hfound⟩ := Option.isSome_iff_exists.mp (List.find?_isSome.mpr
      (List.any_eq_true.mp hany))
    rw [get, hfound, Option.some_or]
  · have hnone : first.find? (matchesKey sep key) = none := by
      simpa using hany
    rw [get, hnone, Option.none_or]

/-- Removing a key leaves the others alone. -/
theorem find?_remove_of_ne {other : List α} (h : name sep other ≠ name sep key) :
    (remove sep entries key).find? (matchesKey sep other)
      = entries.find? (matchesKey sep other) := by
  induction entries with
  | nil => rfl
  | cons entry entries ih =>
    by_cases hkey : matchesKey sep key entry = true
    · have hother : ¬ matchesKey sep other entry = true := by
        rw [matchesKey_iff] at hkey ⊢
        rw [hkey]
        exact Ne.symm h
      rw [remove, List.eraseP_cons_of_pos hkey, List.find?_cons_of_neg hother]
    · rw [remove, List.eraseP_cons_of_neg hkey]
      by_cases hother : matchesKey sep other entry = true
      · rw [List.find?_cons_of_pos hother, List.find?_cons_of_pos hother]
      · rw [List.find?_cons_of_neg hother, List.find?_cons_of_neg hother]
        exact ih

/-- Giving a key a value leaves the others alone. -/
theorem get_add_of_ne {other val : List α} (h : name sep other ≠ name sep key) :
    get sep (add sep entries key val) other = get sep entries other := by
  have hnew : ¬ matchesKey sep other (key ++ sep :: val) = true := by
    rw [matchesKey_iff, name_append]
    exact Ne.symm h
  rw [add, get, List.find?_append, find?_remove_of_ne h, List.find?_cons_of_neg hnew,
    List.find?_nil, Option.or_none, get]

/-- **A key that was given a value has it**, unless another entry of its name was left. -/
theorem get_add_self_iff {val : List α} (hkey : sep ∉ key) :
    get sep (add sep entries key val) key = some val ↔
      ∀ entry, (remove sep entries key).find? (matchesKey sep key) = some entry →
        value sep entry = some val := by
  have hnew : matchesKey sep key (key ++ sep :: val) = true := by
    rw [matchesKey_iff, name_append]
  rw [add, get, List.find?_append, List.find?_cons_of_pos hnew]
  rcases (remove sep entries key).find? (matchesKey sep key) with _ | left
  · simp [value_append hkey]
  · simp

/-! ### Names and values -/

section Pairs

variable {pairs : List (List α × List α)}

/-- The entries of some names and their values. -/
def ofPairs (sep : α) (pairs : List (List α × List α)) : List (List α) :=
  pairs.map fun pair => pair.1 ++ sep :: pair.2

/-- A name that is new comes last. -/
theorem add_of_forall_name_ne {val : List α}
    (h : ∀ entry ∈ entries, name sep entry ≠ name sep key) :
    add sep entries key val = entries ++ [key ++ sep :: val] := by
  rw [add, remove, List.eraseP_of_forall_not fun entry hmem hmatch =>
    h entry hmem (matchesKey_iff.mp hmatch)]

theorem foldl_add_append
    (hnew : ∀ entry ∈ entries, ∀ pair ∈ pairs, name sep entry ≠ name sep pair.1)
    (hnodup : (pairs.map fun pair => name sep pair.1).Nodup) :
    pairs.foldl (fun entries pair => add sep entries pair.1 pair.2) entries
      = entries ++ ofPairs sep pairs := by
  induction pairs generalizing entries with
  | nil => exact (List.append_nil _).symm
  | cons pair pairs ih =>
    obtain ⟨hpair, hnodup⟩ := List.nodup_cons.mp hnodup
    rw [List.foldl_cons, add_of_forall_name_ne fun entry hmem => hnew entry hmem pair (by simp),
      ih (fun entry hmem other hother => ?_) hnodup, List.append_assoc]
    · rfl
    · rcases List.mem_append.mp hmem with hmem | hmem
      · exact hnew entry hmem other (List.mem_cons_of_mem _ hother)
      · rw [List.mem_singleton.mp hmem, name_append]
        intro heq
        exact hpair (List.mem_map.mpr ⟨other, hother, heq.symm⟩)

/-- **A vector that is filled** with different names has them in their order. -/
theorem foldl_add_nil (hnodup : (pairs.map fun pair => name sep pair.1).Nodup) :
    pairs.foldl (fun entries pair => add sep entries pair.1 pair.2) [] = ofPairs sep pairs :=
  (foldl_add_append (fun _ hmem => (List.not_mem_nil hmem).elim) hnodup).trans (List.nil_append _)

/-- The value of one of the names, whatever follows. -/
theorem get_ofPairs_append {val : List α} (hmem : (key, val) ∈ pairs)
    (hnodup : (pairs.map fun pair => name sep pair.1).Nodup) (hkey : sep ∉ key)
    (more : List (List α)) : get sep (ofPairs sep pairs ++ more) key = some val := by
  induction pairs with
  | nil => cases hmem
  | cons pair pairs ih =>
    obtain ⟨hpair, hnodup⟩ := List.nodup_cons.mp hnodup
    rw [ofPairs, List.map_cons, List.cons_append, get]
    rcases List.mem_cons.mp hmem with rfl | hmem
    · rw [List.find?_cons_of_pos (by rw [matchesKey_iff, name_append])]
      exact value_append hkey _
    · rw [List.find?_cons_of_neg fun hmatch => ?_]
      · exact ih hmem hnodup
      · rw [matchesKey_iff, name_append] at hmatch
        exact hpair (List.mem_map.mpr ⟨_, hmem, hmatch.symm⟩)

end Pairs

/-! ### Texts -/

/-- A text cut at the delimiter: its empty parts are dropped, except one at its end. -/
def createSep (delim : α) (text : List α) : List (List α) :=
  if text = [] then []
  else
    let parts := text.splitOn delim
    parts.dropLast.filter (fun part => decide (part ≠ [])) ++ [parts.getLastD []]

/-- The entries joined with the delimiter. -/
def stringify (delim : α) (entries : List (List α)) : List α := [delim].intercalate entries

omit [DecidableEq α] in
/-- The text of a vector is made of its entries and the delimiter. -/
theorem mem_of_mem_stringify {a : α} (h : a ∈ stringify delim entries) :
    a = delim ∨ ∃ entry ∈ entries, a ∈ entry := by
  induction entries with
  | nil => cases h
  | cons entry entries ih =>
    rcases entries with _ | ⟨next, rest⟩
    · rw [stringify, List.intercalate_singleton] at h
      exact .inr ⟨entry, List.mem_cons_self, h⟩
    · rw [stringify, List.intercalate_cons_cons] at h
      rcases List.mem_append.mp h with h | h
      · rcases List.mem_append.mp h with h | h
        · exact .inr ⟨entry, List.mem_cons_self, h⟩
        · exact .inl (List.mem_singleton.mp h)
      · rcases ih h with hdelim | ⟨found, hmem, ha⟩
        · exact .inl hdelim
        · exact .inr ⟨found, List.mem_cons_of_mem _ hmem, ha⟩

/-- No entry but empty ones follows an empty one. -/
def Compact (entries : List (List α)) : Prop :=
  entries.Pairwise fun before after => before = [] → after = []

omit [DecidableEq α] in
/-- The delimiters are one fewer than the entries. -/
theorem length_stringify_le (delim : α) (entries : List (List α)) :
    (stringify delim entries).length ≤ (entries.map fun entry => entry.length + 1).sum := by
  induction entries with
  | nil => exact Nat.le_refl 0
  | cons entry entries ih =>
    rcases entries with _ | ⟨next, rest⟩
    · rw [stringify, List.intercalate_singleton]
      simp
    · rw [stringify] at ih ⊢
      rw [List.intercalate_cons_cons, List.length_append, List.length_append, List.map_cons,
        List.sum_cons, List.length_singleton]
      omega

/-- The parts of a text are made of what is in the text and is not the delimiter. -/
theorem mem_of_mem_splitOn {text part : List α} (h : part ∈ text.splitOn delim) {a : α}
    (ha : a ∈ part) : a ∈ text ∧ a ≠ delim := by
  induction text generalizing part with
  | nil =>
    rw [List.splitOn_nil, List.mem_singleton] at h
    rw [h] at ha
    cases ha
  | cons b text ih =>
    rw [List.splitOn_cons_eq_if_modifyHead] at h
    split_ifs at h with hdelim
    · rcases List.mem_cons.mp h with rfl | h
      · cases ha
      · exact ⟨List.mem_cons_of_mem _ (ih h ha).1, (ih h ha).2⟩
    · rcases hparts : text.splitOn delim with _ | ⟨first, rest⟩
      · exact absurd hparts (List.splitOn_ne_nil _ _)
      rw [hparts] at h ih
      rcases List.mem_cons.mp h with rfl | h
      · rcases List.mem_cons.mp ha with rfl | ha
        · exact ⟨List.mem_cons_self, by simpa using hdelim⟩
        · obtain ⟨hmem, hne⟩ := ih List.mem_cons_self ha
          exact ⟨List.mem_cons_of_mem _ hmem, hne⟩
      · obtain ⟨hmem, hne⟩ := ih (List.mem_cons_of_mem _ h) ha
        exact ⟨List.mem_cons_of_mem _ hmem, hne⟩

/-- **The parts of two texts**: the last part of the one goes on with the first of the other. -/
theorem splitOn_append (text rest : List α) :
    (text ++ rest).splitOn delim
      = (text.splitOn delim).dropLast
          ++ ((text.splitOn delim).getLastD [] ++ (rest.splitOn delim).headD [])
            :: (rest.splitOn delim).tail := by
  induction text with
  | nil =>
    obtain ⟨first, others, hrest⟩ := List.exists_cons_of_ne_nil (List.splitOn_ne_nil delim rest)
    rw [List.nil_append, List.splitOn_nil, hrest]
    rfl
  | cons b text ih =>
    obtain ⟨first, others, hparts⟩ := List.exists_cons_of_ne_nil (List.splitOn_ne_nil delim text)
    rw [List.cons_append, List.splitOn_cons_eq_if_modifyHead, List.splitOn_cons_eq_if_modifyHead,
      ih, hparts]
    split_ifs
    · rfl
    · rcases others with _ | ⟨next, others⟩
      · rfl
      · rfl

/-- A part of a text is no longer than the text. -/
theorem length_le_of_mem_splitOn {text part : List α} (h : part ∈ text.splitOn delim) :
    part.length ≤ text.length := by
  induction text generalizing part with
  | nil =>
    rw [List.splitOn_nil, List.mem_singleton] at h
    exact Nat.le_of_eq (congrArg List.length h)
  | cons b text ih =>
    rw [List.splitOn_cons_eq_if_modifyHead] at h
    split_ifs at h
    · rcases List.mem_cons.mp h with rfl | h
      · exact Nat.zero_le _
      · exact Nat.le_trans (ih h) (Nat.le_succ _)
    · rcases hparts : text.splitOn delim with _ | ⟨first, rest⟩
      · exact absurd hparts (List.splitOn_ne_nil _ _)
      rw [hparts] at h ih
      rcases List.mem_cons.mp h with rfl | h
      · exact Nat.succ_le_succ (ih List.mem_cons_self)
      · exact Nat.le_trans (ih (List.mem_cons_of_mem _ h)) (Nat.le_succ _)

/-- The entries of the vector of a text are made of what is in the text and is not the
delimiter. -/
theorem mem_of_mem_createSep {text : List α} (h : entry ∈ createSep delim text) {a : α}
    (ha : a ∈ entry) : a ∈ text ∧ a ≠ delim := by
  rw [createSep] at h
  split_ifs at h
  · cases h
  · refine mem_of_mem_splitOn ?_ ha
    rcases List.mem_append.mp h with h | h
    · exact List.dropLast_subset _ (List.mem_filter.mp h).1
    · rw [List.mem_singleton.mp h, List.getLastD_eq_getLast?,
        List.getLast?_eq_some_getLast (List.splitOn_ne_nil _ _), Option.getD_some]
      exact List.getLast_mem _

/-- The vector of a text is compact. -/
theorem compact_createSep (text : List α) : Compact (createSep delim text) := by
  rw [createSep]
  split_ifs
  · exact List.Pairwise.nil
  · have hne : ∀ before ∈ (text.splitOn delim).dropLast.filter (fun part => decide (part ≠ [])),
        before ≠ [] := fun before hbefore => of_decide_eq_true (List.mem_filter.mp hbefore).2
    refine List.pairwise_append.mpr ⟨?_, List.pairwise_singleton _ _, ?_⟩
    · exact List.pairwise_of_forall_mem_list fun before hbefore _ _ hempty =>
        absurd hempty (hne before hbefore)
    · exact fun before hbefore _ _ hempty => absurd hempty (hne before hbefore)

/-- **The round trip through the text** drops the empty entries before the last one. -/
theorem createSep_stringify {last : List α} (hentries : ∀ entry ∈ entries, delim ∉ entry)
    (hlast : delim ∉ last) (hne : last ≠ []) :
    createSep delim (stringify delim (entries ++ [last]))
      = entries.filter (fun part => decide (part ≠ [])) ++ [last] := by
  have hsplit : (stringify delim (entries ++ [last])).splitOn delim = entries ++ [last] := by
    refine List.splitOn_intercalate delim (fun entry hmem => ?_) (by simp)
    rcases List.mem_append.mp hmem with hmem | hmem
    · exact hentries entry hmem
    · rw [List.mem_singleton.mp hmem]
      exact hlast
  have htext : stringify delim (entries ++ [last]) ≠ [] := by
    intro hnil
    rw [hnil, List.splitOn_nil] at hsplit
    have hlast' := congrArg (fun parts => parts.getLastD []) hsplit
    rw [List.getLastD_concat] at hlast'
    exact hne hlast'.symm
  rw [createSep, if_neg htext]
  simp only [hsplit, List.dropLast_concat, List.getLastD_concat]

/-- A text that ends with an entry after a delimiter: the entry comes last. -/
theorem createSep_append {text last : List α} (hlast : delim ∉ last) :
    createSep delim (text ++ delim :: last)
      = (text.splitOn delim).filter (fun part => decide (part ≠ [])) ++ [last] := by
  rw [createSep, if_neg (by simp)]
  simp only [List.splitOn_append_cons_self, List.splitOn_eq_singleton hlast, List.dropLast_concat,
    List.getLastD_concat]

omit [DecidableEq α] in
/-- What follows the last entry follows the text. -/
theorem stringify_concat_append (entries : List (List α)) (last tail : List α) :
    stringify delim (entries ++ [last ++ tail]) = stringify delim (entries ++ [last]) ++ tail := by
  induction entries with
  | nil => simp [stringify]
  | cons entry entries ih =>
    obtain ⟨next, rest, hcons⟩ := List.exists_cons_of_ne_nil
      (List.append_ne_nil_of_right_ne_nil entries (List.cons_ne_nil (last ++ tail) []))
    obtain ⟨next', rest', hcons'⟩ := List.exists_cons_of_ne_nil
      (List.append_ne_nil_of_right_ne_nil entries (List.cons_ne_nil last []))
    rw [stringify, stringify] at ih ⊢
    rw [hcons, hcons'] at ih
    rw [List.cons_append, List.cons_append, hcons, hcons', List.intercalate_cons_cons,
      List.intercalate_cons_cons, ih]
    simp only [List.append_assoc]

/-- **A text that goes on** after a delimiter has its entries, and more. -/
theorem exists_createSep_stringify_append (hne : entries ≠ [])
    (hentries : ∀ entry ∈ entries, entry ≠ [] ∧ delim ∉ entry) (rest : List α) :
    ∃ more, createSep delim (stringify delim entries ++ delim :: rest) = entries ++ more := by
  have hsplit : (stringify delim entries).splitOn delim = entries :=
    List.splitOn_intercalate delim (fun entry hmem => (hentries entry hmem).2) hne
  have hkept : entries.filter (fun part => decide (part ≠ [])) = entries :=
    List.filter_eq_self.mpr fun entry hmem => decide_eq_true (hentries entry hmem).1
  refine ⟨(rest.splitOn delim).dropLast.filter (fun part => decide (part ≠ []))
    ++ [(rest.splitOn delim).getLastD []], ?_⟩
  have hlast : (entries ++ rest.splitOn delim).getLastD [] = (rest.splitOn delim).getLastD [] := by
    rw [List.getLastD_eq_getLast?, List.getLastD_eq_getLast?, List.getLast?_append,
      List.getLast?_eq_some_getLast (List.splitOn_ne_nil _ _), Option.some_or]
  rw [createSep, if_neg (by simp)]
  simp only [List.splitOn_append_cons_self, hsplit, hlast]
  rw [List.dropLast_append_of_ne_nil (List.splitOn_ne_nil _ _), List.filter_append, hkept,
    List.append_assoc]

/-- Empty entries before an entry with a name do not matter. -/
theorem get_append_of_forall_nil {last : List α} (hnil : ∀ part ∈ entries, part = [])
    (hlast : name sep last ≠ []) (key : List α) :
    get sep (entries ++ [last]) key = get sep [last] key := by
  rw [get_append]
  split_ifs with hany
  · -- the key has no name, and an empty entry has no value
    obtain ⟨part, hmem, hmatch⟩ := List.any_eq_true.mp hany
    rw [hnil part hmem, matchesKey_iff, name_nil] at hmatch
    have hnone : ¬ matchesKey sep key last = true := by
      rw [matchesKey_iff, ← hmatch]
      exact hlast
    rw [get, get, List.find?_cons_of_neg hnone, List.find?_nil]
    rcases hfound : entries.find? (matchesKey sep key) with _ | found
    · rfl
    · rw [hnil found (List.mem_of_find?_eq_some hfound)]
      rfl
  · rfl

/-- The empty entries of a compact vector do not matter before an entry with a name. -/
theorem get_filter_append {last : List α} (hcompact : Compact entries)
    (hlast : name sep last ≠ []) (key : List α) :
    get sep (entries.filter (fun part => decide (part ≠ [])) ++ [last]) key
      = get sep (entries ++ [last]) key := by
  induction entries with
  | nil => rfl
  | cons entry entries ih =>
    obtain ⟨hafter, hcompact⟩ := List.pairwise_cons.mp hcompact
    by_cases hempty : entry = []
    · -- all that follows is empty too
      have hnil : ∀ part ∈ entry :: entries, part = [] := by
        intro part hmem
        rcases List.mem_cons.mp hmem with rfl | hmem
        · exact hempty
        · exact hafter part hmem hempty
      have hfilter : (entry :: entries).filter (fun part => decide (part ≠ [])) = [] :=
        List.filter_eq_nil_iff.mpr fun part hmem => by simp [hnil part hmem]
      rw [hfilter, List.nil_append, get_append_of_forall_nil hnil hlast]
    · rw [List.filter_cons_of_pos (by simpa using hempty), get, get, List.cons_append,
        List.cons_append]
      by_cases hmatch : matchesKey sep key entry = true
      · rw [List.find?_cons_of_pos hmatch, List.find?_cons_of_pos hmatch]
      · rw [List.find?_cons_of_neg hmatch, List.find?_cons_of_neg hmatch]
        exact ih hcompact

end Envz
