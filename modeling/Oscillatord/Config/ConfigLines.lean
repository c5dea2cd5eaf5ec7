import Oscillatord.Config.ConfigFile

/-!
# The lines of the configuration file

The entries of the configuration should be the lines of the file that are not empty and are no
comments (`ConfigLinesLaw`). `read_file` gives its buffer, which nothing terminates, to a function
that takes a string, so what follows the buffer in memory is read as more of the file; and that
function leaves an empty entry for a text that ends with a newline.

`configLinesLaw_iff` is the exact condition: the text that is read does not end with a newline, and
what follows the buffer neither changes the last line (`FollowsHarmless`) nor has entries of its
own.
-/

namespace Oscillatord

/-- The line is an entry of the configuration. -/
def isEntry (line : List UInt8) : Bool := decide (line ≠ []) && !isComment line

/-- The lines of a text. -/
def linesOf (text : List UInt8) : List (List UInt8) := text.splitOn newline

/-- **The law of the lines**: the file is read, and the entries are its lines, less those that are
empty and those that are comments. -/
def ConfigLinesLaw (content heap : List UInt8) : Prop :=
  configInit heap (.complete content) = (0, (linesOf content).filter isEntry)

/-- The rest of a line: what an entry, an empty line and a comment need of it. -/
def RestHarmless (last rest : List UInt8) : Prop :=
  if last = [] then isEntry rest = false else isComment last = true ∨ rest = []

instance (last rest : List UInt8) : Decidable (RestHarmless last rest) :=
  inferInstanceAs (Decidable (if last = [] then _ else _))

/-- What follows a text adds no entry, and changes none. -/
structure FollowsHarmless (content rest : List UInt8) : Prop where
  first : RestHarmless ((linesOf content).getLastD []) ((linesOf rest).headD [])
  others : ∀ line ∈ (linesOf rest).tail, isEntry line = false

/-! ### One text after another -/

@[simp] theorem isEntry_nil : isEntry [] = false := rfl

/-- The last line of a text is empty when the text ends with a newline, and when it is empty. -/
theorem getLastD_linesOf_eq_nil_iff (text : List UInt8) :
    text ≠ [] ∧ (linesOf text).getLastD [] = [] ↔ text.getLast? = some newline := by
  rcases List.eq_nil_or_concat text with rfl | ⟨before, byte, rfl⟩
  · simp
  rw [List.concat_eq_append, List.getLast?_concat, linesOf, Envz.splitOn_append]
  by_cases hbyte : byte = newline
  · have hlines : [newline].splitOn newline = [[], []] := rfl
    rw [hbyte, hlines]
    simp
  · have hline : [byte].splitOn newline = [[byte]] :=
      List.splitOn_eq_singleton (by simpa using Ne.symm hbyte)
    rw [hline]
    simp [hbyte]

/-- What the vector of a text has of its lines: an empty entry is left at its end. -/
theorem filter_createSep (text : List UInt8) :
    (Envz.createSep newline text).filter (fun entry => !isComment entry)
      = (linesOf text).filter isEntry
          ++ if text.getLast? = some newline then [[]] else [] := by
  rcases eq_or_ne text [] with rfl | htext
  · rfl
  obtain ⟨before, last, hlines⟩ : ∃ before last, linesOf text = before ++ [last] :=
    ⟨_, _, (List.dropLast_concat_getLast (List.splitOn_ne_nil _ _)).symm⟩
  have hparts : text.splitOn newline = before ++ [last] := hlines
  have hboth : ∀ part : List UInt8,
      ((fun entry => !isComment entry) part && decide (part ≠ [])) = isEntry part :=
    fun part => Bool.and_comm _ _
  rw [Envz.createSep, if_neg htext]
  simp only [hparts, hlines, List.dropLast_concat, List.getLastD_concat, List.filter_append,
    List.filter_filter, hboth]
  have hend : text.getLast? = some newline ↔ last = [] := by
    rw [← getLastD_linesOf_eq_nil_iff, hlines, List.getLastD_concat, and_iff_right htext]
  rcases eq_or_ne last [] with rfl | hlast
  · have hkept : [([] : List UInt8)].filter (fun entry => !isComment entry) = [[]] := rfl
    have hentry : [([] : List UInt8)].filter isEntry = [] := rfl
    rw [if_pos (hend.mpr rfl), hkept, hentry, List.append_nil]
  · rw [if_neg fun h => hlast (hend.mp h), List.append_nil]
    congr 1
    refine List.filter_congr fun part hmem => ?_
    rw [List.mem_singleton.mp hmem, isEntry, decide_eq_true hlast, Bool.true_and]

/-- What is read of a file. -/
theorem configInit_complete (content heap : List UInt8) (h : 0 ∉ content) :
    configInit heap (.complete content)
      = (0, (linesOf (content ++ stringAt heap)).filter isEntry
          ++ if (content ++ stringAt heap).getLast? = some newline then [[]] else []) := by
  rw [configInit, removeComments_eq_filter, stringAt_of_not_mem h, filter_createSep]

/-! ### What follows the buffer -/

theorem isEntry_append {line : List UInt8} (h : line ≠ []) (rest : List UInt8) :
    isEntry (line ++ rest) = isEntry line := by
  have hhead : isComment (line ++ rest) = isComment line := by
    rw [isComment, isComment, List.head?_append_of_ne_nil _ h]
  rw [isEntry, isEntry, hhead, decide_eq_true h,
    decide_eq_true (List.append_ne_nil_of_left_ne_nil h rest)]

/-- The end of the file with what follows it has the entries it had alone. -/
theorem filter_isEntry_append_iff (last first : List UInt8) (others : List (List UInt8)) :
    ((last ++ first) :: others).filter isEntry = [last].filter isEntry ↔
      RestHarmless last first ∧ ∀ line ∈ others, isEntry line = false := by
  have hothers : others.filter isEntry = [] ↔ ∀ line ∈ others, isEntry line = false := by
    simp [List.filter_eq_nil_iff]
  rw [← hothers, RestHarmless]
  rcases eq_or_ne last [] with rfl | hlast
  · rw [if_pos rfl, List.nil_append, List.filter_cons, List.filter_cons_of_neg (by simp)]
    cases hfirst : isEntry first
    · simp
    · simp
  rw [if_neg hlast, List.filter_cons, isEntry_append hlast, List.filter_cons]
  cases hcomment : isComment last
  · have hentry : isEntry last = true := by rw [isEntry, hcomment, decide_eq_true hlast]; rfl
    simp [hentry]
  · have hentry : isEntry last = false := by rw [isEntry, hcomment, Bool.not_true, Bool.and_false]
    simp [hentry]

/-- The entries stay those of the file exactly when what follows it is harmless. -/
theorem filter_linesOf_append_iff (content rest : List UInt8) :
    (linesOf (content ++ rest)).filter isEntry = (linesOf content).filter isEntry ↔
      FollowsHarmless content rest := by
  have hlines : linesOf content
      = (linesOf content).dropLast ++ [(linesOf content).getLastD []] := by
    rw [linesOf, List.getLastD_eq_getLast?,
      List.getLast?_eq_some_getLast (List.splitOn_ne_nil _ _)]
    exact (List.dropLast_concat_getLast _).symm
  have happend : linesOf (content ++ rest) = (linesOf content).dropLast
      ++ ((linesOf content).getLastD [] ++ (linesOf rest).headD []) :: (linesOf rest).tail :=
    Envz.splitOn_append content rest
  have hkept : (linesOf content).filter isEntry = (linesOf content).dropLast.filter isEntry
      ++ [(linesOf content).getLastD []].filter isEntry := by
    rw [← List.filter_append, ← hlines]
  rw [happend, List.filter_append, hkept, List.append_cancel_left_eq, filter_isEntry_append_iff]
  exact ⟨fun h => ⟨h.1, h.2⟩, fun h => ⟨h.first, h.others⟩⟩

/-- **The lines of the file are read exactly** when the text does not end with a newline and what
follows it is harmless. -/
theorem configLinesLaw_iff {content : List UInt8} (h : 0 ∉ content) (heap : List UInt8) :
    ConfigLinesLaw content heap ↔
      (content ++ stringAt heap).getLast? ≠ some newline ∧
        FollowsHarmless content (stringAt heap) := by
  have hnil : ∀ lines : List (List UInt8), [] ∉ lines.filter isEntry := fun lines hmem =>
    Bool.false_ne_true (List.mem_filter.mp hmem).2
  rw [ConfigLinesLaw, configInit_complete content heap h, Prod.mk.injEq,
    ← filter_linesOf_append_iff]
  split_ifs with hempty
  · -- the empty entry at the end is no line of the file
    refine ⟨fun heq => absurd ?_ (hnil (linesOf content)), fun hlaw => absurd hempty hlaw.1⟩
    rw [← heq.2]
    exact List.mem_append_right _ (List.mem_singleton.mpr rfl)
  · rw [List.append_nil]
    exact ⟨fun heq => ⟨hempty, heq.2⟩, fun hlaw => ⟨rfl, hlaw.2⟩⟩

/-- A file without a newline at its end, and a buffer that happens to be terminated. -/
theorem configLinesLaw_iff_terminated :
    0 ∉ ascii "a=1" ∧ ConfigLinesLaw (ascii "a=1") [0] :=
  ⟨by decide, (configLinesLaw_iff (by decide) [0]).mpr
    ⟨by decide, ⟨by decide, by decide⟩⟩⟩

/-- An empty file, and a setting that an earlier use left behind the buffer. -/
theorem configLinesLaw_fails_empty_file :
    ¬ ConfigLinesLaw [] (ascii "calibrate_first=true") := by
  intro hlaw
  have hentries := congrArg (fun result => result.2.length) hlaw
  rw [configInit_complete [] _ (by decide)] at hentries
  exact absurd hentries (by decide)

end Oscillatord
