import Mathlib.Data.List.TakeWhile
import Oscillatord.Library.Lists
import Oscillatord.Oscillators.Descriptors

/-!
# The end of an mRO50 reset

`mRo50_reset` looks for `Start done>` in what the device prints. It searches a window of
`answer_str` that grows with each read, and throws the window away when it ends with a newline or
is full. So the windows cut the stream after reads that end a line and after every 128 bytes
without one, and the marker is found exactly when one of them holds it.

The marker has no newline in it, so the first kind of cut does not go through it
(`exists_window_of_lines`). The second kind may: `ResetLaw`, that the result is whether the marker
occurs in the stream, holds exactly of the streams whose marker is whole in one window and is not
preceded by a repetition of the command that cannot be written (`resetLaw_iff`).
-/

namespace Oscillatord

/-! ### Streams -/

/-- `Start done>`. -/
def startDoneMarker : List UInt8 :=
  [0x53, 0x74, 0x61, 0x72, 0x74, 0x20, 0x64, 0x6f, 0x6e, 0x65, 0x3e]

/-- What a turn reads. -/
def ResetTurn.bytes : ResetTurn → List UInt8
  | .read bytes _ => bytes
  | _ => []

/-- What the device sends before the timeout. -/
def resetStream (turns : List ResetTurn) : List UInt8 := turns.flatMap ResetTurn.bytes

/-- A window is thrown away once it ends a line or is full. -/
def windowCloses (window : List UInt8) : Bool :=
  window.getLast? == some 0x0a || window.length == 128

/-- No read takes more than there is space for, with this much read in the window. -/
def ReadsFit : List UInt8 → List ResetTurn → Prop
  | _, [] => True
  | window, .read bytes _ :: turns =>
    (window ++ bytes).length ≤ 128 ∧
      ReadsFit (if windowCloses (window ++ bytes) then [] else window ++ bytes) turns
  | window, _ :: turns => ReadsFit window turns

instance decidableReadsFit :
    (window : List UInt8) → (turns : List ResetTurn) → Decidable (ReadsFit window turns)
  | _, [] => .isTrue trivial
  | window, .read bytes _ :: turns =>
    have := decidableReadsFit
      (if windowCloses (window ++ bytes) then [] else window ++ bytes) turns
    inferInstanceAs (Decidable (_ ∧ _))
  | window, .pollError :: turns => decidableReadsFit window turns
  | window, .pollTimeout :: turns => decidableReadsFit window turns
  | window, .readError :: turns => decidableReadsFit window turns

/-- The windows, each with the outcome of the write should the command be repeated after it. The
last one is not closed. -/
def resetWindows : List UInt8 → List ResetTurn → List (List UInt8 × Bool)
  | window, [] => [(window, true)]
  | window, .read bytes rewritten :: turns =>
    if windowCloses (window ++ bytes) then (window ++ bytes, rewritten) :: resetWindows [] turns
    else resetWindows (window ++ bytes) turns
  | window, _ :: turns => resetWindows window turns

/-- A line that begins with a question mark: the command was not understood. -/
def RefusedLine (window : List UInt8) : Prop :=
  window.getLast? = some 0x0a ∧ 1 < window.length ∧ window.head? = some 0x3f

instance (window : List UInt8) : Decidable (RefusedLine window) := by
  unfold RefusedLine
  infer_instance

/-- The marker is whole in one of the windows, and each command repeated before it is written. -/
def MarkerFound : List (List UInt8 × Bool) → Prop
  | [] => False
  | (window, rewritten) :: windows =>
    startDoneMarker <:+: window ∨ ((RefusedLine window → rewritten = true) ∧ MarkerFound windows)

/-! ### The windows of a stream -/

/-- The windows are the stream. -/
theorem flatten_resetWindows (window : List UInt8) (turns : List ResetTurn) :
    ((resetWindows window turns).map Prod.fst).flatten = window ++ resetStream turns := by
  induction turns generalizing window with
  | nil => simp [resetWindows, resetStream]
  | cons turn turns ih =>
    cases turn with
    | read bytes rewritten =>
      rw [resetWindows]
      split_ifs with hcloses
      · rw [List.map_cons, List.flatten_cons, ih]
        simp [resetStream, ResetTurn.bytes]
      · rw [ih]
        simp [resetStream, ResetTurn.bytes]
    | pollError => exact ih window
    | pollTimeout => exact ih window
    | readError => exact ih window

/-- The window that is being filled goes on in the first one. -/
theorem exists_first_window (window : List UInt8) (turns : List ResetTurn) :
    ∃ more rewritten windows,
      resetWindows window turns = (window ++ more, rewritten) :: windows := by
  induction turns generalizing window with
  | nil => exact ⟨[], true, [], by rw [List.append_nil]; rfl⟩
  | cons turn turns ih =>
    cases turn with
    | read bytes rewritten =>
      rw [resetWindows]
      split_ifs with hcloses
      · exact ⟨bytes, rewritten, _, rfl⟩
      · obtain ⟨more, rewritten', windows, hwindows⟩ := ih (window ++ bytes)
        exact ⟨bytes ++ more, rewritten', windows, by rw [hwindows, List.append_assoc]⟩
    | pollError => exact ih window
    | pollTimeout => exact ih window
    | readError => exact ih window

/-- Every window but the last one ends a line or is full. -/
theorem closes_of_mem_dropLast {window : List UInt8} {turns : List ResetTurn}
    {w : List UInt8 × Bool} (h : w ∈ (resetWindows window turns).dropLast) :
    windowCloses w.1 = true := by
  induction turns generalizing window with
  | nil => cases h
  | cons turn turns ih =>
    cases turn with
    | read bytes rewritten =>
      rw [resetWindows] at h
      split_ifs at h with hcloses
      · obtain ⟨more, rewritten', windows, hwindows⟩ := exists_first_window [] turns
        have hne : resetWindows [] turns ≠ [] := by rw [hwindows]; exact List.cons_ne_nil _ _
        rw [List.dropLast_cons_of_ne_nil hne] at h
        rcases List.mem_cons.mp h with rfl | h
        · exact hcloses
        · exact ih h
      · exact ih h
    | pollError => exact ih h
    | pollTimeout => exact ih h
    | readError => exact ih h

/-- The end of a line does not go through the marker. -/
theorem infix_of_line {line rest : List UInt8} (hline : line.getLast? = some 0x0a)
    (h : startDoneMarker <:+: line ++ rest) :
    startDoneMarker <:+: line ∨ startDoneMarker <:+: rest := by
  rcases List.infix_append_iff_ne_nil.mp h with h | h | ⟨front, back, hfront, -, heq, hsuffix, -⟩
  · exact .inl h
  · exact .inr h
  · -- The front of the marker would end with a newline.
    obtain ⟨before, hbefore⟩ := hsuffix
    rw [← hbefore, List.getLast?_append_of_ne_nil before hfront] at hline
    have hmem : (0x0a : UInt8) ∈ startDoneMarker := by
      rw [heq]
      exact List.mem_append_left back (List.mem_of_getLast? hline)
    exact absurd hmem (by decide)

/-- **Lines are safe.** In a stream whose windows end lines, the marker is whole in one of them. -/
theorem exists_window_of_lines {windows : List (List UInt8 × Bool)}
    (hlines : ∀ w ∈ windows.dropLast, w.1.getLast? = some 0x0a)
    (h : startDoneMarker <:+: (windows.map Prod.fst).flatten) :
    ∃ w ∈ windows, startDoneMarker <:+: w.1 := by
  induction windows with
  | nil => exact absurd (List.infix_nil.mp h) (by decide)
  | cons w windows ih =>
    rcases eq_or_ne windows [] with rfl | hne
    · exact ⟨w, List.mem_singleton_self w, by simpa using h⟩
    · rw [List.dropLast_cons_of_ne_nil hne] at hlines
      rw [List.map_cons, List.flatten_cons] at h
      rcases infix_of_line (hlines w List.mem_cons_self) h with h | h
      · exact ⟨w, List.mem_cons_self, h⟩
      · obtain ⟨w', hmem, hw'⟩ := ih (fun w' hw' => hlines w' (List.mem_cons_of_mem _ hw')) h
        exact ⟨w', List.mem_cons_of_mem _ hmem, hw'⟩

/-! ### The search -/

/-- Without NUL, `strstr` looks for the marker in all that was read. -/
theorem startDone_iff {answer : List UInt8} (hnul : 0 ∉ answer) :
    startDone answer = true ↔ startDoneMarker <:+: answer := by
  have hall : answer.takeWhile (· ≠ 0) = answer :=
    List.takeWhile_eq_self_iff.mpr fun b hb => by
      have hne : b ≠ 0 := fun hzero => hnul (hzero ▸ hb)
      simpa using hne
  rw [startDone, hall, List.infix_iff_prefix_suffix]
  simp only [List.any_eq_true, List.mem_tails, List.isPrefixOf_iff_prefix]
  constructor
  · rintro ⟨tail, hsuffix, hprefix⟩
    exact ⟨tail, hprefix, hsuffix⟩
  · rintro ⟨tail, hprefix, hsuffix⟩
    exact ⟨tail, hsuffix, hprefix⟩

/-- The loop ends with the read that completes the marker. -/
theorem mRo50ResetLoop_of_found (fd : ℕ) {window bytes : List UInt8} {rewritten : Bool}
    {turns : List ResetTurn} (hfound : startDoneMarker <:+: window ++ bytes)
    (hnul : 0 ∉ window ++ bytes) :
    (mRo50ResetLoop fd (.read bytes rewritten :: turns) window).2 = true := by
  have hne : window ++ bytes ≠ [] := by
    intro hempty
    rw [hempty] at hfound
    exact absurd (List.infix_nil.mp hfound) (by decide)
  rw [mRo50ResetLoop]
  simp only [if_pos (And.intro hne ((startDone_iff hnul).mpr hfound))]

/-- After a read that does not complete it, the loop goes on with the window as it is or empty,
unless it cannot repeat the command. -/
theorem mRo50ResetLoop_of_not_found (fd : ℕ) {window bytes : List UInt8} {rewritten : Bool}
    {turns : List ResetTurn} (hfound : ¬ startDoneMarker <:+: window ++ bytes)
    (hnul : 0 ∉ window ++ bytes) :
    (mRo50ResetLoop fd (.read bytes rewritten :: turns) window).2 =
      if windowCloses (window ++ bytes) then
        if RefusedLine (window ++ bytes) ∧ rewritten = false then false
        else (mRo50ResetLoop fd turns []).2
      else (mRo50ResetLoop fd turns (window ++ bytes)).2 := by
  rw [mRo50ResetLoop]
  simp only [startDone_iff hnul, hfound, and_false, if_false]
  generalize window ++ bytes = answer
  by_cases hline : answer.getLast? = some 0x0a
  · have hcloses : windowCloses answer = true := by simp [windowCloses, hline]
    rw [if_pos hline, if_pos hcloses]
    by_cases hquestion : 1 < answer.length ∧ answer.head? = some 0x3f
    · rw [if_pos hquestion]
      cases rewritten with
      | true => simp
      | false => simp [RefusedLine, hline, hquestion]
    · rw [if_neg hquestion, if_neg fun h => hquestion h.1.2]
  · have hnot : ¬ RefusedLine answer := fun h => hline h.1
    rw [if_neg hline]
    by_cases hfull : answer.length = 128
    · have hcloses : windowCloses answer = true := by simp [windowCloses, hfull]
      rw [if_pos hfull, if_pos hcloses, if_neg fun h => hnot h.1]
    · have hcloses : ¬ windowCloses answer = true := by simp [windowCloses, hline, hfull]
      rw [if_neg hcloses, if_neg hfull]

/-- The first window holds all that is read into it. -/
theorem markerFound_read {window bytes : List UInt8}
    (hfound : startDoneMarker <:+: window ++ bytes) (rewritten : Bool) (turns : List ResetTurn) :
    MarkerFound (resetWindows window (.read bytes rewritten :: turns)) := by
  rw [resetWindows]
  split_ifs with hcloses
  · exact .inl hfound
  · obtain ⟨more, rewritten', windows, hwindows⟩ := exists_first_window (window ++ bytes) turns
    rw [hwindows]
    exact .inl (hfound.trans (List.infix_append' [] _ more))

/-- **What the loop finds**, from a window in which the marker was not found so far. -/
theorem mRo50ResetLoop_iff (fd : ℕ) {turns : List ResetTurn} {window : List UInt8}
    (hnul : 0 ∉ window ++ resetStream turns) (hnone : ¬ startDoneMarker <:+: window) :
    (mRo50ResetLoop fd turns window).2 = true ↔ MarkerFound (resetWindows window turns) := by
  induction turns generalizing window with
  | nil =>
    simp [mRo50ResetLoop, resetWindows, MarkerFound, hnone]
  | cons turn turns ih =>
    cases turn with
    | read bytes rewritten =>
      have hstream : window ++ resetStream (.read bytes rewritten :: turns)
          = window ++ bytes ++ resetStream turns := by
        simp [resetStream, ResetTurn.bytes]
      rw [hstream] at hnul
      have hnul' : 0 ∉ window ++ bytes := fun h => hnul (List.mem_append_left _ h)
      have hrest : 0 ∉ [] ++ resetStream turns := fun h => hnul (List.mem_append_right _ h)
      by_cases hfound : startDoneMarker <:+: window ++ bytes
      · -- It is found, and the window holds it whether it is thrown away now or later.
        rw [mRo50ResetLoop_of_found fd hfound hnul']
        exact iff_of_true rfl (markerFound_read hfound rewritten turns)
      · rw [mRo50ResetLoop_of_not_found fd hfound hnul', resetWindows]
        by_cases hcloses : windowCloses (window ++ bytes) = true
        · rw [if_pos hcloses, if_pos hcloses, MarkerFound]
          split_ifs with hrefused
          · simp [hfound, hrefused]
          · rw [ih hrest (fun h => absurd (List.infix_nil.mp h) (by decide))]
            simp only [hfound, false_or]
            exact (and_iff_right fun h => by simpa using mt (And.intro h) hrefused).symm
        · rw [if_neg hcloses, if_neg hcloses]
          exact ih hnul hfound
    | pollError => exact ih hnul hnone
    | pollTimeout => exact ih hnul hnone
    | readError => exact ih hnul hnone

/-- A marker in a window is found, if every repetition of the command is written. -/
theorem markerFound_iff_exists {windows : List (List UInt8 × Bool)}
    (hrewritten : ∀ w ∈ windows, w.2 = true) :
    MarkerFound windows ↔ ∃ w ∈ windows, startDoneMarker <:+: w.1 := by
  induction windows with
  | nil => simp [MarkerFound]
  | cons w windows ih =>
    have hw : w.2 = true := hrewritten w List.mem_cons_self
    simp [MarkerFound, hw, ih fun w' hw' => hrewritten w' (List.mem_cons_of_mem _ hw')]

/-- A marker in a window is in the stream. -/
theorem infix_of_markerFound {windows : List (List UInt8 × Bool)} (h : MarkerFound windows) :
    startDoneMarker <:+: (windows.map Prod.fst).flatten := by
  induction windows with
  | nil => exact h.elim
  | cons w windows ih =>
    rw [List.map_cons, List.flatten_cons]
    rcases h with h | ⟨-, h⟩
    · exact h.trans (List.infix_append' [] _ _)
    · exact (ih h).trans ((List.suffix_append _ _).isInfix)

/-! ### The indices written -/

/-- The indices of `answer_str` that the loop writes: those `read` fills, the NUL after them, and
the NUL over the last of them when the line is logged. -/
def resetIndices : List ResetTurn → List UInt8 → List ℕ
  | [], _ => []
  | .read bytes rewritten :: turns, read =>
    let answer := read ++ bytes
    let filled := List.range' read.length bytes.length
    if answer = [] then filled ++ resetIndices turns answer
    else if startDone answer then filled ++ [answer.length, answer.length - 1]
    else if answer.getLast? = some 0x0a then
      if 1 < answer.length then
        filled ++ [answer.length, answer.length - 1] ++
          if answer.head? = some 0x3f ∧ rewritten = false then [] else resetIndices turns []
      else filled ++ [answer.length] ++ resetIndices turns []
    else
      filled ++ [answer.length] ++
        resetIndices turns (if answer.length = 128 then [] else answer)
  | _ :: turns, read => resetIndices turns read

/-- An index is written after the first read or after a later one. -/
theorem mem_resetIndices_read {window bytes : List UInt8} {rewritten : Bool}
    {turns : List ResetTurn} {i : ℕ}
    (hi : i ∈ resetIndices (.read bytes rewritten :: turns) window) :
    i ∈ List.range' window.length bytes.length ++
        [(window ++ bytes).length, (window ++ bytes).length - 1] ∨
      i ∈ resetIndices turns (if windowCloses (window ++ bytes) then [] else window ++ bytes) := by
  rw [resetIndices] at hi
  generalize window ++ bytes = answer at hi ⊢
  by_cases hline : answer.getLast? = some 0x0a
  · have hcloses : windowCloses answer = true := by simp [windowCloses, hline]
    have hne : answer ≠ [] := by
      rintro rfl
      cases hline
    rw [if_neg hne, if_pos hline] at hi
    rw [if_pos hcloses]
    split_ifs at hi <;> simp only [List.mem_append, List.mem_cons] at hi ⊢ <;> tauto
  · have hcloses : windowCloses answer = (answer.length == 128) := by simp [windowCloses, hline]
    rw [if_neg hline] at hi
    simp only [hcloses, beq_iff_eq]
    split_ifs at hi with hempty hdone hfull
    · simp only [hempty, List.mem_append] at hi ⊢
      exact hi.imp_left .inl
    all_goals simp only [List.mem_append, List.mem_cons] at hi ⊢
    · tauto
    · rw [if_pos hfull]
      tauto
    · rw [if_neg hfull]
      tauto

/-- What a read fills and the NUL after it are within the buffer. -/
theorem lt_of_mem_filled {window bytes : List UInt8} (hlen : (window ++ bytes).length ≤ 128)
    {i : ℕ} (hi : i ∈ List.range' window.length bytes.length ++
      [(window ++ bytes).length, (window ++ bytes).length - 1]) : i < 129 := by
  rw [List.length_append] at hlen hi
  simp only [List.mem_append, List.mem_range'_1, List.mem_cons, List.not_mem_nil, or_false] at hi
  omega

/-- **The indices are within `answer_str`**, which has 129 bytes. -/
theorem lt_of_mem_resetIndices {turns : List ResetTurn} {window : List UInt8}
    (hfits : ReadsFit window turns) : ∀ i ∈ resetIndices turns window, i < 129 := by
  intro i hi
  induction turns generalizing window with
  | nil => cases hi
  | cons turn turns ih =>
    cases turn with
    | read bytes rewritten =>
      obtain ⟨hlen, hrest⟩ := hfits
      rcases mem_resetIndices_read hi with hi | hi
      · exact lt_of_mem_filled hlen hi
      · exact ih hrest hi
    | pollError => exact ih hfits hi
    | pollTimeout => exact ih hfits hi
    | readError => exact ih hfits hi

/-! ### Where the search is right -/

/-- A device that sends no NUL, over reads that take no more than there is space for. -/
structure ResetIo.Sound (io : ResetIo) : Prop where
  fits : ReadsFit [] io.turns
  nul : 0 ∉ resetStream io.turns

/-- **The law of the reset** for some of what the device may do: the result is whether the marker
occurs in the stream, it depends on the stream alone, and the indices written are within
`answer_str`. -/
structure ResetLaw (devices : Set ResetIo) : Prop where
  recognises : ∀ io ∈ devices, ∀ fd,
    (mRo50Reset io fd).2 = true ↔ startDoneMarker <:+: resetStream io.turns
  chunks : ∀ io ∈ devices, ∀ io' ∈ devices, resetStream io.turns = resetStream io'.turns →
    ∀ fd, (mRo50Reset io fd).2 = (mRo50Reset io' fd).2
  inside : ∀ io ∈ devices, ∀ i ∈ resetIndices io.turns [], i < 129

/-- The marker does not occur; or it is whole in one of the windows, the command is written, and
so is each repetition of it before that window. -/
def ResetKept (io : ResetIo) : Prop :=
  startDoneMarker <:+: resetStream io.turns →
    io.written = true ∧ MarkerFound (resetWindows [] io.turns)

/-- What the reset returns. -/
theorem mRo50Reset_iff {io : ResetIo} (hio : io.Sound) (fd : ℕ) :
    (mRo50Reset io fd).2 = true ↔
      io.written = true ∧ MarkerFound (resetWindows [] io.turns) := by
  have hnone : ¬ startDoneMarker <:+: ([] : List UInt8) :=
    fun h => absurd (List.infix_nil.mp h) (by decide)
  have hloop := mRo50ResetLoop_iff fd hio.nul hnone
  rw [mRo50Reset]
  split_ifs with hwritten
  · simp [hwritten, hloop]
  · simp [hwritten]

/-- The reset recognises its end in the streams that keep the marker whole. -/
theorem recognises_iff {io : ResetIo} (hio : io.Sound) (fd : ℕ) :
    ((mRo50Reset io fd).2 = true ↔ startDoneMarker <:+: resetStream io.turns) ↔
      ResetKept io := by
  rw [mRo50Reset_iff hio fd, ResetKept]
  constructor
  · exact fun h => h.mpr
  · intro h
    refine ⟨?_, h⟩
    rintro ⟨-, hfound⟩
    have hinfix := infix_of_markerFound hfound
    rwa [flatten_resetWindows, List.nil_append] at hinfix

/-- A device that sends lines, each ended by the read that ends it, is recognised. -/
theorem resetKept_of_lines {io : ResetIo} (hwritten : io.written = true)
    (hrewritten : ∀ w ∈ resetWindows [] io.turns, w.2 = true)
    (hlines : ∀ w ∈ (resetWindows [] io.turns).dropLast, w.1.length < 128) : ResetKept io := by
  intro hmarker
  refine ⟨hwritten, (markerFound_iff_exists hrewritten).mpr (exists_window_of_lines ?_ ?_)⟩
  · intro w hw
    have hcloses := closes_of_mem_dropLast hw
    have hlen := hlines w hw
    simpa [windowCloses, hlen.ne] using hcloses
  · rwa [flatten_resetWindows, List.nil_append]

/-- **The law holds of exactly the devices** whose marker, if they send it, is whole in a window. -/
theorem resetLaw_iff {devices : Set ResetIo} (hsound : ∀ io ∈ devices, io.Sound) :
    ResetLaw devices ↔ ∀ io ∈ devices, ResetKept io := by
  constructor
  · intro hlaw io hio
    exact (recognises_iff (hsound io hio) 0).mp (hlaw.recognises io hio 0)
  · intro hkept
    have hrecognises : ∀ io ∈ devices, ∀ fd,
        (mRo50Reset io fd).2 = true ↔ startDoneMarker <:+: resetStream io.turns :=
      fun io hio fd => (recognises_iff (hsound io hio) fd).mpr (hkept io hio)
    refine ⟨hrecognises, ?_, fun io hio => lt_of_mem_resetIndices (hsound io hio).fits⟩
    intro io hio io' hio' hstream fd
    rw [Bool.eq_iff_iff, hrecognises io hio, hrecognises io' hio', hstream]

/-- A banner of 120 bytes and the first 8 of the marker, in a read that fills the window, and then
the rest of the marker. -/
def straddlingReset : ResetIo where
  written := true
  turns := [.read (List.replicate 120 0x41 ++ startDoneMarker.take 8) true,
    .read (startDoneMarker.drop 8) true]

/-- The same device, its banner read as a line. -/
def wholeReset : ResetIo where
  written := true
  turns := [.read (List.replicate 119 0x41 ++ [0x0a]) true, .pollTimeout,
    .read (startDoneMarker.take 8) true, .read (startDoneMarker.drop 8) true]

/-- The devices of which the law holds: a reset that is found, after a line. -/
theorem resetLaw_whole :
    (∀ io ∈ ({wholeReset} : Set ResetIo), io.Sound) ∧
      (ResetLaw {wholeReset} ↔ ∀ io ∈ ({wholeReset} : Set ResetIo), ResetKept io) := by
  have hsound : ∀ io ∈ ({wholeReset} : Set ResetIo), io.Sound := by
    rintro io rfl
    exact ⟨by decide +kernel, by decide⟩
  exact ⟨hsound, resetLaw_iff hsound⟩

/-- **The marker may be cut by a full window**, and the reset then times out. -/
theorem resetLaw_fails_straddling : ¬ ResetLaw {io | io.Sound} := by
  intro hlaw
  have hsound : straddlingReset.Sound :=
    ⟨by decide +kernel, by decide⟩
  have hmarker : startDoneMarker <:+: resetStream straddlingReset.turns :=
    ⟨List.replicate 120 0x41, [], rfl⟩
  have hfound := (hlaw.recognises straddlingReset hsound 0).mpr hmarker
  exact absurd hfound (by decide +kernel)

end Oscillatord
