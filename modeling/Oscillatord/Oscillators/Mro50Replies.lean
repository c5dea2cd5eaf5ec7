import Oscillatord.Library.Isolation
import Oscillatord.Library.NumberEnds
import Oscillatord.Oscillators.Mro50Calibration
import Oscillatord.Oscillators.Mro50Reset
import Oscillatord.Oscillators.Sa5xAnswers

/-!
# What the mRO50 shows of earlier replies

All commands of the mRO50 read their replies into one static buffer, without a terminator, and
clear it on some of their ways out: a number that was read is cleared and so is what is no answer;
a reply to a write that is not the two line feeds stays, and so does one whose port cannot be
reopened, a status whose temperature cannot be computed, and the last window of a reset. The
status copies four characters into an array on the stack that leaves no room for a terminator, and
`strtoul` goes on behind it.

A command is isolated when its result is the same after any two histories of the same commands.
Since an accepted reply ends with two line feeds, a number read is isolated unless the reply is
all white space and a command that may leave a reply behind came before; a status is isolated
unless the number goes on to the end of its four characters (`isolated_mRo50_iff`).
-/

namespace Oscillatord

open CText StepRun Isolation

/-! ### The commands -/

/-- What a command meets, with no more bytes than are read. -/
structure Mro50Exchange extends Exchange where
  fits : reads.flatten.length ≤ 128
  deriving Repr, DecidableEq

/-- The bytes read into the buffer. -/
def Mro50Exchange.bytes (x : Mro50Exchange) : List UInt8 :=
  if x.written then x.reads.flatten else []

/-- `mRo50_oscillator_cmd`: the answer whose length it returns, and the memory from `answer_str`
on. All that was read is cleared where there is no answer. -/
def mRo50CmdInto (x : Mro50Exchange) (memory : List UInt8) : Option (List UInt8) × List UInt8 :=
  match mRo50OscillatorCmd x.toExchange with
  | some answer => (some answer, overwriteAnswer x.bytes memory)
  | none => (none, clearAnswer x.bytes.length (overwriteAnswer x.bytes memory))

/-- What `mRo50_clean_serial` meets. -/
structure Mro50Clean where
  reopened : Bool
  attributes : TermiosOutcome
  exchange : Mro50Exchange
  deriving Repr, DecidableEq

/-- `mRo50_clean_serial`. -/
def mRo50CleanInto (io : Mro50Clean) (memory : List UInt8) : List UInt8 :=
  if io.reopened = true ∧ io.attributes = .ok then
    clearAnswer 128 (mRo50CmdInto io.exchange memory).2
  else memory

/-- What `mRo50_reset` leaves in the buffer, from a window that was read into it. -/
def resetMemory : List ResetTurn → List UInt8 → List UInt8 → List UInt8
  | [], _, memory => memory
  | .read bytes rewritten :: turns, read, memory =>
    let answer := read ++ bytes
    -- the NUL after what was read, and the one over its end when it is logged
    let ended := overwriteAnswer (answer ++ [0]) memory
    let logged := overwriteAnswer (answer.dropLast ++ [0, 0]) memory
    if answer = [] then resetMemory turns answer memory
    else if startDone answer then logged
    else if answer.getLast? = some 0x0a then
      if 1 < answer.length then
        if answer.head? = some 0x3f ∧ rewritten = false then logged
        else resetMemory turns [] logged
      else resetMemory turns [] ended
    else resetMemory turns (if answer.length = 128 then [] else answer) ended
  | _ :: turns, read, memory => resetMemory turns read memory

/-- The numbers that are read. -/
inductive Mro50Number
  | coarse
  | fine
  | tempParamA
  | tempParamB
  deriving Repr, DecidableEq

/-- The commands of the driver. -/
inductive Mro50Command
  | read (number : Mro50Number)
  | readStatus
  | write (coarse : Bool)
  | reset
  deriving Repr, DecidableEq

/-- What the driver meets in a command, and what the command leaves on the stack where the status
has its array. -/
structure Mro50Met where
  exchange : Mro50Exchange
  clean : Mro50Clean
  reset : ResetIo
  fits : ReadsFit [] reset.turns
  stack : List UInt8
  deriving Repr, DecidableEq

/-- What a command shows: that it fails or succeeds, the number it reads, or the temperature
register, the lock, and whether there is a temperature. -/
inductive Mro50Shown
  | failed
  | done
  | number (value : ℤ)
  | status (value : ℤ) (locked : Bool) (ok : Bool)
  deriving Repr, DecidableEq

/-- The commands of `mRo50_oscillator_get_ctrl` and `read_temperature_compensation_parameters`. -/
def mRo50Read (met : Mro50Met) (memory : List UInt8) : Mro50Shown × List UInt8 :=
  match mRo50CmdInto met.exchange memory with
  | (some answer, memory) =>
    (match scanInt 16 (cString memory) with
      | .number value _ => .number (unsignedOf value)
      | .noMatch | .ended => .failed,
      clearAnswer answer.length memory)
  | (none, memory) => (.failed, mRo50CleanInto met.clean memory)

/-- `strtoul` in base 16, cut to 32 bits. -/
def registerOf (text : List UInt8) : ℤ :=
  match scanInt 16 (cString text) with
  | .number value _ => unsignedOf value
  | .noMatch | .ended => 0

/-- `mRo50_oscillatord_get_attributes`, where `dummy` are the registers that `compute_temp` has no
temperature for. -/
def mRo50ReadStatus (dummy : ℤ → Bool) (met : Mro50Met) (stack memory : List UInt8) :
    Mro50Shown × List UInt8 :=
  match mRo50CmdInto met.exchange memory with
  | (some answer, memory) =>
    if answer.length = 62 then
      let memory := memory.set 60 0
      -- the four characters fill the array, and what follows on the stack follows them
      let value := registerOf ((memory.drop 52).take 4 ++ stack)
      let locked := (memory.getD 56 0).toNat.testBit 2
      if dummy value then (.status value locked false, memory)
      else (.status value locked true, clearAnswer 62 memory)
    else (.failed, mRo50CleanInto met.clean memory)
  | (none, memory) => (.failed, mRo50CleanInto met.clean memory)

/-- `mRo50_oscillator_apply_output`. -/
def mRo50Write (met : Mro50Met) (memory : List UInt8) : Mro50Shown × List UInt8 :=
  match mRo50CmdInto met.exchange memory with
  | (some answer, memory) =>
    if answer.length = 2 then (.done, clearAnswer 128 memory) else (.failed, memory)
  | (none, memory) => (.failed, memory)

/-- `mRo50_reset`. -/
def mRo50ResetInto (met : Mro50Met) (memory : List UInt8) : Mro50Shown × List UInt8 :=
  (if (mRo50Reset met.reset 0).2 then .done else .failed,
    if met.reset.written then resetMemory met.reset.turns [] memory else memory)

/-- The buffer, and the stack behind the array of the status. -/
structure Mro50Memory where
  answerStr : List UInt8
  stack : List UInt8
  deriving Repr, DecidableEq

/-- A command. -/
def mRo50Perform (dummy : ℤ → Bool) (s : Mro50Memory) (call : Mro50Command × Mro50Met) :
    Mro50Shown × List UInt8 :=
  match call.1 with
  | .read _ => mRo50Read call.2 s.answerStr
  | .readStatus => mRo50ReadStatus dummy call.2 s.stack s.answerStr
  | .write _ => mRo50Write call.2 s.answerStr
  | .reset => mRo50ResetInto call.2 s.answerStr

/-- What a command shows. -/
def mRo50Shows (dummy : ℤ → Bool) (s : Mro50Memory) (call : Mro50Command × Mro50Met) :
    Mro50Shown :=
  (mRo50Perform dummy s call).1

/-- The memory after a command. -/
def mRo50MemoryStep (dummy : ℤ → Bool) (s : Mro50Memory) (call : Mro50Command × Mro50Met) :
    Mro50Memory where
  answerStr := (mRo50Perform dummy s call).2
  stack := call.2.stack

/-- The memory the program starts with. -/
def mRo50MemoryStart : Mro50Memory where
  answerStr := List.replicate 129 0
  stack := []

/-- After any two histories of the same commands, the command shows the same. -/
def Mro50Isolated (dummy : ℤ → Bool) (cmds : List Mro50Command)
    (call : Mro50Command × Mro50Met) : Prop :=
  Isolated (mRo50MemoryStep dummy) (mRo50Shows dummy) mRo50MemoryStart cmds call

/-! ### Where replies are isolated -/

/-- The command may leave a reply in the buffer. -/
def Mro50Command.KeepsReply : Mro50Command → Prop
  | .readStatus | .write _ => True
  | .read _ | .reset => False

/-- Some of the commands may leave text in the buffer behind the first `n` bytes. What the last two
of these are after a reply are its line feeds. -/
def LeavesText (cmds : List Mro50Command) (n : ℕ) : Prop :=
  (n < 126 ∧ ∃ cmd ∈ cmds, cmd.KeepsReply) ∨ (n < 128 ∧ .reset ∈ cmds)

/-- The condition on a command: white space is no answer to `read` after commands that may leave
text, and the number in a status ends within its four characters. -/
def Mro50Alone (cmds : List Mro50Command) (call : Mro50Command × Mro50Met) : Prop :=
  ∀ answer, mRo50OscillatorCmd call.2.exchange.toExchange = some answer →
    match call.1 with
    | .read _ => (∀ b ∈ answer, isSpace b = true) → ¬ LeavesText cmds answer.length
    | .readStatus => answer.length = 62 → cmds ≠ [] →
      0 ∈ (answer.drop 52).take 4 ∨ NumberEnds 16 ((answer.drop 52).take 4)
    | .write _ | .reset => True

/-! ### The buffer -/

theorem overwriteAnswer_of_le {bytes memory : List UInt8} {n : ℕ} (h : bytes.length ≤ n) :
    clearAnswer n (overwriteAnswer bytes memory) = clearAnswer n memory := by
  simp only [clearAnswer, overwriteAnswer, List.length_replicate, List.drop_append,
    List.drop_eq_nil_of_le h, List.nil_append, List.drop_drop]
  rw [Nat.add_sub_cancel' h]

/-- Behind its first `k` bytes there is nothing but line feeds and NUL. -/
def QuietFrom (k : ℕ) (memory : List UInt8) : Prop := ∀ b ∈ memory.drop k, b = 0 ∨ b = 0x0a

theorem QuietFrom.mono {k l : ℕ} {memory : List UInt8} (h : QuietFrom k memory) (hle : k ≤ l) :
    QuietFrom l memory := fun b hb => h b ((List.drop_sublist_drop_left memory hle).subset hb)

theorem QuietFrom.overwrite {k : ℕ} {bytes memory : List UInt8} (h : QuietFrom k memory)
    (hbytes : QuietFrom k bytes) : QuietFrom k (overwriteAnswer bytes memory) := by
  intro b hb
  rw [overwriteAnswer, List.drop_append, List.drop_drop] at hb
  rcases List.mem_append.mp hb with hb | hb
  · exact hbytes b hb
  · exact h.mono (by omega) b hb

theorem QuietFrom.clear {k : ℕ} {memory : List UInt8} (h : QuietFrom k memory) (n : ℕ) :
    QuietFrom k (clearAnswer n memory) :=
  h.overwrite fun _ hb => .inl (List.eq_of_mem_replicate (List.mem_of_mem_drop hb))

theorem QuietFrom.set {k i : ℕ} {memory : List UInt8} (h : QuietFrom k memory) :
    QuietFrom k (memory.set i 0) := by
  intro b hb
  rw [List.drop_set] at hb
  split_ifs at hb
  · exact h b hb
  · rcases List.mem_or_eq_of_mem_set hb with hb | rfl
    · exact h b hb
    · exact .inl rfl

/-! ### Answers -/

/-- An answer is what was read; it fits, and ends with two line feeds. -/
theorem answer_spec {x : Mro50Exchange} {answer : List UInt8}
    (h : mRo50OscillatorCmd x.toExchange = some answer) :
    x.bytes = answer ∧ answer.length ≤ 128 ∧ ∃ text, answer = text ++ [0x0a, 0x0a] := by
  have hfits := x.fits
  simp only [mRo50OscillatorCmd] at h
  split_ifs at h with hfailed hempty hquestion hend
  cases h
  have hwritten : x.written = true := by
    by_contra hnot
    simp [hnot] at hfailed
  refine ⟨if_pos hwritten, hfits, x.reads.flatten.take (x.reads.flatten.length - 2), ?_⟩
  obtain ⟨-, hfeeds⟩ := not_or.mp hend
  rw [← not_not.mp hfeeds, List.take_append_drop]

/-- The bytes behind the 126th of an answer are its line feeds. -/
theorem quietFrom_of_answer {x : Mro50Exchange} {answer : List UInt8}
    (h : mRo50OscillatorCmd x.toExchange = some answer) : QuietFrom 126 answer := by
  obtain ⟨-, hlength, text, rfl⟩ := answer_spec h
  rw [List.length_append] at hlength
  intro b hb
  rw [List.drop_append, List.drop_eq_nil_of_le (by simpa using hlength), List.nil_append] at hb
  exact .inr (by simpa using List.mem_of_mem_drop hb)

/-- A command with an answer. -/
theorem mRo50CmdInto_of_answer {x : Mro50Exchange} {answer : List UInt8}
    (h : mRo50OscillatorCmd x.toExchange = some answer) (memory : List UInt8) :
    mRo50CmdInto x memory = (some answer, overwriteAnswer answer memory) := by
  simp only [mRo50CmdInto, h, (answer_spec h).1]

/-- A command without an answer clears what it has read. -/
theorem mRo50CmdInto_of_none {x : Mro50Exchange}
    (h : mRo50OscillatorCmd x.toExchange = none) (memory : List UInt8) :
    mRo50CmdInto x memory = (none, clearAnswer x.bytes.length memory) := by
  simp only [mRo50CmdInto, h, overwriteAnswer_of_le le_rfl]

theorem QuietFrom.cleanInto {k : ℕ} {memory : List UInt8} (h : QuietFrom k memory)
    (io : Mro50Clean) : QuietFrom k (mRo50CleanInto io memory) := by
  rw [mRo50CleanInto]
  split_ifs
  · cases hcmd : mRo50OscillatorCmd io.exchange.toExchange with
    | none =>
      rw [mRo50CmdInto_of_none hcmd]
      exact (h.clear _).clear _
    | some answer =>
      rw [mRo50CmdInto_of_answer hcmd, overwriteAnswer_of_le (answer_spec hcmd).2.1]
      exact h.clear _
  · exact h

/-! ### What the commands keep quiet -/

/-- A number that is read leaves nothing behind. -/
theorem QuietFrom.read {k : ℕ} {memory : List UInt8} (h : QuietFrom k memory) (met : Mro50Met) :
    QuietFrom k (mRo50Read met memory).2 := by
  rw [mRo50Read]
  cases hcmd : mRo50OscillatorCmd met.exchange.toExchange with
  | none =>
    rw [mRo50CmdInto_of_none hcmd]
    exact (h.clear _).cleanInto _
  | some answer =>
    rw [mRo50CmdInto_of_answer hcmd]
    simp only [overwriteAnswer_of_le (le_refl answer.length)]
    exact h.clear _

theorem QuietFrom.write {k : ℕ} {memory : List UInt8} (h : QuietFrom k memory) (hk : 126 ≤ k)
    (met : Mro50Met) : QuietFrom k (mRo50Write met memory).2 := by
  rw [mRo50Write]
  cases hcmd : mRo50OscillatorCmd met.exchange.toExchange with
  | none =>
    rw [mRo50CmdInto_of_none hcmd]
    exact h.clear _
  | some answer =>
    have hkept := h.overwrite ((quietFrom_of_answer hcmd).mono hk)
    rw [mRo50CmdInto_of_answer hcmd]
    dsimp only
    split_ifs
    · exact hkept.clear _
    · exact hkept

theorem QuietFrom.readStatus {k : ℕ} {memory : List UInt8} (h : QuietFrom k memory) (hk : 126 ≤ k)
    (dummy : ℤ → Bool) (met : Mro50Met) (stack : List UInt8) :
    QuietFrom k (mRo50ReadStatus dummy met stack memory).2 := by
  rw [mRo50ReadStatus]
  cases hcmd : mRo50OscillatorCmd met.exchange.toExchange with
  | none =>
    rw [mRo50CmdInto_of_none hcmd]
    exact (h.clear _).cleanInto _
  | some answer =>
    have hkept := h.overwrite ((quietFrom_of_answer hcmd).mono hk)
    rw [mRo50CmdInto_of_answer hcmd]
    dsimp only
    split_ifs
    · exact hkept.set
    · exact hkept.set.clear _
    · exact hkept.cleanInto _

/-- A read of a reset changes no more than the window and the NUL behind it. -/
theorem resetMemory_read (window bytes memory : List UInt8) (rewritten : Bool)
    (turns : List ResetTurn) :
    ∃ memory', (memory' = memory ∨
        memory' = overwriteAnswer (window ++ bytes ++ [0]) memory ∨
        memory' = overwriteAnswer ((window ++ bytes).dropLast ++ [0, 0]) memory) ∧
      (resetMemory (.read bytes rewritten :: turns) window memory = memory' ∨
        resetMemory (.read bytes rewritten :: turns) window memory = resetMemory turns
          (if windowCloses (window ++ bytes) then [] else window ++ bytes) memory') := by
  rw [resetMemory]
  generalize window ++ bytes = answer
  by_cases hempty : answer = []
  · refine ⟨memory, .inl rfl, .inr ?_⟩
    simp [hempty, windowCloses]
  rw [if_neg hempty]
  by_cases hdone : startDone answer = true
  · exact ⟨_, .inr (.inr rfl), .inl (if_pos hdone)⟩
  rw [if_neg hdone]
  by_cases hline : answer.getLast? = some 0x0a
  · have hcloses : windowCloses answer = true := by simp [windowCloses, hline]
    rw [if_pos hline, if_pos hcloses]
    by_cases hlong : 1 < answer.length
    · refine ⟨_, .inr (.inr rfl), ?_⟩
      rw [if_pos hlong]
      split_ifs
      · exact .inl rfl
      · exact .inr rfl
    · exact ⟨_, .inr (.inl rfl), .inr (if_neg hlong)⟩
  · have hcloses : windowCloses answer = (answer.length == 128) := by simp [windowCloses, hline]
    refine ⟨_, .inr (.inl rfl), .inr ?_⟩
    simp only [if_neg hline, hcloses, beq_iff_eq]

/-- A reset writes NUL behind its windows. -/
theorem QuietFrom.resetMemory {turns : List ResetTurn} {window memory : List UInt8}
    (h : QuietFrom 128 memory) (hfits : ReadsFit window turns) :
    QuietFrom 128 (resetMemory turns window memory) := by
  induction turns generalizing window memory with
  | nil => exact h
  | cons turn turns ih =>
    cases turn with
    | read bytes rewritten =>
      obtain ⟨hlength, hrest⟩ := hfits
      obtain ⟨memory', hmemory', hreset⟩ :=
        resetMemory_read window bytes memory rewritten turns
      have hquiet : QuietFrom 128 memory' := by
        rcases hmemory' with rfl | rfl | rfl
        · exact h
        · refine h.overwrite fun b hb => .inl ?_
          rw [List.drop_append, List.drop_eq_nil_of_le hlength, List.nil_append] at hb
          simpa using List.mem_of_mem_drop hb
        · refine h.overwrite fun b hb => .inl ?_
          rw [List.drop_append, List.drop_eq_nil_of_le (by rw [List.length_dropLast]; omega),
            List.nil_append] at hb
          simpa using List.mem_of_mem_drop hb
      rcases hreset with hreset | hreset
      · rwa [hreset]
      · rw [hreset]
        exact ih hquiet hrest
    | pollError => exact ih h hfits
    | pollTimeout => exact ih h hfits
    | readError => exact ih h hfits

/-! ### Numbers -/

section Read

variable {met : Mro50Met} {answer : List UInt8}
  (h : mRo50OscillatorCmd met.exchange.toExchange = some answer)

include h

theorem mRo50Read_of_answer (memory : List UInt8) :
    (mRo50Read met memory).1 =
      match scanInt 16 (cString (overwriteAnswer answer memory)) with
      | .number value _ => .number (unsignedOf value)
      | .noMatch | .ended => .failed := by
  rw [mRo50Read, mRo50CmdInto_of_answer h]

/-- An answer that is not all white space says what it says alone. -/
theorem mRo50Read_of_not_white (hwhite : ¬ ∀ b ∈ answer, isSpace b = true)
    (memory memory' : List UInt8) : (mRo50Read met memory).1 = (mRo50Read met memory').1 := by
  rw [mRo50Read_of_answer h, mRo50Read_of_answer h, overwriteAnswer, overwriteAnswer]
  by_cases hnul : 0 ∈ answer
  · rw [cString_append_of_mem hnul, cString_append_of_mem hnul]
  · -- Its line feed ends the number.
    have hends : NumberEnds 16 answer := by
      obtain ⟨-, -, text, rfl⟩ := answer_spec h
      have hskip : ((text ++ [0x0a, 0x0a]).dropWhile isSpace) ≠ [] := fun hall =>
        hwhite (List.dropWhile_eq_nil_iff.mp hall)
      refine numberEnds_of_mem (c := 0x0a) ?_ (by decide) (by decide) (by decide)
      have hlast : ((text ++ [0x0a, 0x0a]).dropWhile isSpace).getLast hskip = 0x0a := by
        rw [(List.dropWhile_suffix isSpace).getLast]
        simp
      have hmem := List.getLast_mem hskip
      rwa [hlast] at hmem
    rw [cString_append_of_notMem hnul, cString_append_of_notMem hnul, scanInt_append hends,
      scanInt_append hends]
    cases scanInt 16 answer <;> rfl

/-- White space before nothing but white space is no number. -/
theorem mRo50Read_of_quiet (hwhite : ∀ b ∈ answer, isSpace b = true) {memory : List UInt8}
    (hquiet : QuietFrom answer.length memory) : (mRo50Read met memory).1 = .failed := by
  have hnul : 0 ∉ answer := fun hmem => absurd (hwhite 0 hmem) (by decide)
  have hskip : (answer ++ cString (memory.drop answer.length)).dropWhile isSpace = [] := by
    refine List.dropWhile_eq_nil_iff.mpr fun b hb => ?_
    rcases List.mem_append.mp hb with hb | hb
    · exact hwhite b hb
    · have hne : b ≠ 0 := by simpa using List.mem_takeWhile_imp hb
      have hmem := (List.takeWhile_prefix _).subset hb
      rw [(hquiet b hmem).resolve_left hne]
      decide
  rw [mRo50Read_of_answer h, overwriteAnswer, cString_append_of_notMem hnul, scanInt_eq,
    if_pos hskip]

/-- White space before a digit is one. -/
theorem mRo50Read_of_digit (hwhite : ∀ b ∈ answer, isSpace b = true) {memory rest : List UInt8}
    (hdigit : memory.drop answer.length = 0x31 :: rest) :
    ∃ value, (mRo50Read met memory).1 = .number value := by
  have hnul : 0 ∉ answer := fun hmem => absurd (hwhite 0 hmem) (by decide)
  obtain ⟨more, hmore⟩ : ∃ more, cString (0x31 :: rest) = 0x31 :: more :=
    ⟨_, List.takeWhile_cons_of_pos (by decide)⟩
  have hskip : (answer ++ 0x31 :: more).dropWhile isSpace = 0x31 :: more := by
    rw [List.dropWhile_append_of_pos hwhite]
    rfl
  have hdigits : intDigits 16 (answer ++ 0x31 :: more) ≠ [] := by
    have hbody : intBody 16 (answer ++ 0x31 :: more) = 0x31 :: more := by
      rw [intBody, if_pos rfl, unsignedBody, hskip]
      rfl
    rw [intDigits, hbody, List.takeWhile_cons_of_pos (by decide)]
    exact List.cons_ne_nil _ _
  rw [mRo50Read_of_answer h, overwriteAnswer, cString_append_of_notMem hnul, hdigit, hmore,
    scanInt_eq, hskip, if_neg (List.cons_ne_nil _ _), if_neg hdigits]
  exact ⟨_, rfl⟩

end Read

/-! ### The status -/

section Status

variable {dummy : ℤ → Bool} {met : Mro50Met} {answer : List UInt8}
  (h : mRo50OscillatorCmd met.exchange.toExchange = some answer)

include h

/-- The status of an answer of the right size. -/
theorem mRo50ReadStatus_of_answer (hsize : answer.length = 62) (stack memory : List UInt8) :
    (mRo50ReadStatus dummy met stack memory).1 =
      .status (registerOf ((answer.drop 52).take 4 ++ stack))
        ((answer.getD 56 0).toNat.testBit 2)
        (!dummy (registerOf ((answer.drop 52).take 4 ++ stack))) := by
  have hfield : (((overwriteAnswer answer memory).set 60 0).drop 52).take 4
      = (answer.drop 52).take 4 := by
    rw [overwriteAnswer, List.drop_set, if_neg (by decide), List.take_set,
      List.set_eq_of_length_le (by simp), List.drop_append_of_le_length (by omega),
      List.take_append_of_le_length (by rw [List.length_drop]; omega)]
  have hlock : ((overwriteAnswer answer memory).set 60 0).getD 56 0 = answer.getD 56 0 := by
    rw [overwriteAnswer, List.getD_eq_getElem?_getD, List.getElem?_set_ne (by decide),
      List.getElem?_append_left (by omega), List.getD_eq_getElem?_getD]
  rw [mRo50ReadStatus, mRo50CmdInto_of_answer h]
  simp only [hsize, if_true, hfield, hlock]
  split_ifs with hdummy
  · simp [hdummy]
  · simp [hdummy]

/-- Another size fails. -/
theorem mRo50ReadStatus_of_size_ne (hsize : answer.length ≠ 62) (stack memory : List UInt8) :
    (mRo50ReadStatus dummy met stack memory).1 = .failed := by
  rw [mRo50ReadStatus, mRo50CmdInto_of_answer h]
  simp only [hsize, if_false]

end Status

/-- What ends its number within the field says the same whatever the stack holds. -/
theorem registerOf_append {field : List UInt8} (h : 0 ∈ field ∨ NumberEnds 16 field)
    (stack stack' : List UInt8) : registerOf (field ++ stack) = registerOf (field ++ stack') := by
  by_cases hnul : 0 ∈ field
  · rw [registerOf, registerOf, cString_append_of_mem hnul, cString_append_of_mem hnul]
  · have hends := h.resolve_left hnul
    rw [registerOf, registerOf, cString_append_of_notMem hnul, cString_append_of_notMem hnul,
      scanInt_append hends, scanInt_append hends]
    cases scanInt 16 field <;> rfl

/-- What does not takes in a digit that follows. -/
theorem registerOf_append_ne {field : List UInt8} (hlength : field.length ≤ 4) (hnul : 0 ∉ field)
    (hends : ¬ NumberEnds 16 field) :
    registerOf (field ++ [0x31]) ≠ registerOf (field ++ [0x32]) := by
  have hdigits : (intDigits 16 field).length ≤ 4 :=
    (length_intDigits_le 16 field).trans hlength
  have hvalue : valueOf 16 (intDigits 16 field) < 16 ^ 4 :=
    (valueOf_lt fun b hb => List.mem_takeWhile_imp hb).trans_le
      (Nat.pow_le_pow_right (by decide) hdigits)
  have hstring : ∀ c : UInt8, c ≠ 0 → cString (field ++ [c]) = field ++ [c] := by
    intro c hc
    rw [cString_append_of_notMem hnul, cString, List.takeWhile_cons_of_pos (by simpa using hc)]
    rfl
  rw [registerOf, registerOf, hstring 0x31 (by decide), hstring 0x32 (by decide),
    scanInt_append_digit (by decide) hends (by decide),
    scanInt_append_digit (by decide) hends (by decide)]
  have h1 : digitOf 0x31 = 1 := by decide
  have h2 : digitOf 0x32 = 2 := by decide
  rw [h1, h2]
  generalize valueOf 16 (intDigits 16 field) = value at hvalue
  dsimp only
  rw [unsignedOf_signedValue (by omega), unsignedOf_signedValue (by omega)]
  cases isNegative field <;> simp only [signedValue] <;> omega

/-! ### What earlier commands may leave -/

/-- A command that does not get through. -/
def unsentMet (stack : List UInt8) : Mro50Met where
  exchange := { written := false, reads := [], ending := .timeout, fits := by decide }
  clean :=
    { reopened := false
      attributes := .ok
      exchange := { written := false, reads := [], ending := .timeout, fits := by decide } }
  reset := { written := false, turns := [] }
  fits := trivial
  stack := stack

/-- A long answer, to a command that does not clear it; in a reset, a full window. -/
def longMet : Mro50Met where
  exchange :=
    { written := true
      reads := [List.replicate 126 0x31 ++ [0x0a, 0x0a]]
      ending := .timeout
      fits := by simp }
  clean := (unsentMet []).clean
  reset := { written := true, turns := [.read (List.replicate 128 0x31) true] }
  fits := ⟨by simp, trivial⟩
  stack := []

/-- The answer of `longMet`. -/
def longAnswer : List UInt8 := List.replicate 126 0x31 ++ [0x0a, 0x0a]

theorem mRo50OscillatorCmd_longMet :
    mRo50OscillatorCmd longMet.exchange.toExchange = some longAnswer := by
  decide +kernel

/-- Where it is kept, it is followed by the last NUL of the buffer. -/
theorem answerStr_longMet (dummy : ℤ → Bool) {cmd : Mro50Command} (h : cmd.KeepsReply) :
    (mRo50MemoryStep dummy mRo50MemoryStart (cmd, longMet)).answerStr
      = List.replicate 126 0x31 ++ [0x0a, 0x0a, 0] := by
  have hlength : longAnswer.length = 128 := by simp [longAnswer]
  have hmemory : overwriteAnswer longAnswer mRo50MemoryStart.answerStr
      = List.replicate 126 0x31 ++ [0x0a, 0x0a, 0] := by
    rw [overwriteAnswer, hlength, mRo50MemoryStart, List.drop_replicate, longAnswer,
      List.append_assoc]
    rfl
  cases cmd with
  | read number => exact h.elim
  | readStatus =>
    rw [← hmemory, mRo50MemoryStep, mRo50Perform]
    simp only [mRo50ReadStatus, mRo50CmdInto_of_answer mRo50OscillatorCmd_longMet, hlength]
    rfl
  | write coarse =>
    rw [← hmemory, mRo50MemoryStep, mRo50Perform]
    simp only [mRo50Write, mRo50CmdInto_of_answer mRo50OscillatorCmd_longMet, hlength]
    rfl
  | reset => exact h.elim

/-- After a reset, it is the full window. -/
theorem answerStr_longMet_reset (dummy : ℤ → Bool) :
    (mRo50MemoryStep dummy mRo50MemoryStart (.reset, longMet)).answerStr
      = List.replicate 128 0x31 ++ [0] := by
  change resetMemory longMet.reset.turns [] mRo50MemoryStart.answerStr = _
  decide +kernel

theorem mRo50MemoryStep_unsent (dummy : ℤ → Bool) (s : Mro50Memory) (cmd : Mro50Command)
    (stack : List UInt8) :
    mRo50MemoryStep dummy s (cmd, unsentMet stack) = { s with stack := stack } := by
  cases cmd <;> rfl

/-- Commands that do not get through. -/
theorem reached_mRo50MemoryStart (dummy : ℤ → Bool) (cmds : List Mro50Command) :
    Reached (mRo50MemoryStep dummy) mRo50MemoryStart cmds mRo50MemoryStart :=
  reached_start.append fun cmd _ => mRo50MemoryStep_unsent dummy mRo50MemoryStart cmd []

/-- The stack is left with anything on it. -/
theorem reached_stack (dummy : ℤ → Bool) {cmds : List Mro50Command} (h : cmds ≠ [])
    (stack : List UInt8) :
    Reached (mRo50MemoryStep dummy) mRo50MemoryStart cmds
      { mRo50MemoryStart with stack := stack } := by
  have hlast := (reached_mRo50MemoryStart dummy cmds.dropLast).concat (cmds.getLast h)
    (unsentMet stack)
  rwa [mRo50MemoryStep_unsent, List.dropLast_concat_getLast] at hlast

/-- The text a command leaves stays over later ones that do not get through. -/
theorem reached_left (dummy : ℤ → Bool) {cmds : List Mro50Command} {cmd : Mro50Command}
    (h : cmd ∈ cmds) :
    Reached (mRo50MemoryStep dummy) mRo50MemoryStart cmds
      (mRo50MemoryStep dummy mRo50MemoryStart (cmd, longMet)) := by
  obtain ⟨before, after, rfl⟩ := List.append_of_mem h
  have hleft := (reached_mRo50MemoryStart dummy before).concat cmd longMet
  rw [List.append_cons]
  exact hleft.append fun cmd' _ =>
    mRo50MemoryStep_unsent dummy (mRo50MemoryStep dummy mRo50MemoryStart (cmd, longMet)) cmd' []

/-- A command keeps what is quiet behind the bytes that it may leave text in. -/
theorem QuietFrom.memoryStep (dummy : ℤ → Bool) {n : ℕ} {s : Mro50Memory}
    (hquiet : QuietFrom n s.answerStr) (hn : n ≤ 128) (cmd : Mro50Command) (met : Mro50Met)
    (hkeeps : cmd.KeepsReply → 126 ≤ n) (hreset : cmd = .reset → 128 ≤ n) :
    QuietFrom n (mRo50MemoryStep dummy s (cmd, met)).answerStr := by
  cases cmd with
  | read number => exact hquiet.read met
  | readStatus => exact hquiet.readStatus (hkeeps trivial) dummy met s.stack
  | write coarse => exact hquiet.write (hkeeps trivial) met
  | reset =>
    obtain rfl := le_antisymm hn (hreset rfl)
    simp only [mRo50MemoryStep, mRo50Perform, mRo50ResetInto]
    split_ifs
    · exact hquiet.resetMemory met.fits
    · exact hquiet

/-- **What is left is quiet** behind the bytes up to which no command leaves text. -/
theorem quietFrom_of_reached {dummy : ℤ → Bool} {cmds : List Mro50Command} {s : Mro50Memory}
    (h : Reached (mRo50MemoryStep dummy) mRo50MemoryStart cmds s) {n : ℕ} (hn : n ≤ 128)
    (hleaves : ¬ LeavesText cmds n) : QuietFrom n s.answerStr := by
  obtain ⟨hkeeps, hreset⟩ := not_or.mp hleaves
  refine h.induction (fun s => QuietFrom n s.answerStr) ?_ fun s cmd hmem met hquiet => ?_
  · exact fun b hb => .inl (List.eq_of_mem_replicate (List.mem_of_mem_drop hb))
  · refine hquiet.memoryStep dummy hn cmd met ?_ ?_
    · intro hcmd
      by_contra hlt
      exact hkeeps ⟨not_le.mp hlt, cmd, hmem, hcmd⟩
    · rintro rfl
      by_contra hlt
      exact hreset ⟨not_le.mp hlt, hmem⟩

/-- What may be left is text. -/
theorem exists_reached_digit (dummy : ℤ → Bool) {cmds : List Mro50Command} {n : ℕ}
    (h : LeavesText cmds n) :
    ∃ s rest, Reached (mRo50MemoryStep dummy) mRo50MemoryStart cmds s ∧
      s.answerStr.drop n = 0x31 :: rest := by
  have hdigits : ∀ k, n < k → ∀ more : List UInt8,
      (List.replicate k 0x31 ++ more).drop n
        = 0x31 :: (List.replicate (k - n - 1) 0x31 ++ more) := by
    intro k hk more
    rw [List.drop_append_of_le_length (by rw [List.length_replicate]; omega), List.drop_replicate,
      show k - n = k - n - 1 + 1 by omega, List.replicate_succ, List.cons_append,
      Nat.add_sub_cancel]
  rcases h with ⟨hn, cmd, hmem, hkeeps⟩ | ⟨hn, hmem⟩
  · refine ⟨_, List.replicate (126 - n - 1) 0x31 ++ [0x0a, 0x0a, 0],
      reached_left dummy hmem, ?_⟩
    rw [answerStr_longMet dummy hkeeps, hdigits 126 hn]
  · refine ⟨_, List.replicate (128 - n - 1) 0x31 ++ [0], reached_left dummy hmem, ?_⟩
    rw [answerStr_longMet_reset, hdigits 128 hn]

/-! ### Isolation -/

/-- A number is isolated unless white space comes after what may leave text. -/
theorem isolated_read_iff (dummy : ℤ → Bool) (cmds : List Mro50Command) (number : Mro50Number)
    (met : Mro50Met) :
    Mro50Isolated dummy cmds (.read number, met) ↔
      ∀ answer, mRo50OscillatorCmd met.exchange.toExchange = some answer →
        (∀ b ∈ answer, isSpace b = true) → ¬ LeavesText cmds answer.length := by
  rw [Mro50Isolated, isolated_iff]
  constructor
  · intro hisolated answer hanswer hwhite hleaves
    obtain ⟨s, rest, hs, hdigit⟩ := exists_reached_digit dummy hleaves
    have hsame := hisolated _ _ hs (reached_mRo50MemoryStart dummy cmds)
    have hquiet : QuietFrom answer.length mRo50MemoryStart.answerStr := fun b hb =>
      .inl (List.eq_of_mem_replicate (List.mem_of_mem_drop hb))
    obtain ⟨value, hvalue⟩ := mRo50Read_of_digit hanswer hwhite hdigit
    have hfailed := mRo50Read_of_quiet hanswer hwhite hquiet
    simp only [mRo50Shows, mRo50Perform, hvalue, hfailed, reduceCtorEq] at hsame
  · intro halone s s' hs hs'
    cases hanswer : mRo50OscillatorCmd met.exchange.toExchange with
    | none =>
      simp only [mRo50Shows, mRo50Perform, mRo50Read, mRo50CmdInto_of_none hanswer]
    | some answer =>
      by_cases hwhite : ∀ b ∈ answer, isSpace b = true
      · have hleaves := halone answer hanswer hwhite
        have hn := (answer_spec hanswer).2.1
        exact (mRo50Read_of_quiet hanswer hwhite (quietFrom_of_reached hs hn hleaves)).trans
          (mRo50Read_of_quiet hanswer hwhite (quietFrom_of_reached hs' hn hleaves)).symm
      · exact mRo50Read_of_not_white hanswer hwhite _ _

/-- A status is isolated unless its number goes on to the end of the field. -/
theorem isolated_readStatus_iff (dummy : ℤ → Bool) (cmds : List Mro50Command) (met : Mro50Met) :
    Mro50Isolated dummy cmds (.readStatus, met) ↔
      ∀ answer, mRo50OscillatorCmd met.exchange.toExchange = some answer →
        answer.length = 62 → cmds ≠ [] →
          0 ∈ (answer.drop 52).take 4 ∨ NumberEnds 16 ((answer.drop 52).take 4) := by
  constructor
  · intro hisolated answer hanswer hsize hne
    by_contra hopen
    obtain ⟨hnul, hends⟩ := not_or.mp hopen
    have hsame := isolated_iff.mp hisolated _ _ (reached_stack dummy hne [0x31])
      (reached_stack dummy hne [0x32])
    simp only [mRo50Shows, mRo50Perform, mRo50ReadStatus_of_answer hanswer hsize,
      Mro50Shown.status.injEq] at hsame
    exact registerOf_append_ne (by simp) hnul hends hsame.1
  · intro halone
    rcases eq_or_ne cmds [] with rfl | hne
    · exact isolated_nil
    refine isolated_iff.mpr fun s s' _ _ => ?_
    cases hanswer : mRo50OscillatorCmd met.exchange.toExchange with
    | none =>
      simp only [mRo50Shows, mRo50Perform, mRo50ReadStatus, mRo50CmdInto_of_none hanswer]
    | some answer =>
      simp only [mRo50Shows, mRo50Perform]
      by_cases hsize : answer.length = 62
      · have hsame := registerOf_append (halone answer hanswer hsize hne) s.stack s'.stack
        rw [mRo50ReadStatus_of_answer hanswer hsize, mRo50ReadStatus_of_answer hanswer hsize,
          hsame]
      · rw [mRo50ReadStatus_of_size_ne hanswer hsize, mRo50ReadStatus_of_size_ne hanswer hsize]

/-- A write is isolated: it looks at no more than the size of its reply. -/
theorem isolated_write (dummy : ℤ → Bool) (cmds : List Mro50Command) (coarse : Bool)
    (met : Mro50Met) : Mro50Isolated dummy cmds (.write coarse, met) := by
  refine isolated_iff.mpr fun s s' _ _ => ?_
  simp only [mRo50Shows, mRo50Perform, mRo50Write]
  cases hanswer : mRo50OscillatorCmd met.exchange.toExchange with
  | none => simp only [mRo50CmdInto_of_none hanswer]
  | some answer =>
    simp only [mRo50CmdInto_of_answer hanswer]
    split_ifs <;> rfl

/-- **Isolation of the mRO50.** -/
theorem isolated_mRo50_iff (dummy : ℤ → Bool) (cmds : List Mro50Command)
    (call : Mro50Command × Mro50Met) :
    Mro50Isolated dummy cmds call ↔ Mro50Alone cmds call := by
  obtain ⟨cmd, met⟩ := call
  cases cmd with
  | read number => exact isolated_read_iff dummy cmds number met
  | readStatus => exact isolated_readStatus_iff dummy cmds met
  | write coarse => exact iff_of_true (isolated_write dummy cmds coarse met) fun _ _ => trivial
  | reset => exact iff_of_true (isolated_iff.mpr fun _ _ _ _ => rfl) fun _ _ => trivial

end Oscillatord
