import Oscillatord.Library.FloatEnds
import Oscillatord.Library.Isolation
import Oscillatord.Library.NumberEnds
import Oscillatord.Oscillators.Sa5xAnswers

/-!
# What the SA5x shows of earlier replies

The commands of the SA5x share one static buffer, in which the commands that set something are
printed too. What a getter has taken in it clears, but a reply that breaks off and the reply to a
setting stay, up to the size of the buffer. So any command may leave any bytes at all
(`reached_sa5x`), and a getter is isolated exactly when its reply is read alike whatever follows it
(`isolated_sa5x_iff`): an integer that ends within the reply, or is too large for a further digit to
matter; a version that ends or fills its field; a serial number of full length; a phase that no
continuation changes. No number is changed once the reply has its bracket (`alone_of_bracket`).
-/

namespace Oscillatord

open CText StepRun Isolation

/-! ### The commands -/

/-- What is done with the answer to a command: a number is read as an `int` or as an `int64_t`, a
phase, the version or the serial number is, or nothing is and the command was printed into the
buffer. -/
inductive Sa5xUse
  | reads (wide : Bool)
  | phase
  | swver
  | serial
  | sets (text : List UInt8)
  deriving Repr, DecidableEq

/-- The commands and their uses. -/
def Sa5xCmd.use : Sa5xCmd → Sa5xUse
  | .swver => .swver
  | .serial => .serial
  | .getPhase => .phase
  | .getDigitalTuning => .reads true
  | .latch | .getAlarms | .getLocked | .getDisciplineLocked | .getGnssPps | .getLastcorrection
  | .getTemperature | .getTau | .getDisciplining | .getPhaselimit => .reads false
  | .setTau tau => .sets (ascii "\x7bset,TauPps0," ++ signedDecimal tau ++ ascii "\x7d")
  | .setDisciplining on =>
    .sets (ascii "\x7bset,Disciplining," ++ signedDecimal (if on then 1 else 0) ++ ascii "\x7d")
  | .setPhaselimit limit =>
    .sets (ascii "\x7bset,PhaseLimit," ++ signedDecimal limit ++ ascii "\x7d")

/-- `snprintf(answer_str, answer_len, ..)`. -/
def sa5xPrint (text memory : List UInt8) : List UInt8 :=
  overwriteAnswer (text.take (answerLen - 1) ++ [0]) memory

/-- The characters of an answer up to a comma, 19 at most: `%19[^,]`. -/
def swverField (memory : List UInt8) : Option (List UInt8) :=
  let field := (((cString memory).drop 2).takeWhile fun b => b != 0x2c).take 19
  if field = [] then none else some field

/-- The first 11 characters of an answer: `%11c`. -/
def serialField (memory : List UInt8) : Option (List UInt8) :=
  let field := ((cString memory).drop 2).take 11
  if field = [] then none else some field

/-- What a command shows: that it is answered, or what is read from the answer. -/
inductive Sa5xShown
  | sent (ok : Bool)
  | int (reading : IntReading)
  | phase (reading : PhaseReading)
  | text (field : Option (List UInt8))
  deriving Repr, DecidableEq

/-- The reading of a text. -/
def sa5xReadText (field : List UInt8 → Option (List UInt8)) (exchange : Sa5xExchange)
    (memory : List UInt8) : Sa5xShown × List UInt8 :=
  let (size, memory) := sa5xOscillatorCmd exchange memory
  if 0 < size then (.text (field memory), clearAnswer size.toNat memory) else (.text none, memory)

/-- A command. A phase that is not read shows no number: what its variable holds is not part of a
reply. -/
def sa5xPerform (memory : List UInt8) (call : Sa5xCmd × Sa5xExchange) :
    Sa5xShown × List UInt8 :=
  match call.1.use with
  | .reads wide =>
    let reading := sa5xOscillatorRead (storedOf wide) call.2 memory
    (.int reading.1, reading.2)
  | .phase =>
    let reading := sa5xOscillatorReadPhase 0 call.2 memory
    (.phase reading.1, reading.2)
  | .swver => sa5xReadText swverField call.2 memory
  | .serial => sa5xReadText serialField call.2 memory
  | .sets text =>
    let (size, memory) := sa5xOscillatorCmd call.2 (sa5xPrint text memory)
    (.sent (size != -1), memory)

/-- What a command shows. -/
def sa5xShows (memory : List UInt8) (call : Sa5xCmd × Sa5xExchange) : Sa5xShown :=
  (sa5xPerform memory call).1

/-- The buffer after a command. -/
def sa5xMemoryStep (memory : List UInt8) (call : Sa5xCmd × Sa5xExchange) : List UInt8 :=
  (sa5xPerform memory call).2

/-- The buffer the program starts with. Behind it comes the padding of the next variable. -/
def sa5xMemoryStart : List UInt8 := List.replicate answerLen 0

/-- After any two histories of the same commands, the command shows the same. -/
def Sa5xIsolated (cmds : List Sa5xCmd) (call : Sa5xCmd × Sa5xExchange) : Prop :=
  Isolated sa5xMemoryStep sa5xShows sa5xMemoryStart cmds call

/-! ### Where replies are isolated -/

/-- The use of an answer does not depend on what follows it in the buffer. -/
def Sa5xUse.Alone (answer : List UInt8) : Sa5xUse → Prop
  | .reads wide => NumberEnds 10 (answer.drop 2) ∨ Steady wide (answer.drop 2)
  | .phase => ∀ more more' : List UInt8, (answer ++ more).length = answerLen →
      (answer ++ more').length = answerLen →
        scanPhaseAnswer 0 (answer ++ more) = scanPhaseAnswer 0 (answer ++ more')
  | .swver => 0x2c ∈ answer.drop 2 ∨ 19 ≤ (answer.drop 2).length
  | .serial => 11 ≤ (answer.drop 2).length
  | .sets _ => True

/-- The condition on a command: after other commands, an answer without a NUL in it that does not
fill the buffer is one whose use does not depend on what follows. -/
def Sa5xAlone (cmds : List Sa5xCmd) (call : Sa5xCmd × Sa5xExchange) : Prop :=
  ∀ answer h, call.2 = .answered answer h → isAnswer answer = true → cmds ≠ [] →
    0 ∉ answer → answer.length < answerLen → call.1.use.Alone answer

/-! ### What earlier commands may leave -/

theorem length_overwriteAnswer {bytes memory : List UInt8} (h : bytes.length ≤ memory.length) :
    (overwriteAnswer bytes memory).length = memory.length := by
  rw [overwriteAnswer, List.length_append, List.length_drop]
  omega

theorem length_clearAnswer {n : ℕ} {memory : List UInt8} (h : n ≤ memory.length) :
    (clearAnswer n memory).length = memory.length :=
  length_overwriteAnswer (by simpa using h)

theorem length_sa5xOscillatorCmd (exchange : Sa5xExchange) {memory : List UInt8}
    (hmemory : memory.length = answerLen) :
    (sa5xOscillatorCmd exchange memory).2.length = answerLen ∧
      (sa5xOscillatorCmd exchange memory).1.toNat ≤ answerLen := by
  cases exchange with
  | unsent => exact ⟨hmemory, Nat.zero_le _⟩
  | broken bytes hbytes =>
    refine ⟨?_, Nat.zero_le _⟩
    rw [sa5xOscillatorCmd, length_overwriteAnswer (hmemory ▸ hbytes), hmemory]
  | answered bytes hbytes =>
    have hover : (overwriteAnswer bytes memory).length = answerLen := by
      rw [length_overwriteAnswer (hmemory ▸ hbytes), hmemory]
    rw [sa5xOscillatorCmd]
    split_ifs
    · exact ⟨hover, hbytes⟩
    · exact ⟨by rw [length_clearAnswer (hover ▸ hbytes), hover], Nat.zero_le _⟩

theorem length_sa5xPrint (text : List UInt8) {memory : List UInt8}
    (hmemory : memory.length = answerLen) : (sa5xPrint text memory).length = answerLen := by
  have hlength : (text.take (answerLen - 1) ++ [0]).length ≤ memory.length := by
    rw [hmemory, List.length_append, List.length_take, List.length_singleton, answerLen]
    omega
  rw [sa5xPrint, length_overwriteAnswer hlength, hmemory]

/-- The commands keep the size of the buffer. -/
theorem length_sa5xMemoryStep {memory : List UInt8} (hmemory : memory.length = answerLen)
    (call : Sa5xCmd × Sa5xExchange) : (sa5xMemoryStep memory call).length = answerLen := by
  have hcmd := length_sa5xOscillatorCmd call.2 hmemory
  have hclear : (clearAnswer (sa5xOscillatorCmd call.2 memory).1.toNat
      (sa5xOscillatorCmd call.2 memory).2).length = answerLen := by
    rw [length_clearAnswer (hcmd.1 ▸ hcmd.2), hcmd.1]
  rw [sa5xMemoryStep, sa5xPerform]
  cases call.1.use with
  | reads wide =>
    dsimp only [sa5xOscillatorRead]
    split_ifs
    · exact hclear
    · exact hcmd.1
  | phase =>
    dsimp only [sa5xOscillatorReadPhase]
    split_ifs
    · exact hclear
    · exact hcmd.1
  | swver =>
    dsimp only [sa5xReadText]
    split_ifs
    · exact hclear
    · exact hcmd.1
  | serial =>
    dsimp only [sa5xReadText]
    split_ifs
    · exact hclear
    · exact hcmd.1
  | sets text => exact (length_sa5xOscillatorCmd call.2 (length_sa5xPrint text hmemory)).1

theorem length_of_reached {cmds : List Sa5xCmd} {memory : List UInt8}
    (h : Reached sa5xMemoryStep sa5xMemoryStart cmds memory) : memory.length = answerLen :=
  h.induction (fun memory => memory.length = answerLen) List.length_replicate
    fun _ _ _ _ hmemory => length_sa5xMemoryStep hmemory _

/-- A reply that breaks off once the buffer is full leaves all its bytes. -/
theorem sa5xMemoryStep_broken (cmd : Sa5xCmd) {bytes memory : List UInt8}
    (hmemory : memory.length = answerLen) (hbytes : bytes.length = answerLen) :
    sa5xMemoryStep memory (cmd, .broken bytes hbytes.le) = bytes := by
  have hover : ∀ memory : List UInt8, memory.length = answerLen →
      overwriteAnswer bytes memory = bytes := by
    intro memory hmemory
    rw [overwriteAnswer, List.drop_eq_nil_of_le (by omega), List.append_nil]
  rw [sa5xMemoryStep, sa5xPerform]
  cases cmd.use with
  | reads wide => exact hover memory hmemory
  | phase => exact hover memory hmemory
  | swver => exact hover memory hmemory
  | serial => exact hover memory hmemory
  | sets text => exact hover _ (length_sa5xPrint text hmemory)

/-- **Any bytes may be left** by a command before. -/
theorem reached_sa5x {cmds : List Sa5xCmd} (h : cmds ≠ []) {bytes : List UInt8}
    (hbytes : bytes.length = answerLen) :
    Reached sa5xMemoryStep sa5xMemoryStart cmds bytes := by
  obtain ⟨memory, hmemory⟩ := exists_reached sa5xMemoryStep sa5xMemoryStart cmds.dropLast .unsent
  have hlast := hmemory.concat (cmds.getLast h) (.broken bytes hbytes.le)
  rwa [sa5xMemoryStep_broken _ (length_of_reached hmemory) hbytes,
    List.dropLast_concat_getLast] at hlast

/-! ### What is read of an answer -/

/-- What is read of the answer at the beginning of the buffer. -/
def Sa5xUse.reading (memory : List UInt8) : Sa5xUse → Sa5xShown
  | .reads wide => .int (scanAnswer (storedOf wide) memory)
  | .phase => .phase (scanPhaseAnswer 0 memory)
  | .swver => .text (swverField memory)
  | .serial => .text (serialField memory)
  | .sets _ => .sent true

theorem sa5xShows_of_answer (cmd : Sa5xCmd) {answer : List UInt8} (h : answer.length ≤ answerLen)
    (hanswer : isAnswer answer = true) (memory : List UInt8) :
    sa5xShows memory (cmd, .answered answer h) =
      cmd.use.reading (overwriteAnswer answer memory) := by
  have hpos : (0 : ℤ) < answer.length := by
    simp only [isAnswer, Bool.and_eq_true, decide_eq_true_eq] at hanswer
    omega
  have hne : ((answer.length : ℤ) != -1) = true := by
    simp only [bne_iff_ne]
    omega
  rw [sa5xShows, sa5xPerform]
  cases cmd.use <;>
    simp only [sa5xOscillatorRead, sa5xOscillatorReadPhase, sa5xReadText, sa5xOscillatorCmd,
      hanswer, hpos, hne, if_true, Sa5xUse.reading]

/-- Without an answer a command shows the same in any buffer. -/
theorem sa5xShows_of_no_answer (cmd : Sa5xCmd) {exchange : Sa5xExchange}
    (h : ∀ answer hlength, exchange = .answered answer hlength → isAnswer answer = false)
    (memory memory' : List UInt8) :
    sa5xShows memory (cmd, exchange) = sa5xShows memory' (cmd, exchange) := by
  have hfails : ∀ memory, (sa5xOscillatorCmd exchange memory).1 = -1 := by
    intro memory
    cases exchange with
    | unsent => rfl
    | broken bytes hbytes => rfl
    | answered answer hlength => simp [sa5xOscillatorCmd, h answer hlength rfl]
  rw [sa5xShows, sa5xPerform, sa5xShows, sa5xPerform]
  cases cmd.use <;>
    simp [sa5xOscillatorRead, sa5xOscillatorReadPhase, sa5xReadText, hfails]

/-! ### What follows an answer -/

theorem cString_replicate_zero (n : ℕ) : cString (List.replicate n 0) = [] := by
  cases n <;> rfl

/-- Some buffers that hold an answer have a string of one character after it, and some none. -/
theorem exists_more {answer : List UInt8} (h : answer.length < answerLen) {c : UInt8}
    (hc : c ≠ 0) : ∃ more : List UInt8, (answer ++ more).length = answerLen ∧
      cString more = [c] := by
  refine ⟨c :: List.replicate (answerLen - answer.length - 1) 0, ?_, ?_⟩
  · rw [List.length_append, List.length_cons, List.length_replicate]
    omega
  · rw [cString, List.takeWhile_cons_of_pos (by simpa using hc)]
    exact congrArg _ (cString_replicate_zero _)

theorem exists_none {answer : List UInt8} (h : answer.length < answerLen) :
    ∃ more : List UInt8, (answer ++ more).length = answerLen ∧ cString more = [] := by
  refine ⟨List.replicate (answerLen - answer.length) 0, ?_, cString_replicate_zero _⟩
  rw [List.length_append, List.length_replicate]
  omega

section Answer

variable {answer : List UInt8} (hanswer : isAnswer answer = true) (hnul : 0 ∉ answer)

include hanswer

theorem five_le_length : 5 ≤ answer.length := by
  simp only [isAnswer, Bool.and_eq_true, decide_eq_true_eq] at hanswer
  exact hanswer.1

/-- A field of an answer is not empty. -/
theorem take_append_ne_nil {width : ℕ} (hwidth : 0 < width) (more : List UInt8) :
    (answer.drop 2 ++ more).take width ≠ [] := by
  have hlength := five_le_length hanswer
  refine List.ne_nil_of_length_pos ?_
  rw [List.length_take, List.length_append, List.length_drop]
  omega

include hnul

theorem drop_cString_append (more : List UInt8) :
    (cString (answer ++ more)).drop 2 = answer.drop 2 ++ cString more := by
  have hlength := five_le_length hanswer
  rw [cString_append_of_notMem hnul, List.drop_append_of_le_length (by omega)]

/-- An integer is read alike whatever follows exactly when it ends within the answer, or is too
large for another digit to matter. -/
theorem reads_alone_iff (hlength : answer.length < answerLen) (wide : Bool) :
    (∀ more more' : List UInt8, (answer ++ more).length = answerLen →
        (answer ++ more').length = answerLen →
          scanAnswer (storedOf wide) (answer ++ more)
            = scanAnswer (storedOf wide) (answer ++ more')) ↔
      NumberEnds 10 (answer.drop 2) ∨ Steady wide (answer.drop 2) := by
  constructor
  · intro hsame
    by_cases hends : NumberEnds 10 (answer.drop 2)
    · exact .inl hends
    refine .inr ?_
    obtain ⟨none, hnone, hnil⟩ := exists_none hlength
    -- The answer alone and the answer with one more digit are read alike.
    have hdigit : ∀ d < 10, intReadingOf (storedOf wide) (scanInt 10 (answer.drop 2)) =
        .value (storedOf wide (signedValue (isNegative (answer.drop 2))
          (valueOf 10 (intDigits 10 (answer.drop 2)) * 10 + d))) := by
      intro d hd
      obtain ⟨hdecimal, hvalue⟩ := isDecimal_digitChar hd
      obtain ⟨more, hmore, hone⟩ :=
        exists_more hlength (ne_of_isDecimal hdecimal (by decide : ¬ IsDecimal 0))
      have heq := hsame none more hnone hmore
      rw [scanAnswer_eq, scanAnswer_eq, drop_cString_append hanswer hnul,
        drop_cString_append hanswer hnul, hnil, hone, List.append_nil,
        scanInt_append_digit (by decide) hends hdecimal, hvalue] at heq
      exact heq
    rw [scanInt_eq] at hdigit
    split_ifs at hdigit with hwhite hdigits
    · cases hdigit 0 (by decide)
    · cases hdigit 0 (by decide)
    · exact ⟨hdigits, fun d hd => (IntReading.value.inj (hdigit d hd)).symm⟩
  · intro hends more more' _ _
    rw [scanAnswer_eq, scanAnswer_eq, drop_cString_append hanswer hnul,
      drop_cString_append hanswer hnul]
    by_cases hclosed : NumberEnds 10 (answer.drop 2)
    · rw [scanInt_append hclosed, scanInt_append hclosed]
      cases scanInt 10 (answer.drop 2) <;> rfl
    · have hsteady := hends.resolve_left hclosed
      rw [scanInt_append_of_digits hclosed hsteady.1, scanInt_append_of_digits hclosed hsteady.1,
        intReadingOf, intReadingOf, hsteady.storedOf_eq fun b hb => List.mem_takeWhile_imp hb,
        hsteady.storedOf_eq fun b hb => List.mem_takeWhile_imp hb]

/-- A version without a comma goes on, up to its width. -/
theorem swverField_append (hcomma : 0x2c ∉ answer.drop 2) (more : List UInt8) :
    swverField (answer ++ more) =
      some ((answer.drop 2 ++ (cString more).takeWhile fun b => b != 0x2c).take 19) := by
  have hall : ∀ b ∈ answer.drop 2, (b != 0x2c) = true := by
    intro b hb
    have hne : b ≠ 0x2c := fun heq => hcomma (heq ▸ hb)
    simpa using hne
  rw [swverField, drop_cString_append hanswer hnul, List.takeWhile_append_of_pos hall]
  exact if_neg (take_append_ne_nil hanswer (by decide) _)

/-- A version is read alike whatever follows exactly when it ends within the answer or fills its
field. -/
theorem swver_alone_iff (hlength : answer.length < answerLen) :
    (∀ more more' : List UInt8, (answer ++ more).length = answerLen →
        (answer ++ more').length = answerLen →
          swverField (answer ++ more) = swverField (answer ++ more')) ↔
      0x2c ∈ answer.drop 2 ∨ 19 ≤ (answer.drop 2).length := by
  by_cases hcomma : 0x2c ∈ answer.drop 2
  · refine iff_of_true (fun more more' _ _ => ?_) (.inl hcomma)
    simp only [swverField, drop_cString_append hanswer hnul,
      Lists.takeWhile_append_of_mem hcomma (p := fun b => b != 0x2c) rfl]
  constructor
  · intro hsame
    by_contra hnot
    have hshort : (answer.drop 2).length < 19 := not_le.mp (not_or.mp hnot).2
    obtain ⟨more, hmore, hone⟩ := exists_more hlength (by decide : (0x41 : UInt8) ≠ 0)
    obtain ⟨none, hnone, hnil⟩ := exists_none hlength
    have heq := hsame more none hmore hnone
    rw [swverField_append hanswer hnul hcomma, swverField_append hanswer hnul hcomma, hone, hnil,
      Option.some.injEq, List.takeWhile_nil, List.append_nil] at heq
    exact Lists.take_append_singleton_ne hshort 0x41 heq
  · intro hends more more' _ _
    have hlong := hends.resolve_left hcomma
    rw [swverField_append hanswer hnul hcomma, swverField_append hanswer hnul hcomma,
      List.take_append_of_le_length hlong, List.take_append_of_le_length hlong]

/-- A serial number goes on, up to its width. -/
theorem serialField_append (more : List UInt8) :
    serialField (answer ++ more) = some ((answer.drop 2 ++ cString more).take 11) := by
  rw [serialField, drop_cString_append hanswer hnul]
  exact if_neg (take_append_ne_nil hanswer (by decide) _)

/-- A serial number is read alike whatever follows exactly when it fills its field. -/
theorem serial_alone_iff (hlength : answer.length < answerLen) :
    (∀ more more' : List UInt8, (answer ++ more).length = answerLen →
        (answer ++ more').length = answerLen →
          serialField (answer ++ more) = serialField (answer ++ more')) ↔
      11 ≤ (answer.drop 2).length := by
  constructor
  · intro hsame
    by_contra hshort
    obtain ⟨more, hmore, hone⟩ := exists_more hlength (by decide : (0x41 : UInt8) ≠ 0)
    obtain ⟨none, hnone, hnil⟩ := exists_none hlength
    have heq := hsame more none hmore hnone
    rw [serialField_append hanswer hnul, serialField_append hanswer hnul, hone, hnil,
      Option.some.injEq, List.append_nil] at heq
    exact Lists.take_append_singleton_ne (not_le.mp hshort) 0x41 heq
  · intro hlong more more' _ _
    rw [serialField_append hanswer hnul, serialField_append hanswer hnul,
      List.take_append_of_le_length hlong, List.take_append_of_le_length hlong]

/-- **The bracket ends every number.** -/
theorem alone_of_bracket (hbracket : 0x5d ∈ answer.drop 2) (wide : Bool) :
    (Sa5xUse.reads wide).Alone answer ∧ Sa5xUse.phase.Alone answer := by
  constructor
  · exact .inl (numberEnds_of_mem (mem_dropWhile_isSpace hbracket (by decide)) (by decide)
      (by decide) (by decide))
  · intro more more' _ _
    have hstop : IsStop 0x5d := ⟨by decide, by decide, by decide, by decide⟩
    have hsame := SameTo.of_mem hbracket (cString more) (cString more')
    rw [scanPhaseAnswer, scanPhaseAnswer, drop_cString_append hanswer hnul,
      drop_cString_append hanswer hnul, hsame.scanFloat_eq hstop]

end Answer

/-! ### Isolation -/

/-- What follows an answer changes nothing once the answer has a NUL or fills the buffer. -/
theorem reading_of_closed {answer : List UInt8} (h : 0 ∈ answer ∨ answerLen ≤ answer.length)
    (use : Sa5xUse) {more more' : List UInt8} (hmore : (answer ++ more).length = answerLen)
    (hmore' : (answer ++ more').length = answerLen) :
    use.reading (answer ++ more) = use.reading (answer ++ more') := by
  rcases h with hnul | hfull
  · cases use <;>
      simp only [Sa5xUse.reading, scanAnswer, scanPhaseAnswer, swverField, serialField,
        cString_append_of_mem hnul]
  · rw [List.length_append] at hmore hmore'
    have hnil : more = [] := List.length_eq_zero_iff.mp (by omega)
    have hnil' : more' = [] := List.length_eq_zero_iff.mp (by omega)
    rw [hnil, hnil']

/-- The use of an answer that leaves room in the buffer. -/
theorem alone_iff {answer : List UInt8} (hanswer : isAnswer answer = true) (hnul : 0 ∉ answer)
    (hlength : answer.length < answerLen) (use : Sa5xUse) :
    (∀ more more' : List UInt8, (answer ++ more).length = answerLen →
        (answer ++ more').length = answerLen →
          use.reading (answer ++ more) = use.reading (answer ++ more')) ↔ use.Alone answer := by
  cases use with
  | reads wide =>
    simp only [Sa5xUse.reading, Sa5xShown.int.injEq]
    exact reads_alone_iff hanswer hnul hlength wide
  | phase =>
    simp only [Sa5xUse.reading, Sa5xShown.phase.injEq]
    exact Iff.rfl
  | swver =>
    simp only [Sa5xUse.reading, Sa5xShown.text.injEq]
    exact swver_alone_iff hanswer hnul hlength
  | serial =>
    simp only [Sa5xUse.reading, Sa5xShown.text.injEq]
    exact serial_alone_iff hanswer hnul hlength
  | sets text => exact iff_of_true (fun _ _ _ _ => rfl) trivial

/-- **Isolation of the SA5x.** -/
theorem isolated_sa5x_iff (cmds : List Sa5xCmd) (call : Sa5xCmd × Sa5xExchange) :
    Sa5xIsolated cmds call ↔ Sa5xAlone cmds call := by
  obtain ⟨cmd, exchange⟩ := call
  constructor
  · rintro hisolated answer hlength rfl hanswer hne hnul hroom
    refine (alone_iff hanswer hnul hroom _).mp fun more more' hmore hmore' => ?_
    -- An earlier command has left just what follows the answer here.
    have hover : ∀ more : List UInt8, overwriteAnswer answer (answer ++ more) = answer ++ more :=
      fun more => by rw [overwriteAnswer, List.drop_left]
    have hsame := isolated_iff.mp hisolated _ _ (reached_sa5x hne hmore) (reached_sa5x hne hmore')
    rwa [sa5xShows_of_answer cmd hlength hanswer, sa5xShows_of_answer cmd hlength hanswer, hover,
      hover] at hsame
  · intro halone
    rcases eq_or_ne cmds [] with rfl | hne
    · exact isolated_nil
    refine isolated_iff.mpr fun memory memory' hmemory hmemory' => ?_
    by_cases hanswered : ∃ answer hlength, exchange = .answered answer hlength ∧
        isAnswer answer = true
    · obtain ⟨answer, hlength, rfl, hanswer⟩ := hanswered
      have hroom := length_overwriteAnswer (hlength.trans (length_of_reached hmemory).ge)
      have hroom' := length_overwriteAnswer (hlength.trans (length_of_reached hmemory').ge)
      rw [length_of_reached hmemory] at hroom
      rw [length_of_reached hmemory'] at hroom'
      rw [sa5xShows_of_answer cmd hlength hanswer, sa5xShows_of_answer cmd hlength hanswer]
      by_cases hclosed : 0 ∈ answer ∨ answerLen ≤ answer.length
      · exact reading_of_closed hclosed cmd.use hroom hroom'
      · obtain ⟨hnul, hshort⟩ := not_or.mp hclosed
        have hshort := not_le.mp hshort
        exact (alone_iff hanswer hnul hshort cmd.use).mpr
          (halone answer hlength rfl hanswer hne hnul hshort) _ _ hroom hroom'
    · refine sa5xShows_of_no_answer cmd ?_ memory memory'
      intro answer hlength heq
      by_contra hanswer
      exact hanswered ⟨answer, hlength, heq, by simpa using hanswer⟩

end Oscillatord
