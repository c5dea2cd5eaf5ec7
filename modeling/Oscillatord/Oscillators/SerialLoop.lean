import Oscillatord.Library.ReadLoop
import Oscillatord.Oscillators.Sa5xAnswers

/-!
# The read loops of the serial commands

`mRo50_oscillator_cmd` and `sa5x_oscillator_cmd` read the answer to a command in one and the same
loop: it is left when `poll` times out, and each `read` is given what is left of `answer_str`. Here
the device answers with any bytes, cut in any way, and `poll` reports them as long as some are
unread.

`CommandLoopLaw` is that the loop is left and that no read is given more than the buffer has. The
second half always holds. The first half holds exactly of the answers that fit
(`commandLoopLaw_iff`): once the buffer is full, `read` is asked for nothing and takes nothing, and
`poll` goes on reporting what is unread.
-/

namespace Oscillatord

open ReadLoop

/-! ### The two loops -/

/-- The drivers with such a loop. -/
inductive SerialDriver
  | mRo50
  | sa5x
  deriving Repr, DecidableEq

/-- The bytes of `answer_str`. -/
def SerialDriver.answerStr : SerialDriver → ℕ
  | .mRo50 => 129
  | .sa5x => 4101

/-- `mro_answer_len` and `answer_len`. -/
def SerialDriver.answerLen : SerialDriver → ℕ
  | .mRo50 => 128
  | .sa5x => 4101

/-- The loop of a driver after `n` turns. -/
def commandLoop (driver : SerialDriver) (chunk : ℕ → ℕ) (answer : List UInt8) (n : ℕ) :
    State UInt8 :=
  turns driver.answerLen chunk answer n

/-- The arguments of the read of turn `n`: where in `answer_str` it writes, and how many bytes it
is given. -/
def commandRead (driver : SerialDriver) (chunk : ℕ → ℕ) (answer : List UInt8) (n : ℕ) : ℕ × ℕ :=
  let rbytes := (commandLoop driver chunk answer n).stored.length
  (rbytes, driver.answerLen - rbytes)

/-- **The law of the loop**, for an answer: however it is cut, the loop is left after finitely many
turns, and every read stays inside the buffer. -/
structure CommandLoopLaw (driver : SerialDriver) (answer : List UInt8) : Prop where
  ends : ∀ chunk : ℕ → ℕ, ∃ n, (commandLoop driver chunk answer n).Ended
  inside : ∀ (chunk : ℕ → ℕ) (n : ℕ),
    (commandRead driver chunk answer n).1 + (commandRead driver chunk answer n).2
        ≤ driver.answerStr ∧
      (commandLoop driver chunk answer n).stored.length ≤ driver.answerLen

/-- No read leaves the buffer, whatever the answer. -/
theorem commandRead_inside (driver : SerialDriver) (chunk : ℕ → ℕ) (answer : List UInt8) (n : ℕ) :
    (commandRead driver chunk answer n).1 + (commandRead driver chunk answer n).2
        ≤ driver.answerStr ∧
      (commandLoop driver chunk answer n).stored.length ≤ driver.answerLen := by
  have hstored : (commandLoop driver chunk answer n).stored.length ≤ driver.answerLen :=
    length_stored_le driver.answerLen chunk answer n
  have hsize : driver.answerLen ≤ driver.answerStr := by
    cases driver <;> decide
  simp only [commandRead]
  omega

/-- **Termination of the serial commands.** For every answer of the device, the law holds exactly
when the answer fits into the buffer. -/
theorem commandLoopLaw_iff (driver : SerialDriver) (answer : List UInt8) :
    CommandLoopLaw driver answer ↔ answer.length ≤ driver.answerLen := by
  constructor
  · intro h
    -- one way of cutting the answer is enough: byte by byte
    exact exists_ended_iff.mp (h.ends fun _ => 0)
  · intro hfits
    exact
      { ends := fun _ => exists_ended_iff.mpr hfits
        inside := fun chunk n => commandRead_inside driver chunk answer n }

/-- One byte too many for the mRO50: the loop is never left. -/
theorem commandLoopLaw_fails_full :
    ¬ CommandLoopLaw .mRo50 (List.replicate 129 65) := by
  intro h
  have hfits : (List.replicate 129 (65 : UInt8)).length ≤ 128 :=
    exists_ended_iff.mp (h.ends fun _ => 0)
  rw [List.length_replicate] at hfits
  omega

/-! ### The exchange a loop amounts to -/

/-- A loop that is left is an exchange that ends with the timeout, with the answer in its reads. -/
theorem mRo50OscillatorCmd_of_ended {chunk : ℕ → ℕ} {answer : List UInt8} {n : ℕ}
    (h : (commandLoop .mRo50 chunk answer n).Ended) :
    mRo50OscillatorCmd ⟨true, (commandLoop .mRo50 chunk answer n).reads, .timeout⟩
      = mRo50OscillatorCmd ⟨true, [answer], .timeout⟩ := by
  have hstored : (commandLoop .mRo50 chunk answer n).reads.flatten = answer := stored_of_ended h
  simp only [mRo50OscillatorCmd, hstored, List.flatten_singleton]

end Oscillatord
