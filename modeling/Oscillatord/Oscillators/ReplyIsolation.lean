import Oscillatord.Oscillators.Mro50Replies
import Oscillatord.Oscillators.Sa5xReplies

/-!
# Isolation of the serial replies

`ReplyLaw` is that what a command of the mRO50 or of the SA5x reads, and whether it succeeds, is the
same after any two histories of the same earlier commands, whatever these have met. It holds
exactly of the commands whose reply is read alike whatever may follow it in the buffer and, for the
status of the mRO50, on the stack (`replyLaw_iff`).
-/

namespace Oscillatord

open StepRun Isolation

/-- A command of a driver, with those that came before it and what it meets. -/
inductive SerialCall
  | mRo50 (cmds : List Mro50Command) (call : Mro50Command × Mro50Met)
  | sa5x (cmds : List Sa5xCmd) (call : Sa5xCmd × Sa5xExchange)

/-- **The law of the replies**: earlier replies change nothing. -/
def ReplyLaw (dummy : ℤ → Bool) : SerialCall → Prop
  | .mRo50 cmds call => Mro50Isolated dummy cmds call
  | .sa5x cmds call => Sa5xIsolated cmds call

/-- The reply says the same whatever follows it. -/
def ReplyAlone : SerialCall → Prop
  | .mRo50 cmds call => Mro50Alone cmds call
  | .sa5x cmds call => Sa5xAlone cmds call

/-- **Isolation of the replies**, for every sequence of commands and everything they may meet. -/
theorem replyLaw_iff (dummy : ℤ → Bool) (call : SerialCall) :
    ReplyLaw dummy call ↔ ReplyAlone call := by
  cases call with
  | mRo50 cmds call => exact isolated_mRo50_iff dummy cmds call
  | sa5x cmds call => exact isolated_sa5x_iff cmds call

/-- A reply of the SA5x that breaks off before its bracket. -/
def tauBrokenOff : Sa5xExchange :=
  .answered (ascii "[=500") (by decide)

/-- What an earlier one has left. -/
def phaseBrokenOff : Sa5xExchange :=
  .broken (ascii "[=1234567") (by decide)

/-- **A reply that breaks off is continued by an older one**: the value of tau is `500`, or
`5004567` after a phase that could not be read to its end. -/
theorem replyLaw_fails_broken_off :
    ¬ ∃ dummy, ReplyLaw dummy (.sa5x [.getPhase] (.getTau, tauBrokenOff)) := by
  rintro ⟨dummy, hlaw⟩
  have hsame := hlaw [(.getPhase, .unsent)] [(.getPhase, phaseBrokenOff)] rfl rfl
  exact absurd hsame (by decide +kernel)

end Oscillatord
