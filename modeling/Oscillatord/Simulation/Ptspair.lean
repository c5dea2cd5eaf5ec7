import Oscillatord.Library.CircularBuffer
import Oscillatord.Library.Runs

/-!
# The pair of terminals of the simulator

The simulator of an oscillator connects two terminals: what is read from one is kept in the circular
buffer of the other until it can be written there. A flag tells a full buffer from an empty one when
its two ends meet, and a terminal is watched for being writable, with `EPOLLOUT`, while its buffer
holds something.

`PtspairLaw` is what there should be of this: what was read from one terminal is what was written to
the other and what its buffer holds, and the other is watched exactly when that is something. A run
is any sequence of reads and writes of any lengths, and of errors. The law holds throughout exactly
the runs in which nothing is read for a full buffer, where the length that is left does not look at
the flag, and in which no read of nothing meets an empty buffer and no write of nothing a full one,
each of which turns the flag over (`ptspairLaw_throughout_iff`).
-/

namespace Oscillatord

open StepRun CircularBuffer

/-- `PTSPAIR_BUFFER_SIZE`. -/
def ptspairBufferSize : ℕ := 0x200

/-- `struct buffer`, of `n` bytes; `stop` is its field `end`. -/
structure Buffer (n : ℕ) where
  buf : ℕ → UInt8
  start : Fin n
  stop : Fin n
  full : Bool

/-- `enum pts_index`. -/
inductive PtsIndex
  | foo
  | bar
  deriving Repr, DecidableEq

/-- `get_other_pts`. -/
def PtsIndex.other : PtsIndex → PtsIndex
  | .foo => .bar
  | .bar => .foo

/-- `struct pts`: its buffer, and whether it is watched for being writable. -/
structure Pts (n : ℕ) where
  buf : Buffer n
  out : Bool

/-- `struct ptspair`. -/
abbrev Ptspair (n : ℕ) := PtsIndex → Pts n

variable {n : ℕ}

/-- A place of the buffer, around its end. -/
def Buffer.around (b : Buffer n) (i : ℕ) : Fin n := ⟨i % n, Nat.mod_lt _ b.start.pos⟩

/-- `write_length`. -/
def Buffer.writeLength (b : Buffer n) : ℕ :=
  if (b.stop : ℕ) < b.start then b.start - b.stop else n - b.stop

/-- `written_update`. -/
def Buffer.writtenUpdate (b : Buffer n) (added : ℕ) : Buffer n :=
  let stop := b.around (b.stop + added)
  { b with stop := stop, full := if (stop : ℕ) = b.start then true else b.full }

/-- `read_length`. -/
def Buffer.readLength (b : Buffer n) : ℕ :=
  if (b.stop : ℕ) < b.start then n - b.start
  else if (b.stop : ℕ) = b.start then if b.full then n - b.start else 0
  else b.stop - b.start

/-- `read_update`. -/
def Buffer.readUpdate (b : Buffer n) (consumed : ℕ) : Buffer n :=
  { b with
    full := if (b.stop : ℕ) = b.start then false else b.full
    start := b.around (b.start + consumed) }

/-- A read of these bytes, which are stored from `write_start` on. -/
def Buffer.read (b : Buffer n) (bytes : List UInt8) : Buffer n :=
  { b with buf := store b.buf b.stop bytes }.writtenUpdate bytes.length

/-- The first `count` bytes from `read_start` on. -/
def Buffer.next (b : Buffer n) (count : ℕ) : List UInt8 :=
  (List.range count).map fun i => b.buf (b.start + i)

/-- `process_in_event`: the pair, the bytes that were read, and the return value. `incoming` is what
there is to read, or the error. -/
def processInEvent (p : Ptspair n) (pts : PtsIndex) (incoming : Except ℕ (List UInt8)) :
    Ptspair n × List UInt8 × ℤ :=
  let other := p pts.other
  let len := other.buf.writeLength
  if len = 0 then (p, [], -105)
  else
    match incoming with
    | .error errno => (p, [], -errno)
    | .ok bytes =>
      let isRegistered := other.buf.readLength ≠ 0
      (Function.update p pts.other
        ⟨other.buf.read (bytes.take len), if isRegistered then other.out else true⟩,
        bytes.take len, 0)

/-- `process_out_event`: the pair, the bytes that were written, and the return value. `room` is how
many bytes can be written, or the error. -/
def processOutEvent (p : Ptspair n) (pts : PtsIndex) (room : Except ℕ ℕ) :
    Ptspair n × List UInt8 × ℤ :=
  let buf := (p pts).buf
  match room with
  | .error errno => (p, [], -errno)
  | .ok room =>
    let written := min room buf.readLength
    let next := buf.readUpdate written
    (Function.update p pts ⟨next, if next.readLength = 0 then false else (p pts).out⟩,
      buf.next written, 0)

/-! ### What a buffer holds -/

/-- How much a buffer holds. -/
def Buffer.count (b : Buffer n) : ℕ :=
  if (b.start : ℕ) < b.stop then b.stop - b.start
  else if (b.stop : ℕ) < b.start then n - b.start + b.stop
  else if b.full then n else 0

/-- What a buffer holds. -/
def Buffer.pending (b : Buffer n) : List UInt8 := window n b.buf b.start b.count

/-- The flag is set only when the ends meet. -/
def Buffer.Flag (b : Buffer n) : Prop := b.full = true → (b.stop : ℕ) = b.start

variable {b : Buffer n}

@[simp] theorem Buffer.length_pending : b.pending.length = b.count := length_window

theorem Buffer.count_le : b.count ≤ n := by
  have hstart := b.start.isLt
  have hstop := b.stop.isLt
  rw [Buffer.count]
  split_ifs <;> omega

theorem Buffer.writeLength_pos : 0 < b.writeLength := by
  have hstart := b.start.isLt
  have hstop := b.stop.isLt
  rw [Buffer.writeLength]
  split_ifs <;> omega

/-- What can be written in one go is of what the buffer holds, and is nothing only if that is. -/
theorem Buffer.readLength_le :
    b.readLength ≤ b.count ∧ b.start + b.readLength ≤ n ∧ (b.readLength = 0 ↔ b.count = 0) := by
  have hstart := b.start.isLt
  have hstop := b.stop.isLt
  rw [Buffer.readLength, Buffer.count]
  split_ifs <;> omega

/-- A buffer that is not full has room behind what it holds. -/
theorem Buffer.writeLength_le (hnot : b.count ≠ n) :
    b.stop + b.writeLength ≤ n ∧ b.count + b.writeLength ≤ n := by
  have hstart := b.start.isLt
  have hstop := b.stop.isLt
  rw [Buffer.count] at hnot ⊢
  rw [Buffer.writeLength]
  split_ifs at hnot ⊢ <;> omega

/-- What a buffer holds ends where the next byte is stored. -/
theorem Buffer.stop_eq : (b.start + b.count) % n = b.stop := by
  have hstart := b.start.isLt
  have hstop := b.stop.isLt
  rw [Buffer.count]
  split_ifs with hlt hgt hfull
  · rw [Nat.mod_eq_of_lt (by omega)]
    omega
  · rw [show b.start + (n - b.start + b.stop) = b.stop + n by omega, Nat.add_mod_right,
      Nat.mod_eq_of_lt hstop]
  · rw [Nat.add_mod_right, Nat.mod_eq_of_lt hstart]
    omega
  · rw [Nat.add_zero, Nat.mod_eq_of_lt hstart]
    omega

/-- The ends of a full buffer meet. -/
theorem Buffer.stop_eq_start (hflag : b.Flag) (hall : b.count = n) : (b.stop : ℕ) = b.start := by
  have hstart := b.start.isLt
  have hstop := b.stop.isLt
  rw [Buffer.count] at hall
  split_ifs at hall with hlt hgt hfull
  · omega
  · omega
  · exact hflag hfull
  · omega

/-- The end of a buffer after a read that goes up to the end of the array at most. -/
theorem Buffer.stop_read {bytes : List UInt8} (hk : b.stop + bytes.length ≤ n) :
    ((b.read bytes).stop : ℕ) = if b.stop + bytes.length < n then b.stop + bytes.length else 0 := by
  simp only [Buffer.read, Buffer.writtenUpdate, Buffer.around]
  split_ifs with hlt
  · exact Nat.mod_eq_of_lt hlt
  · rw [show b.stop + bytes.length = n by omega, Nat.mod_self]

theorem Buffer.full_eq_false (hflag : b.Flag) (hnot : b.count ≠ n) : b.full = false := by
  cases hfull : b.full with
  | false => rfl
  | true =>
    have hends := hflag hfull
    simp [Buffer.count, hends, hfull] at hnot

/-- **A read behind what a buffer holds.** -/
theorem Buffer.pending_read (hflag : b.Flag) (hnot : b.count ≠ n) {bytes : List UInt8}
    (hne : bytes ≠ []) (hk : bytes.length ≤ b.writeLength) :
    (b.read bytes).pending = b.pending ++ bytes ∧ (b.read bytes).Flag := by
  have hstart := b.start.isLt
  have hstop := b.stop.isLt
  have hpos := List.length_pos_of_ne_nil hne
  obtain ⟨hend, hroom⟩ := Buffer.writeLength_le hnot
  have hread : ((b.read bytes).stop : ℕ) = _ := Buffer.stop_read (by omega)
  have hfull := Buffer.full_eq_false hflag hnot
  have hbegin : (b.read bytes).start = b.start := rfl
  have hset : (b.read bytes).full = true ↔ ((b.read bytes).stop : ℕ) = b.start := by
    simp only [Buffer.read, Buffer.writtenUpdate, hfull]
    split_ifs <;> simp_all
  have hcount : (b.read bytes).count = b.count + bytes.length := by
    simp only [Buffer.writeLength, Buffer.count, hfull] at hk hnot
    simp only [Buffer.count, hbegin, hset, hread, hfull]
    split_ifs at hk hnot ⊢ <;> omega
  refine ⟨?_, fun h => hset.mp h⟩
  rw [Buffer.pending, Buffer.pending, hcount, hbegin]
  have hcells : (b.read bytes).buf = store b.buf ((b.start + b.count) % n) bytes := by
    rw [Buffer.stop_eq]
    rfl
  rw [hcells]
  exact window_store (by rw [Buffer.stop_eq]; omega) (by omega)

/-- A read for a full buffer leaves what was read only. -/
theorem Buffer.count_read_of_full (hflag : b.Flag) (hall : b.count = n) {bytes : List UInt8}
    (hne : bytes ≠ []) (hk : bytes.length ≤ b.writeLength) :
    (b.read bytes).count = bytes.length := by
  have hstart := b.start.isLt
  have hstop := b.stop.isLt
  have hpos := List.length_pos_of_ne_nil hne
  have hends := Buffer.stop_eq_start hflag hall
  have hfull : b.full = true := by
    by_contra hnot
    simp [Buffer.count, hends, hnot] at hall
    omega
  rw [Buffer.writeLength] at hk
  have hread : ((b.read bytes).stop : ℕ) = _ := Buffer.stop_read (by split_ifs at hk <;> omega)
  have hset : (b.read bytes).full = true := by
    simp [Buffer.read, Buffer.writtenUpdate, hfull]
  simp only [Buffer.count, show (b.read bytes).start = b.start from rfl, hset, hread, if_true]
  split_ifs at hk ⊢ <;> omega

/-- A read of nothing sets the flag of an empty buffer, and changes no other. -/
theorem Buffer.read_nil (hflag : b.Flag) :
    (b.read []).Flag ∧ (b.count ≠ 0 → (b.read []).pending = b.pending) ∧
      (b.count = 0 → (b.read []).count = n) := by
  have haround : b.around b.stop = b.stop := Fin.ext (Nat.mod_eq_of_lt b.stop.isLt)
  have hread : b.read []
      = { b with full := if (b.stop : ℕ) = b.start then true else b.full } := by
    simp only [Buffer.read, Buffer.writtenUpdate, store_nil, List.length_nil, Nat.add_zero]
    exact congrArg (fun stop => (⟨b.buf, b.start, stop, if (stop : ℕ) = b.start then true
      else b.full⟩ : Buffer n)) haround
  have hstop := b.stop.isLt
  rw [hread]
  refine ⟨fun hfull => ?_, fun hsome => ?_, fun hnone => ?_⟩
  · simp only at hfull
    split_ifs at hfull with hends
    · exact hends
    · exact hflag hfull
  · have hcount : Buffer.count { b with full := if (b.stop : ℕ) = b.start then true else b.full }
        = b.count := by
      rw [Buffer.count] at hsome
      simp only [Buffer.count]
      by_cases hends : (b.stop : ℕ) = b.start
      · simp_all
      · simp [hends]
    rw [Buffer.pending, hcount]
    rfl
  · have hends : (b.stop : ℕ) = b.start := by
      rw [Buffer.count] at hnone
      split_ifs at hnone <;> omega
    simp [Buffer.count, hends]

/-- **A write of what a buffer holds first.** -/
theorem Buffer.pending_readUpdate (hflag : b.Flag) {k : ℕ} (hk : k ≤ b.readLength)
    (hzero : k = 0 → b.count ≠ n) :
    b.pending = b.next k ++ (b.readUpdate k).pending ∧ (b.readUpdate k).Flag := by
  have hstart := b.start.isLt
  have hstop := b.stop.isLt
  obtain ⟨hle, hend, -⟩ := Buffer.readLength_le (b := b)
  have hnext : ((b.readUpdate k).start : ℕ) = if b.start + k < n then b.start + k else 0 := by
    simp only [Buffer.readUpdate, Buffer.around]
    split_ifs with hlt
    · exact Nat.mod_eq_of_lt hlt
    · rw [show b.start + k = n by omega, Nat.mod_self]
  have hset : (b.readUpdate k).full = false := by
    simp only [Buffer.readUpdate]
    split_ifs with hends
    · rfl
    · exact Bool.eq_false_iff.mpr (mt hflag hends)
  have hcount : b.count = k + (b.readUpdate k).count := by
    simp only [Buffer.readLength, Buffer.count] at hk hzero
    simp only [Buffer.count, show (b.readUpdate k).stop = b.stop from rfl, hset,
      Bool.false_eq_true, if_false]
    by_cases hlt : b.start + k < n
    · rw [if_pos hlt] at hnext
      rw [hnext]
      split_ifs at hk hzero ⊢ <;> omega
    · rw [if_neg hlt] at hnext
      rw [hnext]
      split_ifs at hk hzero ⊢ <;> omega
  have hfirst : b.next k = window n b.buf b.start k := by
    refine List.map_congr_left fun i hi => ?_
    have hi := List.mem_range.mp hi
    rw [Nat.mod_eq_of_lt (by omega)]
  refine ⟨?_, fun hfull => ?_⟩
  · have hshift : window n b.buf ((b.start + k) % n) (b.readUpdate k).count = _ := window_mod
    rw [Buffer.pending, hcount, window_add, hfirst, ← hshift]
    rfl
  · rw [hset] at hfull
    cases hfull

/-- A write of nothing empties a full buffer. -/
theorem Buffer.count_readUpdate_zero (hflag : b.Flag) (hall : b.count = n) :
    (b.readUpdate 0).count = 0 := by
  have hends := Buffer.stop_eq_start hflag hall
  have hnext : ((b.readUpdate 0).start : ℕ) = b.start := Nat.mod_eq_of_lt b.start.isLt
  have hset : (b.readUpdate 0).full = false := by simp [Buffer.readUpdate, hends]
  simp [Buffer.count, show (b.readUpdate 0).stop = b.stop from rfl, hnext, hset, hends]

/-! ### Runs -/

/-- The pair, what was read from each terminal, and what was written to it. -/
structure PtspairRun (n : ℕ) where
  pair : Ptspair n
  received : PtsIndex → List UInt8
  sent : PtsIndex → List UInt8

/-- A terminal is readable or writable. -/
inductive PtspairEvent
  | input (pts : PtsIndex) (incoming : Except ℕ (List UInt8))
  | output (pts : PtsIndex) (room : Except ℕ ℕ)

/-- `process_events`, of one event. -/
def ptspairStep (r : PtspairRun n) : PtspairEvent → PtspairRun n
  | .input pts incoming =>
    let o := processInEvent r.pair pts incoming
    { r with pair := o.1, received := Function.update r.received pts (r.received pts ++ o.2.1) }
  | .output pts room =>
    let o := processOutEvent r.pair pts room
    { r with pair := o.1, sent := Function.update r.sent pts (r.sent pts ++ o.2.1) }

/-- What should hold of one terminal, where `received` is what was read from the other. -/
structure PtsLaw (p : Pts n) (received sent : List UInt8) : Prop where
  flag : p.buf.Flag
  stream : received = sent ++ p.buf.pending
  out : p.out = true ↔ p.buf.pending ≠ []

/-- **The law of the pair.** -/
def PtspairLaw (r : PtspairRun n) : Prop :=
  ∀ pts, PtsLaw (r.pair pts) (r.received pts.other) (r.sent pts)

/-- Something is read for a buffer that is not full, nothing for one that is not empty, and nothing
is written from no full one. -/
def PtspairProper (r : PtspairRun n) : PtspairEvent → Prop
  | .input pts (.ok bytes) =>
    if bytes = [] then (r.pair pts.other).buf.count ≠ 0 else (r.pair pts.other).buf.count ≠ n
  | .output pts (.ok room) => room = 0 → (r.pair pts).buf.count ≠ n
  | _ => True

/-- `ptspair_init`. -/
def ptspairStart : PtspairRun ptspairBufferSize where
  pair := fun _ => ⟨⟨fun _ => 0, ⟨0, by decide⟩, ⟨0, by decide⟩, false⟩, false⟩
  received := fun _ => []
  sent := fun _ => []

variable {p : Pts n} {received sent : List UInt8}

theorem Buffer.pending_ne_nil_iff : b.pending ≠ [] ↔ b.count ≠ 0 := by
  rw [← Buffer.length_pending, ne_eq, ne_eq, List.length_eq_zero_iff]

/-- A terminal after a read for it. -/
theorem PtsLaw.read_iff (h : PtsLaw p received sent) (bytes : List UInt8) :
    PtsLaw ⟨p.buf.read (bytes.take p.buf.writeLength),
        if p.buf.readLength ≠ 0 then p.out else true⟩
      (received ++ bytes.take p.buf.writeLength) sent ↔
      if bytes = [] then p.buf.count ≠ 0 else p.buf.count ≠ n := by
  have hstart := p.buf.start.isLt
  have hroom := p.buf.writeLength_pos
  have hnext := (Buffer.readLength_le (b := p.buf)).2.2
  have hheld := congrArg List.length h.stream
  rw [List.length_append, Buffer.length_pending] at hheld
  by_cases hbytes : bytes = []
  · rw [if_pos hbytes]
    obtain ⟨hflag, hsome, hnone⟩ := Buffer.read_nil h.flag
    rw [hbytes, List.take_nil, List.append_nil]
    constructor
    · intro hlaw hcount
      have hlength := congrArg List.length hlaw.stream
      rw [List.length_append, Buffer.length_pending, hnone hcount] at hlength
      omega
    · intro hcount
      refine ⟨hflag, by rw [hsome hcount]; exact h.stream, ?_⟩
      rw [hsome hcount, if_pos (mt hnext.mp hcount)]
      exact h.out
  · rw [if_neg hbytes]
    have hne : bytes.take p.buf.writeLength ≠ [] := by simp [hbytes, hroom.ne']
    have hle : (bytes.take p.buf.writeLength).length ≤ p.buf.writeLength := by simp
    constructor
    · intro hlaw hcount
      have hlength := congrArg List.length hlaw.stream
      rw [List.length_append, List.length_append, Buffer.length_pending,
        Buffer.count_read_of_full h.flag hcount hne hle] at hlength
      omega
    · intro hcount
      obtain ⟨hpending, hflag⟩ := Buffer.pending_read h.flag hcount hne hle
      refine ⟨hflag, by rw [hpending, h.stream, List.append_assoc], ?_⟩
      refine iff_of_true ?_ (by rw [hpending]; exact List.append_ne_nil_of_right_ne_nil _ hne)
      split_ifs with hlength
      · exact h.out.mpr (Buffer.pending_ne_nil_iff.mpr (mt hnext.mpr hlength))
      · rfl

/-- A terminal after a write to it. -/
theorem PtsLaw.write_iff (h : PtsLaw p received sent) (room : ℕ) :
    PtsLaw ⟨p.buf.readUpdate (min room p.buf.readLength),
        if (p.buf.readUpdate (min room p.buf.readLength)).readLength = 0 then false else p.out⟩
      received (sent ++ p.buf.next (min room p.buf.readLength)) ↔
      (room = 0 → p.buf.count ≠ n) := by
  have hstart := p.buf.start.isLt
  have hnext := (Buffer.readLength_le (b := p.buf)).2.2
  constructor
  · rintro hlaw rfl hcount
    have hheld := congrArg List.length h.stream
    have hlength := congrArg List.length hlaw.stream
    rw [Nat.zero_min, List.length_append, Buffer.length_pending,
      Buffer.count_readUpdate_zero h.flag hcount] at hlength
    simp only [Buffer.next, List.range_zero, List.map_nil, List.append_nil] at hlength
    rw [List.length_append, Buffer.length_pending] at hheld
    omega
  · intro hroom
    obtain ⟨hpending, hflag⟩ := Buffer.pending_readUpdate h.flag
      (Nat.min_le_right room p.buf.readLength) fun hzero => by
        rcases Nat.min_eq_zero_iff.mp hzero with hzero | hzero
        · exact hroom hzero
        · rw [hnext.mp hzero]
          exact (Nat.zero_le _).trans_lt hstart |>.ne
    refine ⟨hflag, by rw [List.append_assoc, ← hpending]; exact h.stream, ?_⟩
    have hleft := (Buffer.readLength_le (b := p.buf.readUpdate (min room p.buf.readLength))).2.2
    rw [Buffer.pending_ne_nil_iff]
    split_ifs with hempty
    · exact iff_of_false (by simp) fun hcount => hcount (hleft.mp hempty)
    · have hcount := mt hleft.mpr hempty
      refine iff_of_true (h.out.mpr ?_) hcount
      rw [hpending]
      exact List.append_ne_nil_of_right_ne_nil _ (Buffer.pending_ne_nil_iff.mpr hcount)

theorem other_other (pts : PtsIndex) : pts.other.other = pts := by cases pts <;> rfl

theorem other_ne (pts : PtsIndex) : pts.other ≠ pts := by cases pts <;> decide

theorem forall_ptsIndex {P : PtsIndex → Prop} (pts : PtsIndex) :
    (∀ i, P i) ↔ P pts ∧ P pts.other := by
  cases pts
  · exact ⟨fun h => ⟨h _, h _⟩, fun h i => by cases i; exacts [h.1, h.2]⟩
  · exact ⟨fun h => ⟨h _, h _⟩, fun h i => by cases i; exacts [h.2, h.1]⟩

/-- **A step** keeps the law exactly when it is proper. -/
theorem ptspairLaw_step_iff {r : PtspairRun n} (h : PtspairLaw r) (e : PtspairEvent) :
    PtspairLaw (ptspairStep r e) ↔ PtspairProper r e := by
  cases e with
  | input pts incoming =>
    have hother := h pts.other
    rw [other_other] at hother
    rw [PtspairLaw, forall_ptsIndex pts, other_other]
    have hroom := (r.pair pts.other).buf.writeLength_pos.ne'
    cases incoming with
    | error errno => simp [ptspairStep, processInEvent, hroom, PtspairProper, h pts, hother]
    | ok bytes =>
      simp only [ptspairStep, processInEvent, if_neg hroom, PtspairProper,
        Function.update_self, Function.update_of_ne (other_ne pts),
        Function.update_of_ne (other_ne pts).symm]
      rw [and_iff_right (h pts)]
      exact hother.read_iff bytes
  | output pts room =>
    have hother := h pts.other
    rw [other_other] at hother
    rw [PtspairLaw, forall_ptsIndex pts, other_other]
    cases room with
    | error errno => simp [ptspairStep, processOutEvent, PtspairProper, h pts, hother]
    | ok room =>
      simp only [ptspairStep, processOutEvent, PtspairProper,
        Function.update_self, Function.update_of_ne (other_ne pts)]
      rw [and_iff_left hother]
      exact (h pts).write_iff room

/-- **The pair of terminals.** -/
theorem ptspairLaw_throughout_iff (es : List PtspairEvent) :
    Throughout ptspairStep PtspairLaw ptspairStart es ↔
      EachStep ptspairStep PtspairProper ptspairStart es := by
  refine throughout_iff_eachStep (J := fun _ => True) trivial ?_ (fun _ _ _ => trivial)
    fun s e _ h => ptspairLaw_step_iff h e
  exact fun pts => ⟨Bool.false_ne_true.elim, rfl, iff_of_false Bool.false_ne_true fun h => h rfl⟩

end Oscillatord
