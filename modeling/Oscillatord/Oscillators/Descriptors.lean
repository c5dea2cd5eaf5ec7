import Oscillatord.Daemon.MainLoop
import Oscillatord.Library.Handles

/-!
# The descriptors of the oscillator drivers

What the drivers of the mRO50, the SA5x and the SA3x do to the descriptors of their serial ports:
each call is the list of its operations, `open`, `close` and everything else on a descriptor, as a
function of the outcomes it meets. A run is any sequence of calls on any number of objects; the
kernel gives out any number that no object holds.

`DriverLaw` is what a call ought to obey: no operation on a number the driver has closed and not
opened again, and nothing left open once `new` has failed or `destroy` has returned. It is obeyed
exactly by the `Tidy` calls (`driverLaw_eachStep_iff`). The error paths of the three constructors
close the descriptor and then destroy the object, which closes it again; the one of
`mRo50_oscillator_new` for `ioctl` closes nothing; `mRo50_oscillator_destroy` takes descriptor 0 for
none; and `mRo50_clean_serial` leaves the number it has closed in the object when it cannot reopen
the port.
-/

namespace Oscillatord

open StepRun Handles

/-! ### Exchanges with a device -/

/-- How an exchange ends: `poll` times out or fails, or `read` fails. -/
inductive ExchangeEnd
  | timeout
  | pollError
  | readError
  deriving Repr, DecidableEq

/-- What a command meets: whether `write` takes all of it, what the reads return one after the
other, and the end. -/
structure Exchange where
  written : Bool
  reads : List (List UInt8)
  ending : ExchangeEnd
  deriving Repr, DecidableEq

/-- The operations of `mRo50_oscillator_cmd` and of `sa5x_oscillator_cmd`. -/
def Exchange.ops (x : Exchange) (fd : ℕ) : List (Op ℕ) :=
  if x.written then
    .use fd :: (x.reads.flatMap fun _ => [.use fd, .use fd]) ++
      (if x.ending = .readError then [.use fd, .use fd] else [.use fd])
  else [.use fd]

/-- The answer `mRo50_oscillator_cmd` returns the length of, `none` where it returns -1. -/
def mRo50OscillatorCmd (x : Exchange) : Option (List UInt8) :=
  let answer := x.reads.flatten
  if !x.written || decide (x.ending ≠ .timeout) then none
  else if answer = [] then none
  else if answer.head? = some 0x3f then none
  else if answer.length < 2 ∨ answer.drop (answer.length - 2) ≠ [0x0a, 0x0a] then none
  else some answer

/-- The outcome of `set_serial_attributes`. -/
inductive TermiosOutcome
  | getFails
  | setFails
  | ok
  deriving Repr, DecidableEq

/-- The operations of `set_serial_attributes`. -/
def TermiosOutcome.ops (o : TermiosOutcome) (fd : ℕ) : List (Op ℕ) :=
  if o = .getFails then [.use fd] else [.use fd, .use fd]

/-! ### The mRO50 -/

/-- What `mRo50_clean_serial` meets. -/
structure CleanIo where
  reopened : Option ℕ
  attributes : TermiosOutcome
  exchange : Exchange
  deriving Repr, DecidableEq

/-- `mRo50_clean_serial`: its operations, and `serial_fd` after it. -/
def mRo50CleanSerial (io : CleanIo) (serialFd : ℕ) : List (Op ℕ) × ℕ :=
  match io.reopened with
  | none => ([.release serialFd], serialFd)
  | some fd =>
    (.release serialFd :: .acquire fd :: (io.attributes.ops fd ++
      if io.attributes = .ok then io.exchange.ops fd else []), fd)

/-- A command whose answer is looked at, with what `sscanf` makes of it, and the cleaning of the
port should there be none. -/
structure Query where
  exchange : Exchange
  parsed : Bool
  clean : CleanIo
  deriving Repr, DecidableEq

/-- The commands of the driver that clean the serial port when the answer is not accepted: the
operations, `serial_fd` after them, and whether the caller goes on. -/
def mRo50Query (accepts : List UInt8 → Bool) (q : Query) (serialFd : ℕ) :
    List (Op ℕ) × ℕ × Bool :=
  if ((mRo50OscillatorCmd q.exchange).any accepts) then
    (q.exchange.ops serialFd, serialFd, q.parsed)
  else
    let cleaned := mRo50CleanSerial q.clean serialFd
    (q.exchange.ops serialFd ++ cleaned.1, cleaned.2, false)

/-- Two such commands, the second when the first one goes on. -/
def mRo50QueryTwo (q q' : Query) (serialFd : ℕ) : List (Op ℕ) × ℕ :=
  let first := mRo50Query (fun _ => true) q serialFd
  if first.2.2 then
    let second := mRo50Query (fun _ => true) q' first.2.1
    (first.1 ++ second.1, second.2.1)
  else (first.1, first.2.1)

/-- `read_temperature_compensation_parameters`. -/
def readTemperatureCompensationParameters (a b : Query) (serialFd : ℕ) : List (Op ℕ) × ℕ :=
  mRo50QueryTwo a b serialFd

/-- `mRo50_oscillator_get_ctrl`. -/
def mRo50OscillatorGetCtrl (coarse fine : Query) (serialFd : ℕ) : List (Op ℕ) × ℕ :=
  mRo50QueryTwo coarse fine serialFd

/-- `mRO50_oscillator_parse_attributes`, which accepts an answer of `STATUS_ANSWER_SIZE` bytes. -/
def mRo50OscillatorParseAttributes (status : Query) (serialFd : ℕ) : List (Op ℕ) × ℕ :=
  let result := mRo50Query (fun answer => answer.length = 62) status serialFd
  (result.1, result.2.1)

/-- `mRo50_oscillator_apply_output`. -/
def mRo50OscillatorApplyOutput (action : OdAction) (x : Exchange) (serialFd : ℕ) : List (Op ℕ) :=
  if action = .adjustFine ∨ action = .adjustCoarse then x.ops serialFd else []

/-- `mRo50_oscillator_destroy`. -/
def mRo50OscillatorDestroy (serialFd : ℕ) : List (Op ℕ) :=
  if serialFd ≠ 0 then [.release serialFd] else []

/-- A turn of the loop of `mRo50_reset` before its timeout. `rewritten` is the outcome of the write
that repeats the command. -/
inductive ResetTurn
  | pollError
  | pollTimeout
  | readError
  | read (bytes : List UInt8) (rewritten : Bool)
  deriving Repr, DecidableEq

/-- `strstr(answer_str, "Start done>") != NULL`. -/
def startDone (answer : List UInt8) : Bool :=
  (answer.takeWhile (· ≠ 0)).tails.any fun tail =>
    List.isPrefixOf [0x53, 0x74, 0x61, 0x72, 0x74, 0x20, 0x64, 0x6f, 0x6e, 0x65, 0x3e] tail

/-- The loop of `mRo50_reset`, on what it has read so far: its operations and its result. -/
def mRo50ResetLoop (fd : ℕ) : List ResetTurn → List UInt8 → List (Op ℕ) × Bool
  | [], _ => ([], false)
  | .pollError :: turns, answer | .pollTimeout :: turns, answer =>
    let rest := mRo50ResetLoop fd turns answer
    (.use fd :: rest.1, rest.2)
  | .readError :: turns, answer =>
    let rest := mRo50ResetLoop fd turns answer
    (.use fd :: .use fd :: rest.1, rest.2)
  | .read bytes rewritten :: turns, read =>
    let answer := read ++ bytes
    if answer ≠ [] ∧ startDone answer then ([.use fd, .use fd], true)
    else if answer.getLast? = some 0x0a then
      if 1 < answer.length ∧ answer.head? = some 0x3f then
        if rewritten then
          let rest := mRo50ResetLoop fd turns []
          (.use fd :: .use fd :: .use fd :: rest.1, rest.2)
        else ([.use fd, .use fd, .use fd], false)
      else
        let rest := mRo50ResetLoop fd turns []
        (.use fd :: .use fd :: rest.1, rest.2)
    else
      let rest := mRo50ResetLoop fd turns (if answer.length = 128 then [] else answer)
      (.use fd :: .use fd :: rest.1, rest.2)

/-- What `mRo50_reset` meets. -/
structure ResetIo where
  written : Bool
  turns : List ResetTurn
  deriving Repr, DecidableEq

/-- `mRo50_reset`: its operations and its result. -/
def mRo50Reset (io : ResetIo) (serialFd : ℕ) : List (Op ℕ) × Bool :=
  if io.written then
    let loop := mRo50ResetLoop serialFd io.turns []
    (.use serialFd :: loop.1, loop.2)
  else ([.use serialFd], false)

/-- What `mRo50_oscillator_new` meets: the descriptor of `mro_path`, if it opens, with the success
of `ioctl`, and then the serial port. -/
structure Mro50NewIo where
  allocated : Bool
  board : Option (ℕ × Bool)
  serial : Option ℕ
  attributes : TermiosOutcome
  reset : ResetIo
  parameterA : Query
  parameterB : Query
  deriving Repr, DecidableEq

/-- `mRo50_oscillator_new` from the serial port on: its operations, and `serial_fd` of the object
it returns. -/
def mRo50OpenSerial (io : Mro50NewIo) : List (Op ℕ) × Option ℕ :=
  match io.serial with
  | none => (mRo50OscillatorDestroy 0, none)
  | some serialFd =>
    let opened := .acquire serialFd :: io.attributes.ops serialFd
    let reset := mRo50Reset io.reset serialFd
    if io.attributes ≠ .ok then
      (opened ++ .release serialFd :: mRo50OscillatorDestroy serialFd, none)
    else if !reset.2 then
      (opened ++ reset.1 ++ .release serialFd :: mRo50OscillatorDestroy serialFd, none)
    else
      let read :=
        readTemperatureCompensationParameters io.parameterA io.parameterB serialFd
      (opened ++ reset.1 ++ read.1, some read.2)

/-- `mRo50_oscillator_new`. -/
def mRo50OscillatorNew (io : Mro50NewIo) : List (Op ℕ) × Option ℕ :=
  if !io.allocated then ([], none)
  else
    match io.board with
    | none => mRo50OpenSerial io
    | some (fd, true) =>
      let serial := mRo50OpenSerial io
      (.acquire fd :: .use fd :: .release fd :: serial.1, serial.2)
    | some (fd, false) => (.acquire fd :: .use fd :: mRo50OscillatorDestroy 0, none)

/-! ### The SA5x and the SA3x -/

/-- `sa5x_oscillator_destroy` and `sa3x_oscillator_destroy`, on an object that has a descriptor. -/
def saOscillatorDestroy (oscFd : ℕ) : List (Op ℕ) := [.release oscFd]

/-- The constructors of the two drivers up to the commands they send, which `cmds` are the
operations of. -/
def saOscillatorNew (allocated : Bool) (opened : Option ℕ) (attributes : TermiosOutcome)
    (cmds : ℕ → List (Op ℕ)) : List (Op ℕ) × Option ℕ :=
  match opened with
  | some fd =>
    if !allocated then ([], none)
    else if attributes = .ok then (.acquire fd :: (attributes.ops fd ++ cmds fd), some fd)
    else (.acquire fd :: attributes.ops fd ++ .release fd :: saOscillatorDestroy fd, none)
  | none => ([], none)

/-- The operations of the commands of an SA5x, each with what it meets. -/
def sa5xCmdsOps (cmds : List Sa5xCmd) (exchange : ℕ → Exchange) (oscFd : ℕ) : List (Op ℕ) :=
  (List.range cmds.length).flatMap fun i => (exchange i).ops oscFd

/-- What `sa5x_oscillator_new` meets. -/
structure Sa5xNewIo where
  allocated : Bool
  opened : Option ℕ
  attributes : TermiosOutcome
  version : Option (ℤ × ℤ)
  phaselimit : IntReading
  now : Timespec
  exchange : ℕ → Exchange

/-- The operations of `sa5x_oscillator_new`. -/
def sa5xOscillatorNewOps (io : Sa5xNewIo) : List (Op ℕ) × Option ℕ :=
  saOscillatorNew io.allocated io.opened io.attributes
    (sa5xCmdsOps (sa5xOscillatorNew io.version io.phaselimit io.now).2 io.exchange)

/-- What `sa3x_oscillator_new` meets. -/
structure Sa3xNewIo where
  allocated : Bool
  opened : Option ℕ
  attributes : TermiosOutcome
  deriving Repr, DecidableEq

/-- `sa3x_oscillator_new`. -/
def sa3xOscillatorNew (io : Sa3xNewIo) : List (Op ℕ) × Option ℕ :=
  saOscillatorNew io.allocated io.opened io.attributes fun _ => []

/-- What `sa3x_oscillator_parse_attributes` meets: the attributes are recent, or `write`, `poll` or
nothing fails before `read`. -/
inductive Sa3xTelemetry
  | recent
  | writeError
  | pollError
  | read
  deriving Repr, DecidableEq

/-- `sa3x_oscillator_parse_attributes`. -/
def sa3xOscillatorParseAttributes (telemetry : Sa3xTelemetry) (oscFd : ℕ) : List (Op ℕ) :=
  match telemetry with
  | .recent => []
  | .writeError => [.use oscFd]
  | .pollError => [.use oscFd, .use oscFd]
  | .read => [.use oscFd, .use oscFd, .use oscFd]

/-! ### Calls -/

/-- An object of one of the drivers, with the number in its descriptor field. -/
inductive DriverObject
  | mRo50 (serialFd : ℕ)
  | sa5x (oscFd : ℕ)
  | sa3x (oscFd : ℕ)
  deriving Repr, DecidableEq

def DriverObject.fd : DriverObject → ℕ
  | .mRo50 serialFd => serialFd
  | .sa5x oscFd => oscFd
  | .sa3x oscFd => oscFd

/-- A constructor with what it meets. -/
inductive DriverNew
  | mRo50 (io : Mro50NewIo)
  | sa5x (io : Sa5xNewIo)
  | sa3x (io : Sa3xNewIo)

/-- The operations of a constructor and the object it returns. -/
def DriverNew.run : DriverNew → List (Op ℕ) × Option DriverObject
  | .mRo50 io => (mRo50OscillatorNew io).map id (Option.map .mRo50)
  | .sa5x io => (sa5xOscillatorNewOps io).map id (Option.map .sa5x)
  | .sa3x io => (sa3xOscillatorNew io).map id (Option.map .sa3x)

/-- A call on an object, with what it meets. The SA5x sends the commands of `Sa5x` in whatever
state it is, and the SA3x has no `apply_output`, as the SA5x has none. -/
inductive DriverCall
  | mRo50GetCtrl (coarse fine : Query)
  | mRo50ParseAttributes (status : Query)
  | mRo50ApplyOutput (action : OdAction) (x : Exchange)
  | sa5xGetCtrl (sa5x : Sa5xOscillator) (env : GetCtrlEnv) (exchange : ℕ → Exchange)
  | sa5xParseAttributes (replies : Sa5xReplies) (exchange : ℕ → Exchange)
  | sa3xGetCtrl
  | sa3xParseAttributes (telemetry : Sa3xTelemetry)

/-- The attributes `sa5x_oscillator_parse_attributes` asks for. -/
def parseAttributesMask : Sa5xMask := ⟨false, false, false, true, true⟩

/-- The operations of a call on an object of its driver, and the number in the object after it. -/
def DriverCall.run : DriverCall → DriverObject → Option (List (Op ℕ) × ℕ)
  | .mRo50GetCtrl coarse fine, .mRo50 fd => some (mRo50OscillatorGetCtrl coarse fine fd)
  | .mRo50ParseAttributes status, .mRo50 fd => some (mRo50OscillatorParseAttributes status fd)
  | .mRo50ApplyOutput action x, .mRo50 fd => some (mRo50OscillatorApplyOutput action x fd, fd)
  | .sa5xGetCtrl sa5x env exchange, .sa5x fd =>
    some (sa5xCmdsOps (sa5xOscillatorGetCtrl sa5x env).cmds exchange fd, fd)
  | .sa5xParseAttributes replies exchange, .sa5x fd =>
    some (sa5xCmdsOps (sa5xOscillatorGetAttributes parseAttributesMask replies).cmds exchange fd,
      fd)
  | .sa3xGetCtrl, .sa3x fd => some ([], fd)
  | .sa3xParseAttributes telemetry, .sa3x fd =>
    some (sa3xOscillatorParseAttributes telemetry fd, fd)
  | _, _ => none

/-- The operations of `destroy`. -/
def DriverObject.destroy : DriverObject → List (Op ℕ)
  | .mRo50 serialFd => mRo50OscillatorDestroy serialFd
  | .sa5x oscFd => saOscillatorDestroy oscFd
  | .sa3x oscFd => saOscillatorDestroy oscFd

/-- The object with another number. -/
def DriverObject.withFd : DriverObject → ℕ → DriverObject
  | .mRo50 _, fd => .mRo50 fd
  | .sa5x _, fd => .sa5x fd
  | .sa3x _, fd => .sa3x fd

/-- One call of the daemon, on the object at a place. -/
inductive DriverEvent
  | new (place : ℕ) (constructor : DriverNew)
  | call (place : ℕ) (driverCall : DriverCall)
  | destroy (place : ℕ)

/-- The descriptors, each with the place of the object that has opened it, and the objects. -/
structure DriverState where
  fds : ℕ → Status ℕ
  objects : ℕ → Option DriverObject

/-- No driver has been called. -/
def driverStart : DriverState := { fds := fun _ => .unknown, objects := fun _ => none }

def DriverEvent.place : DriverEvent → ℕ
  | .new place _ => place
  | .call place _ => place
  | .destroy place => place

/-- What the call does, if it can be made: its operations and the object at its place after it. A
constructor is called for a place without an object, everything else on the object there. -/
def DriverEvent.run (s : DriverState) : DriverEvent → Option (List (Op ℕ) × Option DriverObject)
  | .new place constructor =>
    match s.objects place with
    | none => some constructor.run
    | some _ => none
  | .call place driverCall =>
    (s.objects place).bind fun o => (driverCall.run o).map fun r => (r.1, some (o.withFd r.2))
  | .destroy place => (s.objects place).map fun o => (o.destroy, none)

/-- What the call does when the kernel answers it so. -/
def driverOutcome (s : DriverState) (e : DriverEvent) :
    Option (List (Op ℕ) × Option DriverObject) :=
  (e.run s).filter fun r => EachStep (Op.apply e.place) Op.Fits s.fds r.1

/-- The daemon after one call. A call that cannot be made changes nothing. -/
def driverStep (s : DriverState) (e : DriverEvent) : DriverState :=
  match driverOutcome s e with
  | some (ops, o) =>
    { fds := after (Op.apply e.place) s.fds ops
      objects := Function.update s.objects e.place o }
  | none => s

/-- **The law of the descriptors** of a call: no operation is on a number the driver has closed and
not opened again, so that none is closed twice; and when the constructor has failed or the object is
destroyed, no descriptor the object has opened is open. -/
def DriverLaw (s : DriverState) (e : DriverEvent) : Prop :=
  ∀ ops o, driverOutcome s e = some (ops, o) →
    EachStep (Op.apply e.place) Op.Proper s.fds ops ∧
      (o = none → Clear e.place (after (Op.apply e.place) s.fds ops))

/-! ### What the parts of a call do -/

variable {fd owner : ℕ} {t : ℕ → Status ℕ}

theorem uses_exchange (x : Exchange) : Uses fd (x.ops fd) := by
  have hreads : Uses fd (x.reads.flatMap fun _ => [.use fd, .use fd]) :=
    uses_flatMap fun _ => by simp
  unfold Exchange.ops
  split
  · rw [uses_append, uses_cons]
    refine ⟨⟨rfl, hreads⟩, ?_⟩
    split <;> simp
  · simp

theorem exchange_ne_nil (x : Exchange) : x.ops fd ≠ [] := by
  unfold Exchange.ops
  split <;> simp

theorem uses_termios (o : TermiosOutcome) : Uses fd (o.ops fd) := by
  unfold TermiosOutcome.ops
  split <;> simp

theorem uses_sa5xCmdsOps (cmds : List Sa5xCmd) (exchange : ℕ → Exchange) :
    Uses fd (sa5xCmdsOps cmds exchange fd) :=
  uses_flatMap fun i => uses_exchange (exchange i)

theorem uses_sa3xOscillatorParseAttributes (telemetry : Sa3xTelemetry) :
    Uses fd (sa3xOscillatorParseAttributes telemetry fd) := by
  cases telemetry <;> simp [sa3xOscillatorParseAttributes]

theorem uses_mRo50ResetLoop (turns : List ResetTurn) (answer : List UInt8) :
    Uses fd (mRo50ResetLoop fd turns answer).1 := by
  fun_induction mRo50ResetLoop fd turns answer with
  | case1 => exact uses_nil
  | case2 turns answer rest ih => exact uses_cons.mpr ⟨rfl, ih⟩
  | case3 turns answer rest ih => exact uses_cons.mpr ⟨rfl, ih⟩
  | case4 turns answer rest ih => exact uses_cons.mpr ⟨rfl, uses_cons.mpr ⟨rfl, ih⟩⟩
  | case5 | case7 => simp
  | case6 =>
    rename_i ih
    exact uses_cons.mpr ⟨rfl, uses_cons.mpr ⟨rfl, uses_cons.mpr ⟨rfl, ih⟩⟩⟩
  | case8 | case9 =>
    rename_i ih
    exact uses_cons.mpr ⟨rfl, uses_cons.mpr ⟨rfl, ih⟩⟩

theorem uses_mRo50Reset (io : ResetIo) : Uses fd (mRo50Reset io fd).1 := by
  unfold mRo50Reset
  split
  · exact uses_cons.mpr ⟨rfl, uses_mRo50ResetLoop _ _⟩
  · simp

theorem uses_reopened (io : CleanIo) (fd : ℕ) :
    Uses fd (io.attributes.ops fd ++
      if io.attributes = .ok then io.exchange.ops fd else []) := by
  refine uses_append.mpr ⟨uses_termios _, ?_⟩
  split
  · exact uses_exchange _
  · exact uses_nil

/-- After a cleaning, the object holds at most the number in it. -/
theorem holdsOnly_mRo50CleanSerial (io : CleanIo) (hheld : HoldsOnly owner t fd) :
    HoldsOnly owner (after (Op.apply owner) t (mRo50CleanSerial io fd).1)
      (mRo50CleanSerial io fd).2 := by
  unfold mRo50CleanSerial
  split
  · exact fun h hh => absurd hh (clear_release hheld h)
  · exact holdsOnly_replace (uses_reopened io _) hheld

/-- A cleaning is proper when the number is not closed yet. -/
theorem proper_mRo50CleanSerial (io : CleanIo) (hopen : t fd ≠ .released) :
    EachStep (Op.apply owner) Op.Proper t (mRo50CleanSerial io fd).1 := by
  unfold mRo50CleanSerial
  split
  · exact eachStep_cons.mpr ⟨hopen, eachStep_nil⟩
  · rename_i serialFd _
    refine eachStep_cons.mpr ⟨hopen, ?_⟩
    rw [← List.append_nil (_ ++ _), proper_acquire_uses (uses_reopened io serialFd)]
    exact eachStep_nil

/-! ### What the calls do -/

/-- A command that cleans the port when it has no answer is a session; when its caller goes on, it
has only used the number, which is still in the object. -/
theorem session_mRo50Query (accepts : List UInt8 → Bool) (q : Query) :
    Session owner (mRo50Query accepts q fd).1 fd (mRo50Query accepts q fd).2.1 ∧
      ((mRo50Query accepts q fd).2.2 = true →
        Uses fd (mRo50Query accepts q fd).1 ∧ (mRo50Query accepts q fd).2.1 = fd) := by
  unfold mRo50Query
  split
  · exact ⟨session_uses (uses_exchange _), fun _ => ⟨uses_exchange _, rfl⟩⟩
  · refine ⟨?_, nofun⟩
    exact Session.prepend (exchange_ne_nil _) (uses_exchange _)
      (fun _ => holdsOnly_mRo50CleanSerial _) (fun _ => proper_mRo50CleanSerial _)

theorem session_mRo50QueryTwo (q q' : Query) :
    Session owner (mRo50QueryTwo q q' fd).1 fd (mRo50QueryTwo q q' fd).2 := by
  have hquery : Session owner _ fd _ ∧ _ := session_mRo50Query (fun _ => true) q
  obtain ⟨hfirst, hon⟩ := hquery
  by_cases hgoes : (mRo50Query (fun _ => true) q fd).2.2 = true
  · obtain ⟨huses, hfd⟩ := hon hgoes
    simp only [mRo50QueryTwo, hgoes, if_true, hfd]
    exact (session_mRo50Query (fun _ => true) q').1.after_uses huses
  · simp only [mRo50QueryTwo, hgoes]
    exact hfirst

/-- Every call on an object is a session from the number in it to the number in it afterwards. -/
theorem session_run {c : DriverCall} {o : DriverObject} {r : List (Op ℕ) × ℕ}
    (hrun : c.run o = some r) : Session owner r.1 o.fd r.2 := by
  cases c <;> cases o <;> simp only [DriverCall.run, Option.some.injEq, reduceCtorEq] at hrun <;>
    subst hrun
  case mRo50GetCtrl => exact session_mRo50QueryTwo _ _
  case mRo50ParseAttributes => exact (session_mRo50Query _ _).1
  case mRo50ApplyOutput action x _ =>
    unfold mRo50OscillatorApplyOutput
    split
    · exact session_uses (uses_exchange x)
    · exact session_uses uses_nil
  case sa5xGetCtrl => exact session_uses (uses_sa5xCmdsOps _ _)
  case sa5xParseAttributes => exact session_uses (uses_sa5xCmdsOps _ _)
  case sa3xGetCtrl => exact session_uses uses_nil
  case sa3xParseAttributes => exact session_uses (uses_sa3xOscillatorParseAttributes _)

/-! ### What the constructors do -/

/-- What a constructor of an owner without descriptors does: it obeys the law exactly when it is
tidy, and the owner holds at most the number in the object it returns. -/
structure NewSpec (owner : ℕ) (r : List (Op ℕ) × Option ℕ) (tidy : Prop) : Prop where
  law : ∀ t, Clear owner t → ((EachStep (Op.apply owner) Op.Proper t r.1 ∧
    (r.2 = none → Clear owner (after (Op.apply owner) t r.1))) ↔ tidy)
  holds : ∀ t, Clear owner t → ∀ fd, r.2 = some fd →
    HoldsOnly owner (after (Op.apply owner) t r.1) fd

variable {ops : List (Op ℕ)} {tidy : Prop}

/-- Nothing is opened. -/
theorem newSpec_nil (htidy : tidy) : NewSpec owner ([], none) tidy where
  law := fun _ hclear => iff_of_true ⟨eachStep_nil, fun _ => hclear⟩ htidy
  holds := fun _ _ _ => nofun

/-- The descriptor stays open in the object. -/
theorem newSpec_open {uses : List (Op ℕ)} {fd' : ℕ} (huses : Uses fd uses)
    (hsession : Session owner ops fd fd') (htidy : tidy) :
    NewSpec owner (.acquire fd :: (uses ++ ops), some fd') tidy where
  law := fun t _ => by
    refine iff_of_true ⟨?_, nofun⟩ htidy
    rw [proper_acquire_uses huses]
    refine hsession.proper _ ?_
    rw [Function.update_self]
    nofun
  holds := fun t hclear fd'' heq => by
    obtain rfl : fd' = fd'' := Option.some.inj heq
    rw [after_acquire_uses huses]
    exact hsession.holds _ (holdsOnly_acquire hclear)

/-- The descriptor is closed, once. -/
theorem newSpec_closed (huses : Uses fd ops) (htidy : tidy) :
    NewSpec owner (.acquire fd :: (ops ++ [.release fd]), none) tidy where
  law := fun _ hclear =>
    iff_of_true ⟨(clear_acquire_release huses hclear).1,
      fun _ => (clear_acquire_release huses hclear).2⟩ htidy
  holds := fun _ _ _ => nofun

/-- The descriptor is closed twice. -/
theorem newSpec_closed_twice (huses : Uses fd ops) (htidy : ¬ tidy) :
    NewSpec owner (.acquire fd :: (ops ++ [.release fd, .release fd]), none) tidy where
  law := fun _ _ => iff_of_false (fun hlaw => not_proper_release_release huses hlaw.1) htidy
  holds := fun _ _ _ => nofun

/-- The descriptor is not closed. -/
theorem newSpec_leaked (htidy : ¬ tidy) : NewSpec owner ([.acquire fd, .use fd], none) tidy where
  law := fun t _ => by
    refine iff_of_false (fun hlaw => ?_) htidy
    exact hlaw.2 rfl fd (Function.update_self _ _ _)
  holds := fun _ _ _ => nofun

/-- Another descriptor is opened and closed first. -/
theorem NewSpec.after_board {r : List (Op ℕ) × Option ℕ} (h : NewSpec owner r tidy) (fd : ℕ) :
    NewSpec owner (.acquire fd :: .use fd :: .release fd :: r.1, r.2) tidy := by
  have huses : Uses fd [Op.use fd] := by simp
  have hboard : ∀ t, Clear owner t →
      EachStep (Op.apply owner) Op.Proper t [.acquire fd, .use fd, .release fd] ∧
        Clear owner (after (Op.apply owner) t [.acquire fd, .use fd, .release fd]) :=
    fun t hclear => clear_acquire_release huses hclear
  have hops : .acquire fd :: .use fd :: .release fd :: r.1
      = [Op.acquire fd, .use fd, .release fd] ++ r.1 := rfl
  refine ⟨fun t hclear => ?_, fun t hclear fd' heq => ?_⟩
  · obtain ⟨hproper, hclosed⟩ := hboard t hclear
    rw [hops, eachStep_append, after_append, ← h.law _ hclosed]
    simp only [hproper, true_and]
  · rw [hops, after_append]
    exact h.holds _ (hboard t hclear).2 fd' heq

/-- The constructor ends without an error path that leaves a descriptor open or closes one twice. -/
def DriverNew.Tidy : DriverNew → Prop
  | .mRo50 io => io.allocated = true → (∀ fd, io.board ≠ some (fd, false)) ∧
      ∀ fd, io.serial = some fd → fd ≠ 0 →
        io.attributes = .ok ∧ (mRo50Reset io.reset fd).2 = true
  | .sa5x io => io.allocated = true → io.opened ≠ none → io.attributes = .ok
  | .sa3x io => io.allocated = true → io.opened ≠ none → io.attributes = .ok

theorem newSpec_saOscillatorNew {allocated : Bool} {opened : Option ℕ}
    {attributes : TermiosOutcome} {cmds : ℕ → List (Op ℕ)} (hcmds : ∀ fd, Uses fd (cmds fd)) :
    NewSpec owner (saOscillatorNew allocated opened attributes cmds)
      (allocated = true → opened ≠ none → attributes = .ok) := by
  unfold saOscillatorNew
  cases opened with
  | none => exact newSpec_nil fun _ h => absurd rfl h
  | some fd =>
    cases allocated with
    | false => exact newSpec_nil nofun
    | true =>
      by_cases hok : attributes = .ok
      · simp only [hok, if_true]
        exact newSpec_open (uses_termios _) (session_uses (hcmds fd)) fun _ _ => trivial
      · simp only [hok, if_false, Bool.not_true]
        exact newSpec_closed_twice (uses_termios _) fun h => h trivial nofun

/-- An error path of `mRo50_oscillator_new` closes the serial port, and once more unless its
descriptor is 0. -/
theorem newSpec_destroyed (huses : Uses fd ops) (htidy : tidy ↔ fd = 0) :
    NewSpec owner (.acquire fd :: (ops ++ .release fd :: mRo50OscillatorDestroy fd), none)
      tidy := by
  unfold mRo50OscillatorDestroy
  by_cases hzero : fd = 0
  · rw [if_neg (not_not.mpr hzero)]
    exact newSpec_closed huses (htidy.mpr hzero)
  · rw [if_pos hzero]
    exact newSpec_closed_twice huses (mt htidy.mp hzero)

theorem newSpec_mRo50OpenSerial (io : Mro50NewIo) :
    NewSpec owner (mRo50OpenSerial io) (∀ fd, io.serial = some fd → fd ≠ 0 →
      io.attributes = .ok ∧ (mRo50Reset io.reset fd).2 = true) := by
  cases hserial : io.serial with
  | none =>
    rw [mRo50OpenSerial, hserial]
    exact newSpec_nil nofun
  | some fd =>
    -- the condition is on the port that was opened
    have hcond : ∀ {p : ℕ → Prop}, (∀ fd', some fd = some fd' → fd' ≠ 0 → p fd') ↔
        (fd ≠ 0 → p fd) :=
      ⟨fun h => h fd rfl, fun h fd' heq => by obtain rfl := Option.some.inj heq; exact h⟩
    have huses : Uses fd (io.attributes.ops fd ++ (mRo50Reset io.reset fd).1) :=
      uses_append.mpr ⟨uses_termios io.attributes, uses_mRo50Reset io.reset⟩
    rw [hcond]
    by_cases hok : io.attributes = .ok
    · cases hreset : (mRo50Reset io.reset fd).2 with
      | true =>
        have hopen : mRo50OpenSerial io =
            (.acquire fd :: (io.attributes.ops fd ++ (mRo50Reset io.reset fd).1 ++
                (mRo50QueryTwo io.parameterA io.parameterB fd).1),
              some (mRo50QueryTwo io.parameterA io.parameterB fd).2) := by
          simp [mRo50OpenSerial, hserial, hok, hreset, readTemperatureCompensationParameters]
        rw [hopen]
        exact newSpec_open huses (session_mRo50QueryTwo _ _) fun _ => ⟨hok, rfl⟩
      | false =>
        have hopen : mRo50OpenSerial io =
            (.acquire fd :: (io.attributes.ops fd ++ (mRo50Reset io.reset fd).1 ++
              .release fd :: mRo50OscillatorDestroy fd), none) := by
          simp [mRo50OpenSerial, hserial, hok, hreset]
        rw [hopen]
        refine newSpec_destroyed huses ⟨fun h => ?_, fun h hne => absurd h hne⟩
        by_contra hne
        exact nomatch (h hne).2
    · have hopen : mRo50OpenSerial io =
          (.acquire fd :: (io.attributes.ops fd ++ .release fd :: mRo50OscillatorDestroy fd),
            none) := by
        simp [mRo50OpenSerial, hserial, hok]
      rw [hopen]
      refine newSpec_destroyed (uses_termios _) ⟨fun h => ?_, fun h hne => absurd h hne⟩
      by_contra hne
      exact hok (h hne).1

theorem newSpec_mRo50OscillatorNew (io : Mro50NewIo) :
    NewSpec owner (mRo50OscillatorNew io) (DriverNew.mRo50 io).Tidy := by
  have hserial : NewSpec owner (mRo50OpenSerial io) _ := newSpec_mRo50OpenSerial io
  unfold mRo50OscillatorNew
  cases hallocated : io.allocated with
  | false => exact newSpec_nil fun h => nomatch hallocated.symm.trans h
  | true =>
    -- what is left of the condition for each outcome of `mro_path`
    have htidy : (DriverNew.mRo50 io).Tidy ↔ (∀ fd, io.board ≠ some (fd, false)) ∧
        ∀ fd, io.serial = some fd → fd ≠ 0 →
          io.attributes = .ok ∧ (mRo50Reset io.reset fd).2 = true :=
      ⟨fun h => h hallocated, fun h _ => h⟩
    rw [htidy]
    match hboard : io.board with
    | none => simpa using hserial
    | some (fd, true) => simpa using hserial.after_board fd
    | some (fd, false) =>
      refine newSpec_leaked fun h => ?_
      exact h.1 fd rfl

/-- The number in the object is the one the constructor has put there. -/
theorem NewSpec.of_object {r : List (Op ℕ) × Option ℕ} {f : ℕ → DriverObject}
    (h : NewSpec owner r tidy) (hf : ∀ fd, (f fd).fd = fd) :
    NewSpec owner (r.1, (r.2.map f).map DriverObject.fd) tidy := by
  have hfd : (r.2.map f).map DriverObject.fd = r.2 := by
    cases r.2 with
    | none => rfl
    | some fd => exact congrArg some (hf fd)
  rw [hfd]
  exact h

/-- Every constructor obeys the law exactly when it is tidy. -/
theorem newSpec_run (constructor : DriverNew) :
    NewSpec owner (constructor.run.1, constructor.run.2.map DriverObject.fd)
      constructor.Tidy := by
  cases constructor with
  | mRo50 io => exact (newSpec_mRo50OscillatorNew io).of_object fun _ => rfl
  | sa5x io =>
    have hnew : NewSpec owner (sa5xOscillatorNewOps io) (DriverNew.sa5x io).Tidy :=
      newSpec_saOscillatorNew fun _ => uses_sa5xCmdsOps _ _
    exact hnew.of_object fun _ => rfl
  | sa3x io =>
    have hnew : NewSpec owner (sa3xOscillatorNew io) (DriverNew.sa3x io).Tidy :=
      newSpec_saOscillatorNew fun _ => uses_nil
    exact hnew.of_object fun _ => rfl

/-! ### Runs of calls -/

/-- When a call with these operations is tidy: a constructor, when it does not end in one of the
wrong error paths; a call that uses the descriptor of its object, when it finds a number the
driver has not closed; and so `destroy`, except that an mRO50 with descriptor 0 has to be closed
already. -/
def TidyWith (s : DriverState) (ops : List (Op ℕ)) : DriverEvent → Prop
  | .new _ constructor => constructor.Tidy
  | .call place _ => ops ≠ [] → ∀ o, s.objects place = some o → s.fds o.fd ≠ .released
  | .destroy place => ∀ o, s.objects place = some o →
    (o = .mRo50 0 → s.fds 0 ≠ .held place) ∧ (o ≠ .mRo50 0 → s.fds o.fd ≠ .released)

/-- The calls that are tidy, if they can be made and the kernel answers them so. -/
def Tidy (s : DriverState) (e : DriverEvent) : Prop :=
  ∀ ops o, driverOutcome s e = some (ops, o) → TidyWith s ops e

/-- Every open descriptor is the one in the object that has opened it. -/
def InObjects (s : DriverState) : Prop :=
  ∀ place fd, s.fds fd = .held place → ∃ o, s.objects place = some o ∧ o.fd = fd

variable {s : DriverState} {place : ℕ} {o : DriverObject}

theorem InObjects.clear (h : InObjects s) (hplace : s.objects place = none) :
    Clear place s.fds := by
  intro fd hheld
  obtain ⟨o, ho, -⟩ := h place fd hheld
  exact nomatch hplace.symm.trans ho

theorem InObjects.holdsOnly (h : InObjects s) (hplace : s.objects place = some o) :
    HoldsOnly place s.fds o.fd := by
  intro fd hheld
  obtain ⟨o', ho', hfd⟩ := h place fd hheld
  obtain rfl : o = o' := Option.some.inj (hplace.symm.trans ho')
  exact hfd.symm

/-- What a constructor that can be called does. -/
theorem run_new {constructor : DriverNew} {r : List (Op ℕ) × Option DriverObject}
    (h : (DriverEvent.new place constructor).run s = some r) :
    s.objects place = none ∧ constructor.run = r := by
  simp only [DriverEvent.run] at h
  split at h
  · rename_i hplace
    exact ⟨hplace, Option.some.inj h⟩
  · cases h

/-- What a call on an object does. -/
theorem run_call {c : DriverCall} {r : List (Op ℕ) × Option DriverObject}
    (h : (DriverEvent.call place c).run s = some r) :
    ∃ o fd, s.objects place = some o ∧ c.run o = some (r.1, fd) ∧ r.2 = some (o.withFd fd) := by
  obtain ⟨o, hplace, hrun⟩ := Option.bind_eq_some_iff.mp h
  obtain ⟨r', hr', rfl⟩ := Option.map_eq_some_iff.mp hrun
  exact ⟨o, r'.2, hplace, hr', rfl⟩

/-- What the destruction of an object does. -/
theorem run_destroy {r : List (Op ℕ) × Option DriverObject}
    (h : (DriverEvent.destroy place).run s = some r) :
    ∃ o, s.objects place = some o ∧ r = (o.destroy, none) := by
  obtain ⟨o, hplace, rfl⟩ := Option.map_eq_some_iff.mp h
  exact ⟨o, hplace, rfl⟩

theorem fd_withFd (o : DriverObject) (fd : ℕ) : (o.withFd fd).fd = fd := by
  cases o <;> rfl

/-- The destruction closes the descriptor, unless it is the 0 of an mRO50. -/
theorem destroy_eq (o : DriverObject) :
    o.destroy = if o = .mRo50 0 then [] else [.release o.fd] := by
  cases o with
  | mRo50 fd =>
    by_cases hzero : fd = 0
    · subst hzero
      rfl
    · simp [DriverObject.destroy, mRo50OscillatorDestroy, DriverObject.fd, hzero]
  | sa5x fd => rfl
  | sa3x fd => rfl

variable {o' : Option DriverObject}

/-- The kernel answers what a call does. -/
theorem run_of_outcome {e : DriverEvent} (h : driverOutcome s e = some (ops, o')) :
    e.run s = some (ops, o') :=
  (Option.filter_eq_some_iff.mp h).1

/-- **The step lemma.** A call obeys the law exactly when it is tidy. -/
theorem driverLaw_iff (h : InObjects s) (e : DriverEvent) : DriverLaw s e ↔ Tidy s e := by
  refine forall_congr' fun ops => forall_congr' fun o' => imp_congr_right fun hout => ?_
  have hrun := run_of_outcome hout
  cases e with
  | new place constructor =>
    obtain ⟨hplace, hnew⟩ := run_new hrun
    have hspec : NewSpec place (ops, o'.map DriverObject.fd) constructor.Tidy := by
      have hspec : NewSpec place _ _ := newSpec_run constructor
      rwa [hnew] at hspec
    have hlaw := hspec.law s.fds (h.clear hplace)
    rw [Option.map_eq_none_iff] at hlaw
    exact hlaw
  | call place c =>
    obtain ⟨o, fd, hplace, hc, hobject⟩ := run_call hrun
    obtain rfl : o' = some (o.withFd fd) := hobject
    have hsession : Session place ops o.fd fd := session_run hc
    have hproper : EachStep (Op.apply place) Op.Proper s.fds ops ↔
        (ops ≠ [] → s.fds o.fd ≠ .released) := hsession.proper_iff
    refine Iff.trans (and_iff_left nofun) (hproper.trans (imp_congr_right fun _ => ?_))
    refine ⟨fun hopen o' ho' => ?_, fun hopen => hopen o hplace⟩
    obtain rfl := Option.some.inj (hplace.symm.trans ho')
    exact hopen
  | destroy place =>
    obtain ⟨o, hplace, heq⟩ := run_destroy hrun
    obtain ⟨rfl, rfl⟩ : ops = o.destroy ∧ o' = none := Prod.mk.inj heq
    have hheld := h.holdsOnly hplace
    have hobject : TidyWith s o.destroy (.destroy place) ↔
        (o = .mRo50 0 → s.fds 0 ≠ .held place) ∧ (o ≠ .mRo50 0 → s.fds o.fd ≠ .released) :=
      ⟨fun hall => hall o hplace,
        fun hone o' ho' => by obtain rfl := Option.some.inj (hplace.symm.trans ho'); exact hone⟩
    rw [hobject, destroy_eq]
    by_cases hzero : o = .mRo50 0
    · -- nothing is closed: descriptor 0 must not be open
      subst hzero
      rw [if_pos rfl]
      refine ⟨fun hlaw => ⟨fun _ => hlaw.2 rfl 0, fun hne => absurd rfl hne⟩, fun hopen => ?_⟩
      refine ⟨eachStep_nil, fun _ fd hfd => ?_⟩
      obtain rfl : fd = 0 := hheld fd hfd
      exact hopen.1 rfl hfd
    · rw [if_neg hzero]
      refine ⟨fun hlaw => ⟨fun heq => absurd heq hzero, fun _ => (eachStep_cons.mp hlaw.1).1⟩,
        fun hopen => ⟨eachStep_cons.mpr ⟨hopen.2 hzero, eachStep_nil⟩, fun _ => ?_⟩⟩
      exact clear_release hheld

/-- The owner of the object a call leaves holds at most the number in it. -/
theorem holdsOnly_of_outcome (h : InObjects s) {e : DriverEvent}
    (hout : driverOutcome s e = some (ops, some o)) :
    HoldsOnly e.place (after (Op.apply e.place) s.fds ops) o.fd := by
  have hrun := run_of_outcome hout
  cases e with
  | new place constructor =>
    obtain ⟨hplace, hnew⟩ := run_new hrun
    have hspec : NewSpec place (ops, some o.fd) constructor.Tidy := by
      have hspec : NewSpec place _ _ := newSpec_run constructor
      rwa [hnew] at hspec
    exact hspec.holds s.fds (h.clear hplace) o.fd rfl
  | call place c =>
    obtain ⟨o', fd, hplace, hc, hobject⟩ := run_call hrun
    obtain rfl : o = o'.withFd fd := Option.some.inj hobject
    have hsession : Session place ops o'.fd fd := session_run hc
    rw [fd_withFd]
    exact hsession.holds s.fds (h.holdsOnly hplace)
  | destroy place =>
    obtain ⟨_, -, heq⟩ := run_destroy hrun
    exact nomatch (Prod.mk.inj heq).2

/-- A call that obeys the law keeps every open descriptor in its object. -/
theorem InObjects.step (h : InObjects s) {e : DriverEvent} (hlaw : DriverLaw s e) :
    InObjects (driverStep s e) := by
  unfold driverStep
  cases hout : driverOutcome s e with
  | none => exact h
  | some r =>
    obtain ⟨ops, o'⟩ := r
    intro place fd hheld
    dsimp only at hheld ⊢
    by_cases hplace : place = e.place
    · subst hplace
      rw [Function.update_self]
      cases o' with
      | none => exact absurd hheld ((hlaw ops none hout).2 rfl fd)
      | some o => exact ⟨o, rfl, (holdsOnly_of_outcome h hout fd hheld).symm⟩
    · rw [Function.update_of_ne hplace]
      exact h place fd (held_of_after hplace hheld)

theorem inObjects_driverStart : InObjects driverStart := nofun

/-- **Ownership of the drivers' descriptors.** In every sequence of calls, on any number of objects
and with whatever outcomes: all calls obey the law exactly when all are tidy. -/
theorem driverLaw_eachStep_iff (es : List DriverEvent) :
    EachStep driverStep DriverLaw driverStart es ↔ EachStep driverStep Tidy driverStart es :=
  eachStep_congr_of_kept inObjects_driverStart (fun _ e h => driverLaw_iff h e)
    fun _ e h htidy => h.step ((driverLaw_iff h e).mpr htidy)

/-- The serial port of an SA3x opens and cannot be set up. -/
def attributesFail : List DriverEvent :=
  [.new 0 (.sa3x { allocated := true, opened := some 7, attributes := .getFails })]

/-- The constructor closes descriptor 7 twice. -/
theorem driverLaw_fails_attributes_fail :
    ¬ EachStep driverStep DriverLaw driverStart attributesFail := by
  intro h
  have huses : Uses 7 [Op.use 7] := by simp
  have hlaw := (eachStep_cons.mp h).1
  have hops := hlaw (.acquire 7 :: ([.use 7] ++ [.release 7, .release 7])) none rfl
  exact not_proper_release_release huses hops.1

end Oscillatord
