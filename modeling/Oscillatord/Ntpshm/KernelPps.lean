import Oscillatord.Library.Handles
import Oscillatord.Ntpshm.PpsThread

/-!
# The kernel's handle of the pulses

`init_kernel_pps` finds the device of the pulses, opens it and makes a handle of it, and
`gpsd_ppsmonitor` fetches edges with the handle and destroys it at its end. As in LinuxPPS the
handle is the descriptor, and is destroyed by closing it. `ppsThreadOps` is what becomes of the
descriptor in the life of one thread.

`pps_thread_activate` does not look at what `init_kernel_pps` returns, but at the handle, which
stays in place when the function fails after `time_pps_create`. This does no harm unless
`time_pps_setparams` is what failed: then the handle is destroyed already, and is fetched with and
destroyed again. The descriptor is lost when no handle can be made of it, and when it is 0, which
the end of the thread takes for none (`ppsThread_law`).
-/

namespace Oscillatord

open StepRun Handles

/-! ### `init_kernel_pps` -/

/-- The bits of `pps_caps` that are looked at. -/
structure PpsCaps where
  tsfmtTspec : Bool
  canwait : Bool
  captureassert : Bool
  captureclear : Bool
  deriving Repr, DecidableEq

/-- What the system answers: whether the line discipline can be set; the `pps?` found and what is
in their `path`; the descriptor of a device; whether a handle can be made; what it can do; and
whether the parameters can be set. -/
structure KernelPpsIo where
  setsLine : Bool
  globbuf : List (Char × Option (List Char))
  opens : List Char → Option ℕ
  creates : Bool
  getcap : Option PpsCaps
  setparams : Bool

/-- `get_sysfs_var`: the content without its last byte, empty on failure. -/
def getSysfsVar (bufsize : ℕ) : Option (List Char) → List Char
  | none => []
  | some content => (content.take (bufsize - 1)).dropLast

/-- `PATH_MAX`. -/
def pathMax : ℕ := 4096

/-- The path of the device: the device itself, or the one whose `path` names it. -/
def kernelPpsPath (io : KernelPpsIo) (devicename : List Char) : Option (List Char) :=
  if "/dev/pps".toList.isPrefixOf devicename then some devicename
  else if io.setsLine then
    (io.globbuf.find? fun pps => getSysfsVar pathMax pps.2 = devicename).map fun pps =>
      "/dev/pps".toList ++ [pps.1]
  else none

/-- What `init_kernel_pps` leaves in `struct inner_context_t`, whether it returns 0, and its
operations on the descriptor. -/
structure KernelPps where
  ok : Bool
  kernelppsHandle : Option ℕ
  ppsCanwait : Bool
  ops : List (Op ℕ)
  handle_of_canwait : ppsCanwait = true → kernelppsHandle.isSome = true

/-- From the capabilities on. -/
def initPpsCaps (caps : PpsCaps) (setparams : Bool) (fd : ℕ) : KernelPps :=
  let ops := [.acquire fd, .use fd, .use fd]
  if !caps.tsfmtTspec then ⟨false, some fd, false, ops, fun _ => rfl⟩
  else if !caps.captureassert && !caps.captureclear then
    ⟨false, some fd, caps.canwait, ops, fun _ => rfl⟩
  else if setparams then ⟨true, some fd, caps.canwait, ops ++ [.use fd], fun _ => rfl⟩
  -- the handle is destroyed and stays in `kernelpps_handle`
  else ⟨false, some fd, caps.canwait, ops ++ [.use fd, .release fd], fun _ => rfl⟩

/-- `init_kernel_pps`. -/
def initKernelPps (io : KernelPpsIo) (devicename : List Char) : KernelPps :=
  match (kernelPpsPath io devicename).bind io.opens with
  | none => ⟨false, none, false, [], fun h => absurd h Bool.false_ne_true⟩
  | some fd =>
    if !io.creates then ⟨false, none, false, [.acquire fd, .use fd],
      fun h => absurd h Bool.false_ne_true⟩
    else
      match io.getcap with
      | none => ⟨false, some fd, false, [.acquire fd, .use fd, .use fd], fun _ => rfl⟩
      | some caps => initPpsCaps caps io.setparams fd

/-! ### The thread -/

/-- The device as the thread sees it. -/
def KernelPps.inner (k : KernelPps) (notATty : Bool) : InnerContext where
  ppsCanwait := k.ppsCanwait
  kernelpps := k.kernelppsHandle.isSome
  notATty := notATty
  handle_of_canwait := k.handle_of_canwait

/-- What a round does with the handle: it fetches, unless the wait on the serial line fails. -/
def ppsFetchOps (k : KernelPps) (notATty : Bool) (tio : TioAnswer) : List (Op ℕ) :=
  if (!notATty && !k.ppsCanwait) = true ∧ tio = .failed then []
  else (k.kernelppsHandle.map .use).toList

/-- The thread, and its operations on the descriptor. -/
structure PpsLife where
  run : PpsRun := {}
  ops : List (Op ℕ) := []

/-- One more round, if the thread has not ended. -/
def ppsLifeStep (k : KernelPps) (notATty : Bool) (s : PpsLife) (answers : TioAnswer × KppsAnswer) :
    PpsLife where
  run := ppsStep (k.inner notATty) s.run answers
  ops := if s.run.running then s.ops ++ ppsFetchOps k notATty answers.1 else s.ops

/-- The end of `gpsd_ppsmonitor`. -/
def ppsEndOps (k : KernelPps) : List (Op ℕ) :=
  match k.kernelppsHandle with
  | some fd => if fd > 0 then [.release fd] else []
  | none => []

/-- The fetches of the rounds. -/
def ppsFetches (k : KernelPps) (notATty : Bool) (answers : List (TioAnswer × KppsAnswer)) :
    List (Op ℕ) :=
  (after (ppsLifeStep k notATty) {} answers).ops

/-- The operations of a thread on the descriptor, from its activation to its end. -/
def ppsThreadOps (io : KernelPpsIo) (devicename : List Char) (notATty : Bool)
    (answers : List (TioAnswer × KppsAnswer)) : List (Op ℕ) :=
  let k := initKernelPps io devicename
  k.ops ++ (ppsFetches k notATty answers ++ ppsEndOps k)

/-- The handle is made, and the parameters of the pulses cannot be set. -/
def KernelPpsIo.Rejected (io : KernelPpsIo) : Prop :=
  io.creates = true ∧ io.setparams = false ∧
    ∃ caps ∈ io.getcap, caps.tsfmtTspec = true ∧ (caps.captureassert || caps.captureclear) = true

variable {io : KernelPpsIo} {devicename : List Char} {k : KernelPps} {notATty : Bool} {fd : ℕ}
  {answers : List (TioAnswer × KppsAnswer)}

/-- The rounds only fetch. -/
theorem uses_ppsFetches (hhandle : k.kernelppsHandle = some fd) :
    Uses fd (ppsFetches k notATty answers) := by
  refine after_induction (P := fun s : PpsLife => Uses fd s.ops) uses_nil fun s a huses => ?_
  simp only [ppsLifeStep, ppsFetchOps, hhandle]
  split_ifs <;> simp [huses]

theorem ppsFetches_eq_nil (hhandle : k.kernelppsHandle = none) :
    ppsFetches k notATty answers = [] := by
  refine after_induction (P := fun s : PpsLife => s.ops = []) rfl fun s a hnil => ?_
  simp only [ppsLifeStep, ppsFetchOps, hhandle]
  split_ifs <;> simp [hnil]

/-! ### What `init_kernel_pps` leaves -/

theorem initKernelPps_of_not_opened
    (hopened : (kernelPpsPath io devicename).bind io.opens = none) :
    (initKernelPps io devicename).kernelppsHandle = none ∧
      (initKernelPps io devicename).ops = [] := by
  rw [initKernelPps, hopened]
  exact ⟨rfl, rfl⟩

theorem initKernelPps_of_not_creates
    (hopened : (kernelPpsPath io devicename).bind io.opens = some fd)
    (hcreates : io.creates = false) :
    (initKernelPps io devicename).kernelppsHandle = none ∧
      (initKernelPps io devicename).ops = [.acquire fd, .use fd] := by
  rw [initKernelPps, hopened]
  simp [hcreates]

/-- From `time_pps_create` on the handle stays in place. -/
theorem initKernelPps_of_creates
    (hopened : (kernelPpsPath io devicename).bind io.opens = some fd)
    (hcreates : io.creates = true) :
    (initKernelPps io devicename).kernelppsHandle = some fd ∧
      ∃ uses, Uses fd uses ∧ (io.Rejected ∧
          (initKernelPps io devicename).ops = .acquire fd :: (uses ++ [.release fd]) ∨
        ¬ io.Rejected ∧ (initKernelPps io devicename).ops = .acquire fd :: uses) := by
  rw [initKernelPps, hopened]
  simp only [hcreates, Bool.not_true, Bool.false_eq_true, if_false]
  rcases hgetcap : io.getcap with _ | caps
  · refine ⟨rfl, [.use fd, .use fd], by simp, .inr ⟨?_, rfl⟩⟩
    simp [KernelPpsIo.Rejected, hgetcap]
  · have hrejected : io.Rejected ↔ io.setparams = false ∧ caps.tsfmtTspec = true ∧
        (caps.captureassert || caps.captureclear) = true := by
      simp [KernelPpsIo.Rejected, hcreates, hgetcap]
    rw [hrejected]
    simp only [initPpsCaps]
    split_ifs with htspec hcapture hset
    · exact ⟨rfl, [.use fd, .use fd], by simp, .inr ⟨by simp_all, rfl⟩⟩
    · exact ⟨rfl, [.use fd, .use fd], by simp, .inr ⟨by simp_all, rfl⟩⟩
    · exact ⟨rfl, [.use fd, .use fd, .use fd], by simp, .inr ⟨by simp_all, rfl⟩⟩
    · refine ⟨rfl, [.use fd, .use fd, .use fd], by simp, .inl ⟨?_, rfl⟩⟩
      cases hassert : caps.captureassert <;> simp_all

/-! ### The life of the descriptor -/

variable {t : ℕ → Status Unit}

/-- Without a rejection there is one use after the other, and at most one end. -/
theorem ppsThreadOps_of_not_rejected (notATty : Bool) (answers : List (TioAnswer × KppsAnswer))
    (hopened : (kernelPpsPath io devicename).bind io.opens = some fd)
    (hcreates : io.creates = true) (hrejected : ¬ io.Rejected) :
    ∃ uses, Uses fd uses ∧ ppsThreadOps io devicename notATty answers
      = .acquire fd :: (uses ++ if 0 < fd then [.release fd] else []) := by
  obtain ⟨hhandle, uses, huses, ⟨hreject, -⟩ | ⟨-, hops⟩⟩ :=
    initKernelPps_of_creates hopened hcreates
  · exact absurd hreject hrejected
  · refine ⟨uses ++ ppsFetches (initKernelPps io devicename) notATty answers,
      uses_append.mpr ⟨huses, uses_ppsFetches hhandle⟩, ?_⟩
    simp only [ppsThreadOps, hops, ppsEndOps, hhandle, List.cons_append, List.append_assoc]

/-- With a rejection the thread goes on with a handle that is destroyed. -/
theorem ppsThreadOps_of_rejected (notATty : Bool) (answers : List (TioAnswer × KppsAnswer))
    (hopened : (kernelPpsPath io devicename).bind io.opens = some fd)
    (hcreates : io.creates = true) (hrejected : io.Rejected) :
    ∃ uses, Uses fd uses ∧ ppsThreadOps io devicename notATty answers
      = .acquire fd :: (uses ++ .release fd ::
          (ppsFetches (initKernelPps io devicename) notATty answers
            ++ if 0 < fd then [.release fd] else [])) := by
  obtain ⟨hhandle, uses, huses, ⟨-, hops⟩ | ⟨hnot, -⟩⟩ := initKernelPps_of_creates hopened hcreates
  · refine ⟨uses, huses, ?_⟩
    simp only [ppsThreadOps, hops, ppsEndOps, hhandle, List.cons_append, List.append_assoc,
      List.nil_append]
  · exact absurd hrejected hnot

/-- Another release leaves nothing held. -/
theorem clear_update_released (hclear : Clear () t) : Clear () (Function.update t fd .released) :=
  clear_release fun h hheld => absurd hheld (hclear h)

/-- The operations after a rejection are on a handle that was destroyed. -/
theorem proper_rejected_iff {uses : List (Op ℕ)} (huses : Uses fd uses) :
    EachStep (Op.apply ()) Op.Proper (Function.update t fd .released)
        (uses ++ if 0 < fd then [.release fd] else []) ↔ fd = 0 ∧ uses = [] := by
  have hreleased : Function.update t fd (.released : Status Unit) fd = .released :=
    Function.update_self ..
  rcases uses with _ | ⟨op, uses⟩
  · rw [List.nil_append]
    split_ifs with hpos
    · simp only [eachStep_cons, proper_release, hreleased, ne_eq, not_true_eq_false, false_and,
        false_iff, not_and]
      exact fun hzero => absurd hzero hpos.ne'
    · simpa [eachStep_nil] using hpos
  · obtain ⟨rfl, -⟩ := uses_cons.mp huses
    simp [Op.Proper]

/-- **The descriptor of the pulses.** Whatever the system answers and however many rounds the thread
makes, the descriptor is used and closed as long as it is open only exactly when the parameters
could be set or the thread did nothing with the handle; and it is closed in the end exactly when a
handle could be made of it, and it is not 0 unless the parameters could not be set. -/
theorem ppsThread_law (hclear : Clear () t) :
    (EachStep (Op.apply ()) Op.Proper t (ppsThreadOps io devicename notATty answers) ↔
        ∀ fd, (kernelPpsPath io devicename).bind io.opens = some fd → io.Rejected →
          fd = 0 ∧ ppsFetches (initKernelPps io devicename) notATty answers = []) ∧
      (Clear () (after (Op.apply ()) t (ppsThreadOps io devicename notATty answers)) ↔
        ∀ fd, (kernelPpsPath io devicename).bind io.opens = some fd →
          io.creates = true ∧ (io.Rejected ∨ 0 < fd)) := by
  rcases hopened : (kernelPpsPath io devicename).bind io.opens with _ | fd
  · obtain ⟨hhandle, hops⟩ := initKernelPps_of_not_opened hopened
    have hnil : ppsThreadOps io devicename notATty answers = [] := by
      simp [ppsThreadOps, hops, ppsFetches_eq_nil hhandle, ppsEndOps, hhandle]
    simpa [hnil, eachStep_nil] using hclear
  simp only [Option.some.injEq, forall_eq']
  cases hcreates : io.creates with
  | false =>
    obtain ⟨hhandle, hops⟩ := initKernelPps_of_not_creates hopened hcreates
    have hlost : ppsThreadOps io devicename notATty answers = .acquire fd :: ([.use fd] ++ []) := by
      simp [ppsThreadOps, hops, ppsFetches_eq_nil hhandle, ppsEndOps, hhandle]
    have huses : Uses fd [.use fd] := by simp
    rw [hlost, proper_acquire_uses huses, after_acquire_uses huses]
    refine ⟨iff_of_true eachStep_nil fun hreject => ?_, iff_of_false (fun hclosed => ?_) ?_⟩
    · rw [hreject.1] at hcreates
      cases hcreates
    · exact hclosed fd (Function.update_self ..)
    · simp
  | true =>
    by_cases hreject : io.Rejected
    · obtain ⟨uses, huses, hops⟩ := ppsThreadOps_of_rejected notATty answers
        hopened hcreates hreject
      obtain ⟨hhandle, -⟩ := initKernelPps_of_creates hopened hcreates
      have hfetches : Uses fd (ppsFetches (initKernelPps io devicename) notATty answers) :=
        uses_ppsFetches hhandle
      have hheld : Function.update t fd (.held ()) fd ≠ .released := by simp
      rw [hops, proper_acquire_uses huses, after_acquire_uses huses, eachStep_cons, after_cons,
        apply_release, Function.update_idem, proper_rejected_iff hfetches, after_append,
        after_uses hfetches]
      refine ⟨⟨fun h _ => h.2, fun h => ⟨hheld, h hreject⟩⟩, iff_of_true ?_ ⟨rfl, .inl hreject⟩⟩
      have hclosed : Clear () (Function.update t fd .released) := clear_update_released hclear
      split_ifs
      · exact clear_update_released hclosed
      · exact hclosed
    · obtain ⟨uses, huses, hops⟩ := ppsThreadOps_of_not_rejected notATty answers
        hopened hcreates hreject
      rw [hops]
      split_ifs with hpos
      · obtain ⟨hproper, hclosed⟩ := clear_acquire_release huses hclear
        exact ⟨iff_of_true hproper fun h => absurd h hreject,
          iff_of_true hclosed ⟨rfl, .inr hpos⟩⟩
      · rw [proper_acquire_uses huses, after_acquire_uses huses]
        refine ⟨iff_of_true eachStep_nil fun h => absurd h hreject,
          iff_of_false (fun hclosed => ?_) ?_⟩
        · exact hclosed fd (Function.update_self ..)
        · simp [hreject, hpos]

/-- A device that captures both edges and takes no parameters. -/
def ioRejected : KernelPpsIo where
  setsLine := false
  globbuf := []
  opens := fun _ => some 5
  creates := true
  getcap := some ⟨true, true, true, true⟩
  setparams := false

/-- It is fetched from after it was destroyed. -/
theorem ppsThread_law_ioRejected :
    let ops := ppsThreadOps ioRejected "/dev/pps0".toList true [(.failed, .timeout)]
    (EachStep (Op.apply ()) Op.Proper (fun _ => .unknown) ops ↔
        ∀ fd, (kernelPpsPath ioRejected "/dev/pps0".toList).bind ioRejected.opens = some fd →
          ioRejected.Rejected → fd = 0 ∧
            ppsFetches (initKernelPps ioRejected "/dev/pps0".toList) true [(.failed, .timeout)]
              = []) ∧
      (Clear () (after (Op.apply ()) (fun _ => .unknown) ops) ↔
        ∀ fd, (kernelPpsPath ioRejected "/dev/pps0".toList).bind ioRejected.opens = some fd →
          ioRejected.creates = true ∧ (ioRejected.Rejected ∨ 0 < fd)) :=
  ppsThread_law fun _ => by simp

end Oscillatord
