import Mathlib.Data.List.FinRange
import Oscillatord.Library.Runs
import Oscillatord.Library.SlotPool
import Oscillatord.Ntpshm.Segment

/-!
# Sessions and their segments

The NTP segments are attached once, and given to sessions for their two sources of time: the
messages of a receiver (`shmClock`) and its pulses (`shmPps`). A segment is marked while it is given
away, and is prepared for its new user. `linkStep` is one call of a session.

Whatever the sessions call, and in whatever order, a segment has one user at most, every segment in
use is of mode `1`, and a call of one session does not touch the segments of another
(`LinkInv`, `links_law`). A segment is lost for good exactly when a session overwrites its pointer:
when it is initialised, or activated, while it has one (`Spares`).
-/

namespace Oscillatord

open Seqlock SlotPool StepRun

universe u

/-! ### The segments of the context -/

/-- `NTPSHMSEGS`. -/
def ntpshmsegs : ℕ := 8

/-- `NTPD_BASE`. -/
def ntpdBase : ℤ := 0x4e545030

/-- `NTP_MIN_FIXES`. -/
def ntpMinFixes : ℤ := 3

/-- What the system answers to `shmget`, for a key and permissions, and to `shmat`. -/
structure Ipc where
  shmget : ℤ → ℕ → Option ℤ
  shmat : ℤ → Option ShmTime

/-- The fields of `struct gps_context_t` for the NTP segments: those that are attached, with what
they hold, and the marks. A pointer to a segment is its place in the table. -/
structure NtpContext where
  shmTime : Fin ntpshmsegs → Option ShmTime
  shmTimeInuse : Fin ntpshmsegs → Bool

/-- `getShmTime`. -/
def getShmTime (ipc : Ipc) (unit : ℕ) : Option ShmTime :=
  -- the permissions are those that ntpd sets
  let perms := if unit < 2 then 384 else 438
  match ipc.shmget (ntpdBase + unit) perms with
  | none => none
  | some shmid => ipc.shmat shmid

/-- `ntpshm_context_init`: the first two segments are for root only. -/
def ntpshmContextInit (ipc : Ipc) (uid : ℕ) (context : NtpContext) : NtpContext where
  shmTime := fun i =>
    if 2 ≤ i.val ∨ 0 = uid then getShmTime ipc i.val else context.shmTime i
  shmTimeInuse := fun _ => false

/-- A segment as it is given away: the NTP daemon is to ignore it until a pair is put. -/
def allocatedSegment : ShmTime where
  mode := 1
  nsamples := 3
  cell :=
    { valid := false
      count := 0
      word := fun
        | .leap => LeapNotify.notInSync.code
        | .precision => -20
        | _ => 0 }

/-- A segment that is attached and not in use. -/
def NtpContext.free (context : NtpContext) (i : Fin ntpshmsegs) : Bool :=
  (context.shmTime i).isSome && !context.shmTimeInuse i

/-- `ntpshm_alloc`: the first segment that is free. -/
def ntpshmAlloc (context : NtpContext) : NtpContext × Option (Fin ntpshmsegs) :=
  match (List.finRange ntpshmsegs).find? context.free with
  | none => (context, none)
  | some i =>
    ({ shmTime := Function.update context.shmTime i (some allocatedSegment)
       shmTimeInuse := Function.update context.shmTimeInuse i true }, some i)

/-- `ntpshm_free`. -/
def ntpshmFree (context : NtpContext) (s : Fin ntpshmsegs) : NtpContext × Bool :=
  if (context.shmTime s).isSome then
    ({ context with shmTimeInuse := Function.update context.shmTimeInuse s false }, true)
  else (context, false)

/-! ### The sessions -/

/-- `sourcetype_t`. -/
inductive SourcetypeT
  | unknown
  | blockdev
  | rs232
  | usb
  | bluetooth
  | can
  | pty
  | tcp
  | udp
  | gpsd
  | pps
  | pipe
  deriving Repr, DecidableEq

/-- The fields of `struct gps_device_t` for the NTP segments, with the hook of its thread. -/
structure NtpSession where
  sourcetype : SourcetypeT
  fixcnt : ℤ
  shmClock : Option (Fin ntpshmsegs)
  shmPps : Option (Fin ntpshmsegs)
  reportHook : Bool
  deriving Repr, DecidableEq

/-- `ntpshm_session_init`. -/
def ntpshmSessionInit (session : NtpSession) : NtpSession :=
  { session with shmClock := none, shmPps := none }

/-- `ntpshm_link_activate`. The thread is launched with the hook in place. -/
def ntpshmLinkActivate (session : NtpSession) (context : NtpContext) : NtpSession × NtpContext :=
  if session.sourcetype = .pty then (session, context)
  else
    let clock := ntpshmAlloc context
    let (session, context) :=
      if session.sourcetype ≠ .pps then ({ session with shmClock := clock.2 }, clock.1)
      else (session, context)
    if session.sourcetype ≠ .pps ∧ session.shmClock = none then (session, context)
    else if session.sourcetype = .usb ∨ session.sourcetype = .rs232 ∨ session.sourcetype = .pps then
      let pps := ntpshmAlloc context
      ({ session with
          shmPps := pps.2
          reportHook := pps.2.isSome || session.reportHook }, pps.1)
    else (session, context)

/-- `ntpshm_link_deactivate`. -/
def ntpshmLinkDeactivate (session : NtpSession) (context : NtpContext) : NtpSession × NtpContext :=
  let (session, context) :=
    match session.shmClock with
    | some s => ({ session with shmClock := none }, (ntpshmFree context s).1)
    | none => (session, context)
  match session.shmPps with
  | some s => ({ session with shmPps := none, reportHook := false }, (ntpshmFree context s).1)
  | none => (session, context)

/-- `ntpshm_put`, with the precision it sets. -/
def ntpshmPut (context : NtpContext) (leapNotify : LeapNotify) (shmseg : Option (Fin ntpshmsegs))
    (td : TimedeltaT) : NtpContext × ℤ :=
  match shmseg with
  | none => (context, 0)
  | some i =>
    ({ context with
        shmTime := Function.update context.shmTime i
          ((context.shmTime i).map fun shm => ntpWrite shm td (-20) leapNotify) }, 1)

/-- `report_hook`. -/
def reportHook (session : NtpSession) (context : NtpContext) (leapNotify : LeapNotify)
    (td : TimedeltaT) : NtpContext × String :=
  if session.sourcetype ≠ .pps ∧ session.fixcnt ≤ ntpMinFixes then (context, "no fix")
  else ((ntpshmPut context leapNotify session.shmPps td).1, "accepted")

/-! ### Runs -/

/-- A call of one of the sessions; `puts` is a pulse that is reported. -/
inductive LinkEvent (ι : Type u)
  | init (i : ι)
  | activates (i : ι)
  | deactivates (i : ι)
  | puts (i : ι) (leapNotify : LeapNotify) (td : TimedeltaT)

/-- The session that calls. -/
def LinkEvent.session {ι : Type u} : LinkEvent ι → ι
  | .init i => i
  | .activates i => i
  | .deactivates i => i
  | .puts i _ _ => i

/-- The sessions of a context. -/
structure NtpLinks (ι : Type u) where
  context : NtpContext
  session : ι → NtpSession

variable {ι : Type u}

/-- What the calls of a session do. -/
def linkStep [DecidableEq ι] (w : NtpLinks ι) : LinkEvent ι → NtpLinks ι
  | .init i =>
    { w with session := Function.update w.session i (ntpshmSessionInit (w.session i)) }
  | .activates i =>
    let (session, context) := ntpshmLinkActivate (w.session i) w.context
    { context := context, session := Function.update w.session i session }
  | .deactivates i =>
    let (session, context) := ntpshmLinkDeactivate (w.session i) w.context
    { context := context, session := Function.update w.session i session }
  | .puts i leapNotify td =>
    { w with context := (reportHook (w.session i) w.context leapNotify td).1 }

/-! ### Who has which segment -/

/-- The two pointers of a session. -/
inductive LinkRole
  | clock
  | pps
  deriving Repr, DecidableEq

/-- The pointers of all sessions, and the context. -/
@[ext]
structure LinkView (ι : Type u) where
  holds : ι × LinkRole → Option (Fin ntpshmsegs)
  context : NtpContext

/-- What the pointers of the sessions are. -/
def NtpLinks.view (w : NtpLinks ι) : LinkView ι where
  holds := fun h => match h.2 with
    | .clock => (w.session h.1).shmClock
    | .pps => (w.session h.1).shmPps
  context := w.context

namespace LinkView

/-- The segments as a pool. -/
def pool (v : LinkView ι) : Pool (ι × LinkRole) (Fin ntpshmsegs) :=
  ⟨v.holds, v.context.shmTimeInuse⟩

/-- Each segment has one user at most; what is in use is attached, and of mode `1`. -/
structure Sound (v : LinkView ι) : Prop where
  exclusive : v.pool.Exclusive
  attached : ∀ n, v.context.shmTimeInuse n = true → ∃ shm, v.context.shmTime n = some shm ∧
    shm.mode = 1

/-- A pair is put into the segment of a pointer. -/
def puts (v : LinkView ι) (h : ι × LinkRole) (leapNotify : LeapNotify) (td : TimedeltaT) :
    LinkView ι :=
  { v with context := (ntpshmPut v.context leapNotify (v.holds h) td).1 }

@[simp] theorem pool_puts (v : LinkView ι) (h : ι × LinkRole) (leapNotify : LeapNotify)
    (td : TimedeltaT) : (v.puts h leapNotify td).pool = v.pool := by
  simp only [puts, ntpshmPut, pool]
  cases v.holds h <;> rfl

variable [DecidableEq ι]

/-- A pointer is set to a segment that is allocated. -/
def takes (v : LinkView ι) (h : ι × LinkRole) : LinkView ι where
  holds := Function.update v.holds h (ntpshmAlloc v.context).2
  context := (ntpshmAlloc v.context).1

/-- The segment of a pointer is freed. -/
def gives (v : LinkView ι) (h : ι × LinkRole) : LinkView ι where
  holds := Function.update v.holds h none
  context := match v.holds h with
    | none => v.context
    | some s => (ntpshmFree v.context s).1

/-- A pointer is cleared. -/
def forgets (v : LinkView ι) (h : ι × LinkRole) : LinkView ι :=
  { v with holds := Function.update v.holds h none }

end LinkView

/-- What `ntpshm_alloc` does: nothing, or it marks and prepares a segment that was free. -/
theorem ntpshmAlloc_spec (context : NtpContext) :
    (∀ n, (ntpshmAlloc context).2 = some n → context.shmTimeInuse n = false) ∧
      (∀ n, (ntpshmAlloc context).1.shmTimeInuse n =
        if (ntpshmAlloc context).2 = some n then true else context.shmTimeInuse n) ∧
      ∀ n, (ntpshmAlloc context).1.shmTime n =
        if (ntpshmAlloc context).2 = some n then some allocatedSegment else context.shmTime n := by
  rcases hfind : (List.finRange ntpshmsegs).find? context.free with _ | i
  · have halloc : ntpshmAlloc context = (context, none) := by rw [ntpshmAlloc, hfind]
    rw [halloc]
    simp
  · have halloc : ntpshmAlloc context =
        ({ shmTime := Function.update context.shmTime i (some allocatedSegment)
           shmTimeInuse := Function.update context.shmTimeInuse i true }, some i) := by
      rw [ntpshmAlloc, hfind]
    have hfree := List.find?_some hfind
    simp only [NtpContext.free, Bool.and_eq_true, Bool.not_eq_true'] at hfree
    rw [halloc]
    refine ⟨fun n hn => ?_, fun n => ?_, fun n => ?_⟩
    · obtain rfl := Option.some.inj hn
      exact hfree.2
    · by_cases hn : n = i
      · simp [hn]
      · simp [hn, Ne.symm hn]
    · by_cases hn : n = i
      · simp [hn]
      · simp [hn, Ne.symm hn]

/-- What `ntpshm_free` does to a segment that is attached. -/
theorem ntpshmFree_spec {context : NtpContext} {s : Fin ntpshmsegs}
    (hattached : (context.shmTime s).isSome = true) (n : Fin ntpshmsegs) :
    (ntpshmFree context s).1.shmTimeInuse n =
      if some s = some n then false else context.shmTimeInuse n := by
  rw [ntpshmFree, if_pos hattached]
  by_cases hn : n = s
  · simp [hn]
  · simp [hn, Ne.symm hn]

@[simp] theorem ntpshmFree_shmTime (context : NtpContext) (s : Fin ntpshmsegs) :
    (ntpshmFree context s).1.shmTime = context.shmTime := by
  rw [ntpshmFree]
  split_ifs <;> rfl

namespace LinkView

theorem Sound.puts {v : LinkView ι} (hv : v.Sound) (h : ι × LinkRole) (leapNotify : LeapNotify)
    (td : TimedeltaT) : (v.puts h leapNotify td).Sound where
  exclusive := by
    rw [pool_puts]
    exact hv.exclusive
  attached := by
    intro n hn
    have hused : v.context.shmTimeInuse n = true := by
      have hpool := congrArg Pool.inUse (pool_puts v h leapNotify td)
      exact (congrFun hpool n).symm.trans hn
    obtain ⟨shm, hshm, hmode⟩ := hv.attached n hused
    simp only [LinkView.puts, ntpshmPut]
    cases v.holds h with
    | none => exact ⟨shm, hshm, hmode⟩
    | some i =>
      by_cases hni : n = i
      · subst hni
        exact ⟨ntpWrite shm td (-20) leapNotify, by simp [hshm], hmode⟩
      · exact ⟨shm, by simp [Function.update_of_ne hni, hshm], hmode⟩

/-- What a pointer has, when another one is changed. -/
structure Same (v v' : LinkView ι) (h : ι × LinkRole) (n : Fin ntpshmsegs) : Prop where
  holds : v'.holds h = some n
  shmTime : v'.context.shmTime n = v.context.shmTime n

theorem Same.trans {v v' v'' : LinkView ι} {h : ι × LinkRole} {n : Fin ntpshmsegs}
    (hs : v.Same v' h n) (hs' : v'.Same v'' h n) :
    v.Same v'' h n :=
  ⟨hs'.holds, hs'.shmTime.trans hs.shmTime⟩

theorem Sound.same_puts {v : LinkView ι} {h h' : ι × LinkRole} {n : Fin ntpshmsegs}
    (hv : v.Sound) (hne : h ≠ h') (hh : v.holds h = some n)
    (leapNotify : LeapNotify) (td : TimedeltaT) : v.Same (v.puts h' leapNotify td) h n where
  holds := hh
  shmTime := by
    simp only [LinkView.puts, ntpshmPut]
    rcases hh' : v.holds h' with _ | i
    · rfl
    · have hni : n ≠ i := fun heq => hne (hv.exclusive.unique h h' n hh (heq ▸ hh'))
      exact Function.update_of_ne hni ..

theorem fresh_alloc (v : LinkView ι) : v.pool.Fresh (ntpshmAlloc v.context).2 :=
  (ntpshmAlloc_spec v.context).1

variable [DecidableEq ι]

theorem pool_takes (v : LinkView ι) (h : ι × LinkRole) :
    (v.takes h).pool = v.pool.take h (ntpshmAlloc v.context).2 :=
  congrArg (Pool.mk _) (funext fun n => (ntpshmAlloc_spec v.context).2.1 n)

theorem Sound.pool_gives {v : LinkView ι} (hv : v.Sound) (h : ι × LinkRole) :
    (v.gives h).pool = v.pool.give h := by
  refine congrArg (Pool.mk _) (funext fun n => ?_)
  rcases hh : v.holds h with _ | s
  · have hcontext : (v.gives h).context = v.context := by simp only [gives, hh]
    rw [hcontext]
    exact (if_neg (by simp [pool, hh])).symm
  · have hcontext : (v.gives h).context = (ntpshmFree v.context s).1 := by simp only [gives, hh]
    obtain ⟨shm, hshm, -⟩ := hv.attached s (hv.exclusive.inUse h s hh)
    rw [hcontext, ntpshmFree_spec (by rw [hshm]; rfl), ← hh]
    rfl

theorem Sound.takes {v : LinkView ι} (hv : v.Sound) (h : ι × LinkRole) : (v.takes h).Sound where
  exclusive := by
    rw [pool_takes]
    exact Pool.exclusive_take hv.exclusive v.fresh_alloc h
  attached := by
    intro n hn
    obtain ⟨-, hinuse, htime⟩ := ntpshmAlloc_spec v.context
    have hn' := (hinuse n).symm.trans hn
    have htime' : (v.takes h).context.shmTime n = _ := htime n
    rw [htime']
    split_ifs at hn' ⊢ with halloc
    · exact ⟨allocatedSegment, rfl, rfl⟩
    · exact hv.attached n hn'

theorem Sound.forgets {v : LinkView ι} (hv : v.Sound) (h : ι × LinkRole) :
    (v.forgets h).Sound where
  exclusive := Pool.exclusive_forget hv.exclusive h
  attached := hv.attached

theorem Sound.gives {v : LinkView ι} (hv : v.Sound) (h : ι × LinkRole) : (v.gives h).Sound where
  exclusive := by
    rw [hv.pool_gives]
    exact Pool.exclusive_give hv.exclusive h
  attached := by
    intro n hn
    have hused : (v.pool.give h).inUse n = true := hv.pool_gives h ▸ hn
    have htime : (v.gives h).context.shmTime = v.context.shmTime := by
      simp only [LinkView.gives]
      cases v.holds h with
      | none => rfl
      | some s => exact ntpshmFree_shmTime ..
    rw [htime]
    rw [Pool.inUse_give] at hused
    split_ifs at hused
    exact hv.attached n hused

theorem Sound.kept_takes {v : LinkView ι} (hv : v.Sound) (h : ι × LinkRole) :
    (v.takes h).pool.Kept ↔ v.pool.Kept ∧ v.holds h = none := by
  rw [pool_takes]
  exact Pool.kept_take_iff hv.exclusive v.fresh_alloc h

theorem Sound.kept_forgets {v : LinkView ι} (hv : v.Sound) (h : ι × LinkRole) :
    (v.forgets h).pool.Kept ↔ v.pool.Kept ∧ v.holds h = none :=
  Pool.kept_forget_iff hv.exclusive h

theorem Sound.kept_gives {v : LinkView ι} (hv : v.Sound) (h : ι × LinkRole) :
    (v.gives h).pool.Kept ↔ v.pool.Kept := by
  rw [hv.pool_gives]
  exact Pool.kept_give_iff h

end LinkView

/-! ### The calls -/

/-- The segments are attached, and no session has one. -/
def NtpLinks.start (ipc : Ipc) (uid : ℕ) (context : NtpContext) (session : ι → NtpSession) :
    NtpLinks ι where
  context := ntpshmContextInit ipc uid context
  session := fun i => ntpshmSessionInit (session i)

theorem NtpLinks.sound_start (ipc : Ipc) (uid : ℕ) (context : NtpContext)
    (session : ι → NtpSession) : (NtpLinks.start ipc uid context session).view.Sound where
  exclusive :=
    { unique := fun h _ n hn => by rcases h with ⟨i, _ | _⟩ <;> cases hn
      inUse := fun h n hn => by rcases h with ⟨i, _ | _⟩ <;> cases hn }
  attached := fun n hn => by cases hn

theorem NtpLinks.kept_start (ipc : Ipc) (uid : ℕ) (context : NtpContext)
    (session : ι → NtpSession) : (NtpLinks.start ipc uid context session).view.pool.Kept :=
  fun n hn => by cases hn

/-- A session that asks for a segment for its messages. -/
def SourcetypeT.hasClock (sourcetype : SourcetypeT) : Prop := sourcetype ≠ .pty ∧ sourcetype ≠ .pps

/-- A session that has messages and a line for pulses. -/
def SourcetypeT.hasBoth (sourcetype : SourcetypeT) : Prop := sourcetype = .usb ∨ sourcetype = .rs232

instance (sourcetype : SourcetypeT) : Decidable sourcetype.hasClock :=
  inferInstanceAs (Decidable (_ ∧ _))

instance (sourcetype : SourcetypeT) : Decidable sourcetype.hasBoth :=
  inferInstanceAs (Decidable (_ ∨ _))

theorem SourcetypeT.hasBoth.hasClock {sourcetype : SourcetypeT} (h : sourcetype.hasBoth) :
    sourcetype.hasClock := by
  rcases h with rfl | rfl <;> decide

/-- What a call does to the pointers and to the segments. -/
def LinkView.step [DecidableEq ι] (w : NtpLinks ι) (v : LinkView ι) : LinkEvent ι → LinkView ι
  | .init i => (v.forgets (i, .clock)).forgets (i, .pps)
  | .activates i =>
    if (w.session i).sourcetype = .pps then v.takes (i, .pps)
    else if (w.session i).sourcetype.hasClock then
      if (w.session i).sourcetype.hasBoth ∧ (ntpshmAlloc v.context).2.isSome = true then
        (v.takes (i, .clock)).takes (i, .pps)
      else v.takes (i, .clock)
    else v
  | .deactivates i => (v.gives (i, .clock)).gives (i, .pps)
  | .puts i leapNotify td =>
    if (w.session i).sourcetype ≠ .pps ∧ (w.session i).fixcnt ≤ ntpMinFixes then v
    else v.puts (i, .pps) leapNotify td

variable [DecidableEq ι]

/-- The pointers of one session are changed. -/
theorem view_update (w : NtpLinks ι) (i : ι) (session : NtpSession) (context : NtpContext) :
    NtpLinks.view { context := context, session := Function.update w.session i session } =
      { holds := Function.update (Function.update w.view.holds (i, .clock) session.shmClock)
          (i, .pps) session.shmPps
        context := context } := by
  refine LinkView.ext (funext fun h => ?_) rfl
  obtain ⟨j, role⟩ := h
  by_cases hj : j = i
  · subst hj
    cases role <;> simp [NtpLinks.view]
  · cases role <;> simp [NtpLinks.view, hj]

/-- **A call is what it does to the pointers and to the segments.** -/
theorem view_linkStep (w : NtpLinks ι) (e : LinkEvent ι) :
    (linkStep w e).view = w.view.step w e := by
  cases e with
  | init i =>
    exact view_update w i (ntpshmSessionInit (w.session i)) w.context
  | activates i =>
    have hclock : w.view.holds (i, .clock) = (w.session i).shmClock := rfl
    have hpps : w.view.holds (i, .pps) = (w.session i).shmPps := rfl
    have hcontext : w.view.context = w.context := rfl
    simp only [linkStep, view_update, LinkView.step, hcontext]
    by_cases hsource : (w.session i).sourcetype = .pps
    · simp [ntpshmLinkActivate, hsource, LinkView.takes, ← hclock, hcontext]
    · rw [if_neg hsource]
      by_cases hpty : (w.session i).sourcetype = .pty
      · simp [ntpshmLinkActivate, SourcetypeT.hasClock, hpty, ← hclock, ← hpps]
        rfl
      · rw [if_pos ⟨hpty, hsource⟩]
        rcases halloc : (ntpshmAlloc w.context).2 with _ | s
        · simp [ntpshmLinkActivate, hsource, hpty, halloc, LinkView.takes, hcontext, ← hpps]
        · by_cases hboth : (w.session i).sourcetype.hasBoth
          · have hpulses : (w.session i).sourcetype = .usb ∨ (w.session i).sourcetype = .rs232 :=
              hboth
            rw [if_pos ⟨hboth, rfl⟩]
            simp [ntpshmLinkActivate, hsource, hpty, hpulses, halloc, LinkView.takes, hcontext]
          · have hpulses : ¬ ((w.session i).sourcetype = .usb
                ∨ (w.session i).sourcetype = .rs232) := hboth
            simp [ntpshmLinkActivate, hsource, hpty, hpulses, hboth, halloc, LinkView.takes,
              hcontext, ← hpps]
  | deactivates i =>
    simp only [linkStep, view_update, LinkView.step]
    rcases hc : (w.session i).shmClock with _ | c <;>
      rcases hp : (w.session i).shmPps with _ | p <;>
      simp [ntpshmLinkDeactivate, LinkView.gives, hc, hp, NtpLinks.view]
  | puts i leapNotify td =>
    simp only [linkStep, LinkView.step, reportHook]
    split_ifs <;> rfl

/-! ### The law -/

/-- A call overwrites no pointer to a segment. -/
def Spares (w : NtpLinks ι) : LinkEvent ι → Prop
  | .init i => (w.session i).shmClock = none ∧ (w.session i).shmPps = none
  | .activates i =>
    ((w.session i).sourcetype = .pps → (w.session i).shmPps = none) ∧
      ((w.session i).sourcetype.hasClock → (w.session i).shmClock = none) ∧
      ((w.session i).sourcetype.hasBoth → (∃ n, w.context.free n = true) →
        (w.session i).shmPps = none)
  | _ => True

/-- The segments of the other sessions are what they were, and theirs. -/
def Untouched (w : NtpLinks ι) (e : LinkEvent ι) : Prop :=
  ∀ h n, h.1 ≠ e.session → w.view.holds h = some n →
    (linkStep w e).view.holds h = some n ∧
      (linkStep w e).context.shmTime n = w.context.shmTime n

theorem isSome_ntpshmAlloc_iff (context : NtpContext) :
    (ntpshmAlloc context).2.isSome = true ↔ ∃ n, context.free n = true := by
  have hfound : (ntpshmAlloc context).2 = (List.finRange ntpshmsegs).find? context.free := by
    rcases hfind : (List.finRange ntpshmsegs).find? context.free with _ | i <;>
      rw [ntpshmAlloc, hfind]
  rw [hfound, List.find?_isSome]
  simp

namespace LinkView

variable {v : LinkView ι} {h h' : ι × LinkRole} {n : Fin ntpshmsegs}

/-- Every call keeps the segments sound. -/
theorem Sound.step (hv : v.Sound) (w : NtpLinks ι) (e : LinkEvent ι) : (v.step w e).Sound := by
  cases e with
  | init i => exact (hv.forgets _).forgets _
  | activates i =>
    simp only [LinkView.step]
    split_ifs
    · exact hv.takes _
    · exact (hv.takes _).takes _
    · exact hv.takes _
    · exact hv
  | deactivates i => exact (hv.gives _).gives _
  | puts i leapNotify td =>
    simp only [LinkView.step]
    split_ifs
    · exact hv
    · exact hv.puts _ leapNotify td

theorem Sound.same_takes (hv : v.Sound) (hne : h ≠ h') (hh : v.holds h = some n) :
    v.Same (v.takes h') h n where
  holds := (Function.update_of_ne hne ..).trans hh
  shmTime := by
    obtain ⟨hfree, -, htime⟩ := ntpshmAlloc_spec v.context
    refine (htime n).trans (if_neg fun halloc => ?_)
    have hused := hv.exclusive.inUse h n hh
    have hunused := hfree n halloc
    exact absurd (hused.symm.trans hunused) (by decide)

theorem same_forgets (hne : h ≠ h') (hh : v.holds h = some n) : v.Same (v.forgets h') h n where
  holds := (Function.update_of_ne hne ..).trans hh
  shmTime := rfl

theorem same_gives (hne : h ≠ h') (hh : v.holds h = some n) : v.Same (v.gives h') h n where
  holds := (Function.update_of_ne hne ..).trans hh
  shmTime := by
    simp only [LinkView.gives]
    cases v.holds h' with
    | none => rfl
    | some s => rw [ntpshmFree_shmTime]

/-- A call of one session leaves the others what they have. -/
theorem Sound.same_step (hv : v.Sound) (w : NtpLinks ι) {e : LinkEvent ι} (hne : h.1 ≠ e.session)
    (hh : v.holds h = some n) : v.Same (v.step w e) h n := by
  have hother : ∀ role, h ≠ (e.session, role) := fun role heq => hne (congrArg Prod.fst heq)
  have hsame : v.Same v h n := ⟨hh, rfl⟩
  cases e with
  | init i =>
    have hfirst := same_forgets (hother .clock) hh
    exact hfirst.trans (same_forgets (hother .pps) hfirst.holds)
  | activates i =>
    simp only [LinkView.step]
    split_ifs
    · exact hv.same_takes (hother .pps) hh
    · have hfirst := hv.same_takes (hother .clock) hh
      exact hfirst.trans ((hv.takes _).same_takes (hother .pps) hfirst.holds)
    · exact hv.same_takes (hother .clock) hh
    · exact hsame
  | deactivates i =>
    have hfirst := same_gives (hother .clock) hh
    exact hfirst.trans (same_gives (hother .pps) hfirst.holds)
  | puts i leapNotify td =>
    simp only [LinkView.step]
    split_ifs
    · exact hsame
    · exact hv.same_puts (hother .pps) hh leapNotify td

end LinkView

variable {w : NtpLinks ι}

/-- **A call loses no segment** exactly when it overwrites no pointer to one. -/
theorem kept_linkStep_iff (hw : w.view.Sound) (hkept : w.view.pool.Kept) (e : LinkEvent ι) :
    (linkStep w e).view.pool.Kept ↔ Spares w e := by
  have hclock : ∀ i, w.view.holds (i, .clock) = (w.session i).shmClock := fun i => rfl
  have hpps : ∀ i, w.view.holds (i, .pps) = (w.session i).shmPps := fun i => rfl
  have hother : ∀ i : ι, ((i, .pps) : ι × LinkRole) ≠ (i, .clock) := by simp
  rw [view_linkStep]
  cases e with
  | init i =>
    rw [LinkView.step, (hw.forgets _).kept_forgets, hw.kept_forgets]
    simp only [hkept, true_and, LinkView.forgets, Function.update_of_ne (hother i), hclock, hpps,
      Spares]
  | activates i =>
    have hfree := isSome_ntpshmAlloc_iff w.context
    simp only [LinkView.step, Spares]
    split_ifs with hsource hasClock hboth
    · rw [hw.kept_takes, hpps]
      refine ⟨fun h => ⟨fun _ => h.2, fun hclock => ?_, fun hboth => ?_⟩,
        fun h => ⟨hkept, h.1 hsource⟩⟩
      · exact absurd hsource hclock.2
      · exact absurd hsource hboth.hasClock.2
    · have hsame : (w.view.takes (i, .clock)).holds (i, .pps) = (w.session i).shmPps :=
        Function.update_of_ne (hother i) ..
      rw [(hw.takes _).kept_takes, hw.kept_takes, hclock, hsame]
      refine ⟨fun h => ⟨fun hpulse => absurd hpulse hsource, fun _ => h.1.2, fun _ _ => h.2⟩,
        fun h => ⟨⟨hkept, h.2.1 hasClock⟩, h.2.2 hboth.1 (hfree.mp hboth.2)⟩⟩
    · rw [hw.kept_takes, hclock]
      refine ⟨fun h => ⟨fun hpulse => absurd hpulse hsource, fun _ => h.2, fun hasBoth hsome => ?_⟩,
        fun h => ⟨hkept, h.2.1 hasClock⟩⟩
      exact absurd ⟨hasBoth, hfree.mpr hsome⟩ hboth
    · refine iff_of_true hkept
        ⟨fun hpulse => absurd hpulse hsource, fun hclock => ?_, fun hboth => ?_⟩
      · exact absurd hclock hasClock
      · exact absurd hboth.hasClock hasClock
  | deactivates i =>
    rw [LinkView.step, (hw.gives _).kept_gives, hw.kept_gives]
    exact iff_of_true hkept trivial
  | puts i leapNotify td =>
    simp only [LinkView.step]
    split_ifs
    · exact iff_of_true hkept trivial
    · rw [LinkView.pool_puts]
      exact iff_of_true hkept trivial

/-- **Who has which segment.** However many sessions are initialised, activated and deactivated and
put pairs, in any order, from the moment the segments are attached: a segment has one user at most
and is of mode `1` while it has one; no call touches the segments of another session; and no segment
is lost as long as, and only as long as, no call overwrites a pointer to one. -/
theorem links_law (ipc : Ipc) (uid : ℕ) (context : NtpContext) (session : ι → NtpSession)
    (es : List (LinkEvent ι)) :
    Throughout linkStep (fun w => w.view.Sound) (NtpLinks.start ipc uid context session) es ∧
      EachStep linkStep Untouched (NtpLinks.start ipc uid context session) es ∧
      (Throughout linkStep (fun w => w.view.pool.Kept) (NtpLinks.start ipc uid context session) es ↔
        EachStep linkStep Spares (NtpLinks.start ipc uid context session) es) := by
  have hstep : ∀ (w : NtpLinks ι) e, w.view.Sound → (linkStep w e).view.Sound := by
    intro w e hw
    rw [view_linkStep]
    exact hw.step w e
  have hstart := NtpLinks.sound_start ipc uid context session
  have hsound : ∀ pre, (after linkStep (NtpLinks.start ipc uid context session) pre).view.Sound :=
    fun _ => after_induction (P := fun w : NtpLinks ι => w.view.Sound) hstart hstep
  refine ⟨fun pre _ => hsound pre, fun pre e _ h n hne hh => ?_, ?_⟩
  · have hsame := (hsound pre).same_step
      (after linkStep (NtpLinks.start ipc uid context session) pre) hne hh
    rw [← view_linkStep] at hsame
    exact ⟨hsame.holds, hsame.shmTime⟩
  · exact throughout_iff_eachStep hstart (NtpLinks.kept_start ipc uid context session) hstep
      fun w e hw hkept => kept_linkStep_iff hw hkept e

end Oscillatord
