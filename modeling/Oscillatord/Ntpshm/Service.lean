import Oscillatord.Gnss.UtcTime
import Oscillatord.Ntpshm.Links
import Oscillatord.Ntpshm.PulseTrain
import Oscillatord.Ntpshm.Readers

/-!
# The time that the NTP daemon is told

The service joins three threads. The one of the receiver leaves the UTC time of each fix, with the
time of the system clock (`ntp_latch`); that of the pulses pairs each leading edge with the second
after the last fix, and hands the pair to `report_hook`, which puts it into the segment; and the NTP
daemon takes it from there. `serviceStep` is one step of the first two, for a kernel that captures
the pulses.

On a pulse train that marks the seconds of UTC, with fixes that each tell the second they come in,
every pair that is put tells when a second began on the system clock. The second is told rightly if
there was a fix in the second before, and is told too early, by three seconds at most, if not
(`service_sound`). If there is a fix in each second, every second that begins after the first edge
fetched is put, once and rightly (`service_exact`), and what the NTP daemon accepts with `count`
standing still is the truth (`service_read`). The first edge fetched is not reported, so where it
begins a second nothing is put for that one.
-/

namespace Oscillatord

open Seqlock StepRun

universe u

/-! ### The service -/

/-- The time of a fix that `ntp_latch` is called with, if an iteration of the thread of the receiver
calls it. -/
def GnssEvent.latched (host : Host) (session : GpsDeviceT) : GnssEvent → Option Timespec
  | .message _ (some epoch) =>
    if epoch.haveFix then ntpLatch (gnssThreadEpoch host session epoch).1 else none
  | _ => none

/-- The session of the receiver, the fields of `struct pps_thread_t`, the variables of the thread of
the pulses, and the segments with the pointers of the session. -/
structure NtpService where
  session : GpsDeviceT
  fixIn : TimedeltaT
  ppsOut : TimedeltaT
  ppsoutCount : ℤ
  monitor : PpsMonitor
  running : Bool
  ntp : NtpSession
  context : NtpContext

/-- One step: an iteration of the thread of the receiver, at this time of the system clock; an edge
that the kernel has captured; or a timeout of the wait for one. -/
inductive ServiceEvent
  | gnss (e : GnssEvent) (clock : Timespec)
  | edge (pi : PpsInfo)
  | timeout

/-- The pair that `report_hook` puts, if the session has a segment. -/
def NtpService.sample (s : NtpService) (td : TimedeltaT) : Option ShmSample :=
  if (reportHook s.ntp s.context s.session.context.leapNotify td).2 = "accepted" then
    s.ntp.shmPps.map fun _ => ⟨td, -20, s.session.context.leapNotify⟩
  else none

/-- A round of the thread of the pulses, and the pair that it puts. -/
def serviceRound (inner : InnerContext) (s : NtpService) (kpps : KppsAnswer) :
    NtpService × Option ShmSample :=
  if s.running then
    let r := ppsRound inner s.monitor .failed kpps
    let s := { s with monitor := r.1, running := r.2.goesOn }
    match r.2.reported with
    | none => (s, none)
    | some td =>
      ({ s with
          context := (reportHook s.ntp s.context s.session.context.leapNotify td).1
          ppsOut := td
          ppsoutCount := s.ppsoutCount + 1 }, s.sample td)
  else (s, none)

/-- One step, and the pair that is put. -/
def serviceStep (host : Host) (inner : InnerContext) (s : NtpService) :
    ServiceEvent → NtpService × Option ShmSample
  | .gnss e clock =>
    ({ s with
        session := (gnssThreadStep host s.session e).1
        fixIn := match e.latched host s.session with
          | none => s.fixIn
          | some real => ⟨real, clock⟩ }, none)
  | .edge pi => serviceRound inner s (.fetched s.fixIn pi)
  | .timeout => serviceRound inner s .timeout

/-! ### What is observed -/

/-- A pair that was put: for which second of the train, and in which one the fix came. -/
structure ServicePut where
  second : ℕ
  fix : ℕ
  sample : ShmSample

/-- The service, the edges of the train that have passed, the second in which the last fix came, and
the pairs put, the first one first. -/
structure ObservedService where
  service : NtpService
  edges : ℕ
  fix : Option ℕ
  puts : List ServicePut

/-- One step observed. The seconds of the train begin with its leading edges. -/
def observedServiceStep (host : Host) (inner : InnerContext) (o : ObservedService)
    (e : ServiceEvent) : ObservedService :=
  let r := serviceStep host inner o.service e
  match e with
  | .gnss e _ =>
    { o with
      service := r.1
      fix := match e.latched host o.service.session with
        | none => o.fix
        | some _ => some (o.edges / 2) }
  | .edge _ =>
    { o with
      service := r.1
      edges := o.edges + 1
      puts := o.puts ++ (r.2.map fun sample =>
        ⟨(o.edges + 1) / 2, o.fix.getD 0, sample⟩).toList }
  | .timeout => { o with service := r.1 }

/-- The service as the daemon starts it, with the session and the segments it has. -/
def NtpService.start (session : GpsDeviceT) (ntp : NtpSession) (context : NtpContext) :
    NtpService where
  session := session
  fixIn := ⟨⟨0, 0⟩, ⟨0, 0⟩⟩
  ppsOut := ⟨⟨0, 0⟩, ⟨0, 0⟩⟩
  ppsoutCount := 0
  monitor := {}
  running := true
  ntp := ntp
  context := context

/-- Nothing is observed so far. The edges up to this one have passed without being fetched. -/
def ObservedService.start (first : ℕ) (session : GpsDeviceT) (ntp : NtpSession)
    (context : NtpContext) : ObservedService :=
  ⟨.start session ntp context, first, none, []⟩

/-- The second in which the first edge is fetched after these have passed. -/
def secondFetched (first : ℕ) : ℕ := (first + 1) / 2

/-- The segments, with these pairs put into that of the session. -/
def NtpSession.receives (ntp : NtpSession) (context : NtpContext) (samples : List ShmSample) :
    NtpContext :=
  samples.foldl
    (fun context sample => (ntpshmPut context sample.leapNotify ntp.shmPps sample.td).1) context

/-- A pair is put into the segment, and nothing else is done to the segments. -/
theorem serviceStep_context (host : Host) (inner : InnerContext) (s : NtpService)
    (e : ServiceEvent) :
    (serviceStep host inner s e).1.ntp = s.ntp ∧
      (serviceStep host inner s e).1.context
        = s.ntp.receives s.context (serviceStep host inner s e).2.toList := by
  have hround : ∀ kpps, (serviceRound inner s kpps).1.ntp = s.ntp ∧
      (serviceRound inner s kpps).1.context
        = s.ntp.receives s.context (serviceRound inner s kpps).2.toList := by
    intro kpps
    rw [serviceRound]
    split_ifs
    · generalize ppsRound inner s.monitor .failed kpps = r
      rcases hreported : r.2.reported with _ | td
      · simp only [hreported]
        exact ⟨trivial, rfl⟩
      · simp only [hreported]
        refine ⟨trivial, ?_⟩
        simp only [NtpService.sample, reportHook]
        split_ifs <;> rcases hsegment : s.ntp.shmPps with _ | n <;>
          simp_all [NtpSession.receives, ntpshmPut]
    · exact ⟨rfl, rfl⟩
  cases e with
  | gnss => exact ⟨rfl, rfl⟩
  | edge pi => exact hround _
  | timeout => exact hround _

/-- The segments hold what `ntpshm_put` makes of the pairs put. -/
structure ObservedService.Received (ntp : NtpSession) (context : NtpContext)
    (o : ObservedService) : Prop where
  ntp_eq : o.service.ntp = ntp
  context_eq : o.service.context = ntp.receives context (o.puts.map ServicePut.sample)

/-- One step, if a timeout puts nothing. -/
theorem ObservedService.Received.step {host : Host} {inner : InnerContext} {ntp : NtpSession}
    {context : NtpContext} {o : ObservedService} (h : o.Received ntp context) {e : ServiceEvent}
    (htimeout : e = .timeout → (serviceStep host inner o.service .timeout).2 = none) :
    (observedServiceStep host inner o e).Received ntp context := by
  obtain ⟨hntp, hcontext⟩ := serviceStep_context host inner o.service e
  rw [h.ntp_eq] at hntp
  rw [h.ntp_eq, h.context_eq] at hcontext
  cases e with
  | gnss e clock => exact ⟨hntp, hcontext⟩
  | edge pi =>
    refine ⟨hntp, hcontext.trans ?_⟩
    rw [NtpSession.receives, NtpSession.receives, ← List.foldl_append]
    simp only [observedServiceStep, List.map_append]
    cases (serviceStep host inner o.service (.edge pi)).2 <;> rfl
  | timeout =>
    rw [htimeout rfl] at hcontext
    exact ⟨hntp, hcontext⟩

/-! ### The world -/

variable (T : PulseTrain) (base : ℤ) (host : Host) (first : ℕ)

/-- The kernel captures the edges of the train one after another, the first second of which is
`base`; and an epoch with a fix tells the second it comes in, which is read when the clock is
between the edges around it. -/
def TruthfulWorld (o : ObservedService) : ServiceEvent → Prop
  | .gnss (.message _ (some epoch)) clock =>
    epoch.haveFix = true → epoch.ValidUtc ∧ host.Reads epoch.utcTm ∧
      posixTime epoch.utcTm = base + (o.edges / 2 : ℕ) ∧ clock.Normal ∧
      (T.time o.edges).toNs ≤ clock.toNs ∧ clock.toNs < (T.time (o.edges + 1)).toNs
  | .gnss _ _ => True
  | .edge pi => pi = T.info o.edges
  | .timeout => True

/-- Before a second begins there was a fix in the one that ends. -/
def FixEachSecond (o : ObservedService) : ServiceEvent → Prop
  | .edge _ => o.edges % 2 = 1 → o.fix = some (o.edges / 2)
  | _ => True

/-! ### The invariant -/

/-- What `fix_in` holds. -/
def FixInv (edges : ℕ) (fixIn : TimedeltaT) : Option ℕ → Prop
  | none => fixIn.real.tvSec = 0 ∧ fixIn.clock.Normal
  | some n => fixIn.real.tvSec = base + n ∧ n ≤ edges / 2 ∧ fixIn.clock.Normal ∧
    (T.time (2 * n)).toNs ≤ fixIn.clock.toNs ∧ fixIn.clock.toNs < (T.time (2 * n + 2)).toNs ∧
    fixIn.clock.toNs < (T.time (edges + 1)).toNs

/-- A pair that was put tells when a second began, and which it was if the fix was of the second
before; the fix was at most four seconds old. -/
structure PutLaw (p : ServicePut) : Prop where
  real : p.sample.td.real = ⟨base + p.fix + 1, 0⟩
  clock : p.sample.td.clock = T.time (2 * p.second)
  fix_lt : p.fix < p.second
  second_le : p.second ≤ p.fix + 4

/-- Where the thread of the pulses is: it has fetched no edge, or the last one. -/
def EdgeInv (edges : ℕ) (m : PpsMonitor) : Prop :=
  edges = first ∧ PulseTrain.NoEdge m ∨ ∃ k, first ≤ k ∧ edges = k + 1 ∧ T.OnEdge m k

/-- The invariant of the service. -/
structure ServiceInv (o : ObservedService) : Prop where
  running : o.service.running = true
  sourcetype : o.service.ntp.sourcetype = .pps
  segment : o.service.ntp.shmPps.isSome = true
  edge : EdgeInv T first o.edges o.service.monitor
  fix : FixInv T base o.edges o.service.fixIn o.fix
  puts : ∀ p ∈ o.puts, PutLaw T base p ∧ p.second ≤ o.edges / 2
  order : o.puts.Pairwise fun p q => p.second < q.second

variable {T base host first} {inner : InnerContext} {o : ObservedService}

theorem FixInv.normal {edges : ℕ} {fixIn : TimedeltaT} {fix : Option ℕ}
    (h : FixInv T base edges fixIn fix) : fixIn.clock.Normal := by
  cases fix with
  | none => exact h.2
  | some n => exact h.2.2.1

/-- Time goes on. -/
theorem FixInv.later {edges : ℕ} {fixIn : TimedeltaT} {fix : Option ℕ}
    (h : FixInv T base edges fixIn fix) : FixInv T base (edges + 1) fixIn fix := by
  cases fix with
  | none => exact h
  | some n =>
    obtain ⟨hreal, hle, hnormal, hlower, hupper, hclock⟩ := h
    have hnext := T.strictMono (Nat.lt_succ_self (edges + 1))
    exact ⟨hreal, by omega, hnormal, hlower, hupper, hclock.trans hnext⟩

/-- A session for pulses puts what is reported. -/
theorem NtpService.sample_eq {s : NtpService} (hsource : s.ntp.sourcetype = .pps)
    (hsegment : s.ntp.shmPps.isSome = true) (td : TimedeltaT) :
    s.sample td = some ⟨td, -20, s.session.context.leapNotify⟩ := by
  obtain ⟨n, hn⟩ := Option.isSome_iff_exists.mp hsegment
  simp [NtpService.sample, reportHook, hsource, hn]

/-- The time that is latched is that of the second. -/
theorem latched_eq (hposix : PosixHost host) {e : GnssEvent} {clock : Timespec}
    (htrue : TruthfulWorld T base host o (.gnss e clock)) {real : Timespec}
    (hreal : e.latched host o.service.session = some real) :
    real.tvSec = base + (o.edges / 2 : ℕ) ∧ clock.Normal ∧
      (T.time o.edges).toNs ≤ clock.toNs ∧ clock.toNs < (T.time (o.edges + 1)).toNs := by
  rcases e with ⟨msg, _ | epoch⟩ | _
  · cases hreal
  · simp only [GnssEvent.latched] at hreal
    split_ifs at hreal with hfix
    obtain ⟨hvalid, hreads, hsecond, hclock⟩ := htrue hfix
    refine ⟨?_, hclock⟩
    rw [ntpLatch] at hreal
    split_ifs at hreal
    obtain rfl := Option.some.inj hreal
    rw [← hsecond, ← gnssGetUtcTime_of_reads hposix hvalid hreads]
    simp [gnssThreadEpoch, hfix]
  · cases hreal

/-- An iteration of the thread of the receiver. -/
theorem ServiceInv.gnss (hposix : PosixHost host) (h : ServiceInv T base first o) {e : GnssEvent}
    {clock : Timespec} (htrue : TruthfulWorld T base host o (.gnss e clock)) :
    ServiceInv T base first (observedServiceStep host inner o (.gnss e clock)) := by
  have hfix : FixInv T base o.edges
      (match e.latched host o.service.session with
        | none => o.service.fixIn
        | some real => ⟨real, clock⟩)
      (match e.latched host o.service.session with
        | none => o.fix
        | some _ => some (o.edges / 2)) := by
    rcases hreal : e.latched host o.service.session with _ | real
    · exact h.fix
    · obtain ⟨hsec, hnormal, hlower, hupper⟩ := latched_eq hposix htrue hreal
      have hfirst := T.strictMono.monotone (show 2 * (o.edges / 2) ≤ o.edges by omega)
      have hlast := T.strictMono.monotone (show o.edges + 1 ≤ 2 * (o.edges / 2) + 2 by omega)
      exact ⟨hsec, le_rfl, hnormal, hfirst.trans hlower, hupper.trans_le hlast, hupper⟩
  exact { h with fix := hfix }

/-- What the next edge is judged to be. -/
def dueNext (T : PulseTrain) (first : ℕ) (o : ObservedService) : Option TimedeltaT :=
  if first < o.edges ∧ o.edges % 2 = 1 ∧ 0 < o.service.fixIn.real.tvSec ∧
      Recent ((T.time (o.edges + 1)).toNs - o.service.fixIn.clock.toNs) then
    some ⟨⟨o.service.fixIn.real.tvSec + 1, 0⟩, T.time (o.edges + 1)⟩
  else none

/-- A round of the thread of the pulses, for the next edge. -/
theorem ServiceInv.round (hcanwait : inner.ppsCanwait = true) (h : ServiceInv T base first o) :
    EdgeInv T first (o.edges + 1) (ppsRound inner o.service.monitor .failed
        (.fetched o.service.fixIn (T.info o.edges))).1 ∧
      (ppsRound inner o.service.monitor .failed
        (.fetched o.service.fixIn (T.info o.edges))).2.goesOn = true ∧
      (ppsRound inner o.service.monitor .failed
        (.fetched o.service.fixIn (T.info o.edges))).2.reported = dueNext T first o := by
  rcases h.edge with ⟨hfirst, hedge⟩ | ⟨k, hfirst, hk, hedge⟩
  · obtain ⟨honEdge, hreported, hgoesOn⟩ :=
      PulseTrain.ppsRound_first (T := T) hcanwait hedge o.edges .failed o.service.fixIn
    refine ⟨.inr ⟨o.edges, hfirst.ge, rfl, honEdge⟩, hgoesOn, ?_⟩
    rw [hreported, dueNext, if_neg fun hdue => hdue.1.ne hfirst.symm]
  · obtain ⟨hreported, hgoesOn⟩ :=
      PulseTrain.reported_onEdge hcanwait hedge .failed h.fix.normal
    rw [hk]
    refine ⟨.inr ⟨k + 1, hfirst.trans k.le_succ, rfl,
      (PulseTrain.ppsRound_onEdge hcanwait hedge .failed o.service.fixIn).1⟩, hgoesOn, ?_⟩
    have hlater : (first < k + 1) = True := eq_true (Nat.lt_succ_of_le hfirst)
    have hodd : ((k + 1) % 2 = 1) = (k % 2 = 0) := propext (by omega)
    simp only [hreported, dueNext, hk, hlater, hodd, true_and]

/-- What an edge adds to the pairs put. -/
def putNext (T : PulseTrain) (first : ℕ) (o : ObservedService) : List ServicePut :=
  ((dueNext T first o).map fun td =>
    ⟨(o.edges + 1) / 2, o.fix.getD 0, td, -20, o.service.session.context.leapNotify⟩).toList

/-- An edge. -/
theorem ServiceInv.edge_eq (host : Host) (hcanwait : inner.ppsCanwait = true)
    (h : ServiceInv T base first o) :
    let o' := observedServiceStep host inner o (.edge (T.info o.edges))
    o'.edges = o.edges + 1 ∧ o'.fix = o.fix ∧ o'.puts = o.puts ++ putNext T first o ∧
      o'.service.running = true ∧ o'.service.ntp = o.service.ntp ∧
      o'.service.fixIn = o.service.fixIn ∧ EdgeInv T first (o.edges + 1) o'.service.monitor := by
  obtain ⟨hmonitor, hgoesOn, hreported⟩ := h.round hcanwait
  simp only [observedServiceStep, serviceStep, serviceRound, h.running, if_true, putNext,
    hreported]
  rcases hdue : dueNext T first o with _ | td
  · exact ⟨trivial, trivial, rfl, hgoesOn, rfl, rfl, hmonitor⟩
  · have hsample := NtpService.sample_eq (s := { o.service with
        monitor := (ppsRound inner o.service.monitor .failed
          (.fetched o.service.fixIn (T.info o.edges))).1
        running := (ppsRound inner o.service.monitor .failed
          (.fetched o.service.fixIn (T.info o.edges))).2.goesOn }) h.sourcetype h.segment td
    have hput := congrArg (fun sample => o.puts ++
      (sample.map fun sample => ⟨(o.edges + 1) / 2, o.fix.getD 0, sample⟩).toList) hsample
    exact ⟨trivial, trivial, hput, hgoesOn, rfl, rfl, hmonitor⟩

/-- What is put tells the second after the fix. -/
theorem ServiceInv.putNext (h : ServiceInv T base first o) {p : ServicePut}
    (hp : p ∈ Oscillatord.putNext T first o) :
    PutLaw T base p ∧ p.second = (o.edges + 1) / 2 ∧ o.edges % 2 = 1 ∧ o.fix = some p.fix := by
  obtain ⟨td, htd, rfl⟩ : ∃ td, dueNext T first o = some td ∧ _ = p := by
    simpa [Oscillatord.putNext, Option.mem_toList] using hp
  rw [dueNext] at htd
  split_ifs at htd with hdue
  obtain ⟨-, hodd, hsec, hrecent⟩ := hdue
  obtain rfl := Option.some.inj htd
  have hfix := h.fix
  rcases hn : o.fix with _ | n <;> rw [hn] at hfix
  · rw [hfix.1] at hsec
    exact absurd hsec (lt_irrefl 0)
  obtain ⟨hreal, hle, hnormal, hlower, hupper, hclock⟩ := hfix
  have hsecond : 2 * ((o.edges + 1) / 2) = o.edges + 1 := by omega
  have hlt : n < (o.edges + 1) / 2 := by omega
  refine ⟨⟨by simp [hreal], by simp [hsecond], hlt, ?_⟩, rfl, hodd, rfl⟩
  simp only [Option.getD_some]
  by_contra hlate
  have hpassed := T.seconds_le (n + 1) ((o.edges + 1) / 2 - (n + 1))
  rw [show n + 1 + ((o.edges + 1) / 2 - (n + 1)) = (o.edges + 1) / 2 by omega, hsecond,
    show 2 * (n + 1) = 2 * n + 2 by ring] at hpassed
  simp only [Recent] at hrecent
  omega

/-- An edge keeps the invariant. -/
theorem ServiceInv.edgeStep (hcanwait : inner.ppsCanwait = true) (h : ServiceInv T base first o) :
    ServiceInv T base first (observedServiceStep host inner o (.edge (T.info o.edges))) := by
  obtain ⟨hedges, hfix, hputs, hrunning, hntp, hfixIn, hedge⟩ :=
    h.edge_eq host hcanwait
  generalize observedServiceStep host inner o (.edge (T.info o.edges)) = o' at *
  refine
    { running := hrunning, sourcetype := hntp ▸ h.sourcetype, segment := hntp ▸ h.segment
      edge := hedges ▸ hedge, fix := ?_, puts := ?_, order := ?_ }
  · rw [hedges, hfix, hfixIn]
    exact h.fix.later
  · intro p hp
    rw [hputs] at hp
    rw [hedges]
    rcases List.mem_append.mp hp with hp | hp
    · obtain ⟨hlaw, hle⟩ := h.puts p hp
      exact ⟨hlaw, by omega⟩
    · obtain ⟨hlaw, hsecond, -⟩ := h.putNext hp
      exact ⟨hlaw, hsecond.le⟩
  · rw [hputs, List.pairwise_append]
    refine ⟨h.order, ?_, fun p hp q hq => ?_⟩
    · rw [Oscillatord.putNext]
      cases dueNext T first o <;> simp
    · obtain ⟨-, hle⟩ := h.puts p hp
      obtain ⟨-, hsecond, hodd, -⟩ := h.putNext hq
      omega

/-- A timeout changes nothing but the count of those without a change. -/
theorem ServiceInv.timeout_eq (hcanwait : inner.ppsCanwait = true) (h : ServiceInv T base first o) :
    serviceStep host inner o.service .timeout =
      ({ o.service with
          monitor := { o.service.monitor with unchanged := ppsUnchanged o.service.monitor }
          running := true }, none) := by
  have hround := PulseTrain.ppsRound_timeout hcanwait o.service.monitor .failed
  simp only [serviceStep, serviceRound, h.running, if_true, hround]
  rfl

/-- **One step of the service.** -/
theorem ServiceInv.step (hposix : PosixHost host) (hcanwait : inner.ppsCanwait = true)
    (h : ServiceInv T base first o) {e : ServiceEvent} (htrue : TruthfulWorld T base host o e) :
    ServiceInv T base first (observedServiceStep host inner o e) := by
  cases e with
  | gnss e clock => exact h.gnss hposix htrue
  | edge pi =>
    obtain rfl : pi = T.info o.edges := htrue
    exact h.edgeStep hcanwait
  | timeout =>
    have hedge : EdgeInv T first o.edges
        { o.service.monitor with unchanged := ppsUnchanged o.service.monitor } := by
      rcases h.edge with hnone | ⟨k, hfirst, hk, hedge⟩
      · exact .inl hnone
      · exact .inr ⟨k, hfirst, hk, hedge.last, hedge.previous, hedge.state⟩
    rw [observedServiceStep, h.timeout_eq hcanwait]
    exact { h with running := rfl, edge := hedge }

section Runs

variable {session : GpsDeviceT} {ntp : NtpSession} {context : NtpContext}
  {es : List ServiceEvent}

theorem serviceInv_start (hsource : ntp.sourcetype = .pps) (hsegment : ntp.shmPps.isSome = true) :
    ServiceInv T base first (ObservedService.start first session ntp context) where
  running := rfl
  sourcetype := hsource
  segment := hsegment
  edge := .inl ⟨rfl, fun _ => rfl⟩
  fix := ⟨rfl, Timespec.normal_zero⟩
  puts := fun _ hp => absurd hp List.not_mem_nil
  order := List.Pairwise.nil

/-- The invariant of a run. -/
theorem serviceInv_after (hposix : PosixHost host) (hcanwait : inner.ppsCanwait = true)
    (hsource : ntp.sourcetype = .pps) (hsegment : ntp.shmPps.isSome = true)
    (htrue : EachStep (observedServiceStep host inner) (TruthfulWorld T base host)
      (ObservedService.start first session ntp context) es) :
    ServiceInv T base first (after (observedServiceStep host inner)
      (ObservedService.start first session ntp context) es) :=
  (throughout_of_eachStep (serviceInv_start hsource hsegment)
    (fun _ _ h he => h.step hposix hcanwait he) htrue).last

/-- **What is put.** In every run in which the fixes are true, each pair put is of a second of its
own, and its clock is that at which the second began; the second it tells is right exactly when the
last fix came in the second before, and is three seconds too early at most otherwise. -/
theorem service_sound (hposix : PosixHost host) (hcanwait : inner.ppsCanwait = true)
    (hsource : ntp.sourcetype = .pps) (hsegment : ntp.shmPps.isSome = true)
    (htrue : EachStep (observedServiceStep host inner) (TruthfulWorld T base host)
      (ObservedService.start first session ntp context) es) :
    let o := after (observedServiceStep host inner)
      (ObservedService.start first session ntp context) es
    o.puts.Pairwise (fun p q => p.second < q.second) ∧
      ∀ p ∈ o.puts, p.sample.td.clock = T.time (2 * p.second) ∧
        p.sample.td.real.tvNsec = 0 ∧
        (p.sample.td.real.tvSec = base + p.second ↔ p.fix + 1 = p.second) ∧
        p.sample.td.real.tvSec ≤ base + p.second ∧
        base + p.second ≤ p.sample.td.real.tvSec + 3 := by
  intro o
  have hinv : ServiceInv T base first o := serviceInv_after hposix hcanwait hsource hsegment htrue
  refine ⟨hinv.order, fun p hp => ?_⟩
  obtain ⟨hreal, hclock, hlt, hle⟩ := (hinv.puts p hp).1
  rw [hreal]
  refine ⟨hclock, rfl, ?_, ?_, ?_⟩ <;> simp only <;> omega

/-- With a fix in each second, an edge after the first one that begins a second is put. -/
theorem ServiceInv.putNext_eq (h : ServiceInv T base first o) (hbase : 0 < base)
    (hfix : o.edges % 2 = 1 → o.fix = some (o.edges / 2)) :
    (Oscillatord.putNext T first o).map (fun p => p.sample.td) =
      if first < o.edges ∧ o.edges % 2 = 1 then
        [⟨⟨base + (o.edges / 2 : ℕ) + 1, 0⟩, T.time (o.edges + 1)⟩]
      else [] := by
  split_ifs with hnext
  · obtain ⟨hlater, hodd⟩ := hnext
    have hinv := h.fix
    rw [hfix hodd] at hinv
    obtain ⟨hreal, -, -, hlower, -, hclock⟩ := hinv
    have hperiod := (T.period (2 * (o.edges / 2))).2
    rw [show 2 * (o.edges / 2) + 2 = o.edges + 1 by omega] at hperiod
    have hrecent : Recent ((T.time (o.edges + 1)).toNs - o.service.fixIn.clock.toNs) :=
      .inl ⟨by omega, by omega⟩
    have hsec : 0 < o.service.fixIn.real.tvSec := by omega
    rw [Oscillatord.putNext, dueNext, if_pos ⟨hlater, hodd, hsec, hrecent⟩, hreal]
    rfl
  · rw [Oscillatord.putNext, dueNext, if_neg fun hdue => hnext ⟨hdue.1, hdue.2.1⟩]
    rfl

/-- The pairs put are those of all seconds that began after the first edge fetched. -/
def AllPut (T : PulseTrain) (base : ℤ) (first : ℕ) (o : ObservedService) : Prop :=
  o.puts.map (fun p => p.sample.td) =
    (List.range' (secondFetched first + 1) (o.edges / 2 - secondFetched first)).map fun n : ℕ =>
      ⟨⟨base + n, 0⟩, T.time (2 * n)⟩

theorem ServiceInv.first_le (h : ServiceInv T base first o) : first ≤ o.edges := by
  rcases h.edge with ⟨hfirst, -⟩ | ⟨k, hfirst, hk, -⟩ <;> omega

theorem ServiceInv.allPut_edge (hcanwait : inner.ppsCanwait = true) (h : ServiceInv T base first o)
    (hbase : 0 < base) (hfix : o.edges % 2 = 1 → o.fix = some (o.edges / 2))
    (hall : AllPut T base first o) :
    AllPut T base first (observedServiceStep host inner o (.edge (T.info o.edges))) := by
  obtain ⟨hedges, -, hputs, -⟩ := h.edge_eq host hcanwait
  have hle := h.first_le
  rw [AllPut] at hall ⊢
  rw [hputs, hedges, List.map_append, hall, h.putNext_eq hbase hfix, secondFetched]
  split_ifs with hnext
  · rw [show (o.edges + 1) / 2 - (first + 1) / 2 = o.edges / 2 - (first + 1) / 2 + 1 by omega,
      List.range'_1_concat, List.map_append,
      show (first + 1) / 2 + 1 + (o.edges / 2 - (first + 1) / 2) = o.edges / 2 + 1 by omega,
      show o.edges + 1 = 2 * (o.edges / 2 + 1) by omega]
    simp [add_assoc]
  · rw [show (o.edges + 1) / 2 - (first + 1) / 2 = o.edges / 2 - (first + 1) / 2 by omega,
      List.append_nil]

/-- The invariant of a run with a fix in each second. -/
theorem allPut_after (hposix : PosixHost host) (hcanwait : inner.ppsCanwait = true)
    (hbase : 0 < base) (hsource : ntp.sourcetype = .pps) (hsegment : ntp.shmPps.isSome = true)
    (context : NtpContext)
    (htrue : EachStep (observedServiceStep host inner) (TruthfulWorld T base host)
      (ObservedService.start first session ntp context) es)
    (hfix : EachStep (observedServiceStep host inner) FixEachSecond
      (ObservedService.start first session ntp context) es) :
    let o := after (observedServiceStep host inner)
      (ObservedService.start first session ntp context) es
    AllPut T base first o ∧ o.Received ntp context := by
  have hstart : AllPut T base first (ObservedService.start first session ntp context) := by
    have hnone : first / 2 - secondFetched first = 0 := by
      rw [secondFetched]
      omega
    simp [AllPut, ObservedService.start, hnone]
  have hrun := throughout_of_eachStep
    (P := fun o => ServiceInv T base first o ∧ AllPut T base first o ∧ o.Received ntp context)
    (C := fun o e => TruthfulWorld T base host o e ∧ FixEachSecond o e)
    ⟨serviceInv_start hsource hsegment, hstart, ⟨rfl, rfl⟩⟩ ?_
    fun pre e hpre => ⟨htrue pre e hpre, hfix pre e hpre⟩
  · exact hrun.last.2
  · rintro o e ⟨hinv, hall, hreceived⟩ ⟨he, heach⟩
    refine ⟨hinv.step hposix hcanwait he, ?_,
      hreceived.step fun _ => congrArg Prod.snd (hinv.timeout_eq hcanwait)⟩
    cases e with
    | gnss e clock => exact hall
    | edge pi =>
      obtain rfl : pi = T.info o.edges := he
      exact hinv.allPut_edge hcanwait hbase heach hall
    | timeout => exact hall

/-- **If there is a fix in each second, every second that begins after the first edge fetched is
put, once and rightly**, and the segments hold what `ntpshm_put` makes of these pairs. -/
theorem service_exact (hposix : PosixHost host) (hcanwait : inner.ppsCanwait = true)
    (hbase : 0 < base) (hsource : ntp.sourcetype = .pps) (hsegment : ntp.shmPps.isSome = true)
    (htrue : EachStep (observedServiceStep host inner) (TruthfulWorld T base host)
      (ObservedService.start first session ntp context) es)
    (hfix : EachStep (observedServiceStep host inner) FixEachSecond
      (ObservedService.start first session ntp context) es) :
    let o := after (observedServiceStep host inner)
      (ObservedService.start first session ntp context) es
    o.puts.map (fun p => p.sample.td) =
        ((List.range' (secondFetched first + 1) (o.edges / 2 - secondFetched first)).map
          fun n : ℕ => ⟨⟨base + n, 0⟩, T.time (2 * n)⟩) ∧
      o.service.context = ntp.receives context (o.puts.map ServicePut.sample) := by
  obtain ⟨hall, hreceived⟩ :=
    allPut_after hposix hcanwait hbase hsource hsegment context htrue hfix
  exact ⟨hall, hreceived.context_eq⟩

/-- **What the NTP daemon is told is the truth.** With a fix in each second, however the puts of the
service and any number of `ntp_read` go on together in the segment, a copy that is accepted with
`count` standing still from the look at `valid` is what the segment held to begin with, or tells
when one of the seconds that began did so. -/
theorem service_read {ι : Type u} [DecidableEq ι] (hposix : PosixHost host)
    (hcanwait : inner.ppsCanwait = true) (hbase : 0 < base) (hsource : ntp.sourcetype = .pps)
    (hsegment : ntp.shmPps.isSome = true)
    (htrue : EachStep (observedServiceStep host inner) (TruthfulWorld T base host)
      (ObservedService.start first session ntp context) es)
    (hfix : EachStep (observedServiceStep host inner) FixEachSecond
      (ObservedService.start first session ntp context) es)
    {shm : ShmTime} (hmode : shm.mode = 1) {as : List (ShmAccess ι)}
    (hsamples : (after segmentStep (SegmentRun.start shm) as).samples =
      (after (observedServiceStep host inner) (ObservedService.start first session ntp context)
        es).puts.map ServicePut.sample)
    {r : Read (fun _ : ShmWord => ℤ) ι}
    (hr : r ∈ (after segmentStep (SegmentRun.start shm) as).system.reads)
    (hround : r.last < r.first + 2 ^ 32) (hstill : r.first = r.seen) :
    shmCopy r = shm.cell.word ∨
      ∃ n : ℕ, secondFetched first < n ∧
        n ≤ (after (observedServiceStep host inner)
          (ObservedService.start first session ntp context) es).edges / 2 ∧
        ∀ stat, (ntpStat shm.mode (shmCopy r) stat).status = .ok ∧
          (ntpStat shm.mode (shmCopy r) stat).tvt = ⟨base + n, 0⟩ ∧
          (ntpStat shm.mode (shmCopy r) stat).tvr = T.time (2 * n) := by
  obtain ⟨-, hexact, heven⟩ := read_versions hr hround
  have hall := (allPut_after hposix hcanwait hbase hsource hsegment context htrue hfix).1
  have htold := tells_of_exact hmode (hexact (heven hstill))
  rcases hk : r.first / 2 with _ | k <;> rw [hk] at htold
  · exact .inl htold
  · obtain ⟨sample, hsample, -, hdelivered⟩ := htold
    right
    have hput : ((after (observedServiceStep host inner)
        (ObservedService.start first session ntp context) es).puts.map fun p => p.sample.td)[k]?
          = some sample.td := by
      rw [hsamples, List.getElem?_map] at hsample
      obtain ⟨p, hp, rfl⟩ := Option.map_eq_some_iff.mp hsample
      rw [List.getElem?_map, hp]
      rfl
    rw [hall, List.getElem?_map] at hput
    obtain ⟨n, hn, htd⟩ := Option.map_eq_some_iff.mp hput
    obtain ⟨hfetched, hbegun⟩ := List.mem_range'_1.mp (List.mem_of_getElem? hn)
    have hreal : sample.td.real.Storable := by
      rw [← htd]
      refine ⟨⟨?_, ?_, ?_, ?_⟩, le_rfl⟩ <;> simp only [nsInSec] <;> omega
    have hclock : sample.td.clock.Storable := by
      rw [← htd]
      exact ⟨T.normal _, (T.nsec _).1⟩
    refine ⟨n, by omega, by omega, fun stat => ?_⟩
    have hstat := hdelivered hreal hclock stat
    rw [hstat.status, hstat.tvt, hstat.tvr, ← htd]
    exact ⟨rfl, rfl, rfl⟩

/-! ### A second -/

/-- The session of a receiver of pulses, with the third segment. -/
def sessionPps : NtpSession := ⟨.pps, 0, none, some ⟨2, by decide⟩, true⟩

/-- The third segment is attached and in use. -/
def contextPps : NtpContext :=
  ⟨fun i => if i.val = 2 then some allocatedSegment else none, fun i => i.val == 2⟩

/-- A fix in the first second of the train, and the edges until the next one begins. -/
def firstSecond : List ServiceEvent :=
  [.gnss (.message ⟨.ubx, []⟩ (some epochFixed)) ⟨10, 50000000⟩, .edge (PulseTrain.hertz.info 0),
    .edge (PulseTrain.hertz.info 1)]

theorem truthfulWorld_firstSecond :
    EachStep (observedServiceStep hostUtc PulseTrain.kernelWaits)
      (TruthfulWorld PulseTrain.hertz 1715932800 hostUtc)
      (ObservedService.start 0 sessionZero sessionPps contextPps) firstSecond := by
  have hvalid : epochFixed.ValidUtc :=
    { date :=
        { year := by decide, mon := by decide, mday := by decide, hour := by decide
          min := by decide, sec := by decide }
      second := by decide +kernel }
  simp only [firstSecond, eachStep_cons]
  refine ⟨fun _ => ⟨hvalid, reads_hostUtc _, by decide +kernel, ?_, by decide, by decide⟩, rfl, rfl,
    eachStep_nil⟩
  constructor <;> decide

theorem fixEachSecond_firstSecond :
    EachStep (observedServiceStep hostUtc PulseTrain.kernelWaits) FixEachSecond
      (ObservedService.start 0 sessionZero sessionPps contextPps) firstSecond := by
  simp only [firstSecond, eachStep_cons]
  exact ⟨trivial, fun hodd => absurd hodd (by decide), fun _ => by decide +kernel, eachStep_nil⟩

theorem service_sound_firstSecond :
    let o := after (observedServiceStep hostUtc PulseTrain.kernelWaits)
      (ObservedService.start 0 sessionZero sessionPps contextPps) firstSecond
    o.puts.Pairwise (fun p q => p.second < q.second) ∧
      ∀ p ∈ o.puts, p.sample.td.clock = PulseTrain.hertz.time (2 * p.second) ∧
        p.sample.td.real.tvNsec = 0 ∧
        (p.sample.td.real.tvSec = 1715932800 + p.second ↔ p.fix + 1 = p.second) ∧
        p.sample.td.real.tvSec ≤ 1715932800 + p.second ∧
        1715932800 + p.second ≤ p.sample.td.real.tvSec + 3 :=
  service_sound posixHost_hostUtc rfl rfl rfl truthfulWorld_firstSecond

theorem service_exact_firstSecond :
    let o := after (observedServiceStep hostUtc PulseTrain.kernelWaits)
      (ObservedService.start 0 sessionZero sessionPps contextPps) firstSecond
    o.puts.map (fun p => p.sample.td) =
        ((List.range' (secondFetched 0 + 1) (o.edges / 2 - secondFetched 0)).map fun n : ℕ =>
          ⟨⟨1715932800 + n, 0⟩, PulseTrain.hertz.time (2 * n)⟩) ∧
      o.service.context = sessionPps.receives contextPps (o.puts.map ServicePut.sample) :=
  service_exact posixHost_hostUtc rfl (by decide) rfl rfl truthfulWorld_firstSecond
    fixEachSecond_firstSecond

/-- The pair of the second after it is put, and is consumed. -/
def firstSecondConsumed : List (ShmAccess Unit) :=
  .puts ⟨⟨⟨1715932801, 0⟩, ⟨11, 0⟩⟩, -20, .noWarning⟩ :: List.replicate 12 .stores
    ++ ntpReadAccesses () ntpWriteOrder true

theorem service_read_firstSecond :
    ∃ r ∈ (after segmentStep (SegmentRun.start allocatedSegment)
        firstSecondConsumed).system.reads,
      shmCopy r = allocatedSegment.cell.word ∨
        ∃ n : ℕ, secondFetched 0 < n ∧
          n ≤ (after (observedServiceStep hostUtc PulseTrain.kernelWaits)
            (ObservedService.start 0 sessionZero sessionPps contextPps) firstSecond).edges / 2 ∧
          ∀ stat, (ntpStat 1 (shmCopy r) stat).status = .ok ∧
            (ntpStat 1 (shmCopy r) stat).tvt = ⟨1715932800 + n, 0⟩ ∧
            (ntpStat 1 (shmCopy r) stat).tvr = PulseTrain.hertz.time (2 * n) := by
  have hsamples : (after segmentStep (SegmentRun.start allocatedSegment)
      firstSecondConsumed).samples = (after (observedServiceStep hostUtc PulseTrain.kernelWaits)
        (ObservedService.start 0 sessionZero sessionPps contextPps) firstSecond).puts.map
          ServicePut.sample := by
    decide +kernel
  exact ⟨_, List.mem_cons_self, service_read posixHost_hostUtc rfl (by decide) rfl rfl
    truthfulWorld_firstSecond fixEachSecond_firstSecond rfl hsamples List.mem_cons_self (by decide)
    (by decide)⟩

end Runs

end Oscillatord
