import Oscillatord.Monitoring.Responses

/-!
# The traffic of the peers

The events of the server name descriptors, which the kernel uses again, and an event of a peer does
not occur once the loop has ended. `Traffic` is what the peers do, each event with the peer it
comes from: the traffic of a peer can be told from that of the others whatever the server does with
it. `trafficStep` serves it: the event goes to the descriptor the peer was accepted on, as long as
that is registered for it.

Every run of the server is the run of some traffic (`exists_traffic`).
-/

namespace Oscillatord

open StepRun ObjectRep

/-! ### Traffic -/

/-- An event of a peer, with what the calls of its branch return. -/
inductive PeerTraffic
  | error
  | hangup
  | readable (outcome : RecvOutcome)
  | writable (resp : List UInt8) (outcome : SendOutcome)
  deriving DecidableEq

/-- The event on a descriptor. -/
def PeerTraffic.on (fd : ℕ) : PeerTraffic → ServerEvent
  | .error => .error fd
  | .hangup => .hangup fd
  | .readable outcome => .readable fd outcome
  | .writable resp outcome => .writable fd resp outcome

/-- An event of the thread that comes from no peer. -/
inductive ThreadEvent
  | setStop
  | checkStop
  | listeningError
  | wouldBlock
  deriving DecidableEq

/-- The event of the server. -/
def ThreadEvent.serverEvent : ThreadEvent → ServerEvent
  | .setStop => .setStop
  | .checkStop => .checkStop
  | .listeningError => .listeningError
  | .wouldBlock => .accept .wouldBlock

/-- What the server is told of, with the peer it comes from: `accept` returns the connection of the
peer or fails for it, an event of the peer, or one of the thread. -/
inductive Traffic
  | connect (peer fd : ℕ) (room : Bool)
  | connectFails (peer : ℕ)
  | peer (peer : ℕ) (event : PeerTraffic)
  | thread (event : ThreadEvent)
  deriving DecidableEq

/-- The server, with the descriptor and the connection of every peer that was accepted. -/
structure TrafficRun where
  run : ServerRun
  place : ℕ → Option (ℕ × ℕ)

/-- Before the first event no peer is accepted. -/
def trafficRunStart (globalState : ℕ → PeerState) : TrafficRun :=
  { run := serverRunStart globalState, place := fun _ => none }

/-- The loop is running. -/
abbrev TrafficRun.Running (s : TrafficRun) : Prop := s.run.server.loop = .running

/-- The descriptor that is registered for a peer. -/
def TrafficRun.descriptor (s : TrafficRun) (p : ℕ) : Option ℕ :=
  (s.place p).bind fun place =>
    if s.run.owner place.1 = place.2 ∧ (s.run.server.interest place.1).isSome then some place.1
    else none

/-- The event of the server. A peer connects once, and is told of on its descriptor. -/
def TrafficRun.event? (s : TrafficRun) : Traffic → Option ServerEvent
  | .connect p fd room => if s.place p = none then some (.accept (.accepted fd room)) else none
  | .connectFails p => if s.place p = none then some (.accept .failed) else none
  | .peer p event => (s.descriptor p).map fun fd => event.on fd
  | .thread event => some event.serverEvent

/-- The places once the server has become `run`. -/
def TrafficRun.placed (s : TrafficRun) (run : ServerRun) : Traffic → ℕ → Option (ℕ × ℕ)
  | .connect p fd _ =>
    if s.run.next < run.next then Function.update s.place p (some (fd, s.run.next)) else s.place
  | _ => s.place

/-- One event of the traffic. -/
def trafficStep (tok : JsonTokener) (s : TrafficRun) (t : Traffic) : TrafficRun :=
  match s.event? t with
  | none => s
  | some e =>
    let run := serverRunStep tok s.run e
    { run, place := s.placed run t }

/-- The log of the connection of a peer. -/
def TrafficRun.log (s : TrafficRun) (p : ℕ) : PeerLog :=
  (s.place p).elim .empty fun place => s.run.log place.2

/-- The entry of the table that is registered for a peer. -/
def TrafficRun.entry (s : TrafficRun) (p : ℕ) : Option (PeerState × FdStatus) :=
  (s.descriptor p).bind fun fd =>
    (s.run.server.interest fd).map fun status => (s.run.server.globalState fd, status)

/-- `accept` returns a descriptor that is not open. -/
def DescriptorFree (s : TrafficRun) : Traffic → Prop
  | .connect _ fd _ => s.Running → s.run.server.isOpen fd = false
  | _ => True

instance decidableDescriptorFree (s : TrafficRun) : ∀ t, Decidable (DescriptorFree s t)
  | .connect _ fd _ => inferInstanceAs (Decidable (s.Running → s.run.server.isOpen fd = false))
  | .connectFails _ => isTrue trivial
  | .peer _ _ => isTrue trivial
  | .thread _ => isTrue trivial

variable {tok : JsonTokener} {r : ServerRun} {s s' : TrafficRun} {t : Traffic} {e : ServerEvent}
  {p q fd k : ℕ} {peer : PeerState} {status : FdStatus}

/-! ### Single steps of the server -/

/-- What every run keeps. -/
abbrev AnyInv (tok : JsonTokener) : ServerRun → Prop :=
  LocalInv tok (fun _ _ _ => True) fun _ => True

theorem AnyInv.step (hinv : AnyInv tok r) (e : ServerEvent) : AnyInv tok (serverRunStep tok r e) :=
  LocalInv.step hinv trivial fun _ _ _ _ _ _ => ⟨fun _ _ _ => trivial, trivial⟩

theorem anyInv_serverRunStart (globalState : ℕ → PeerState) :
    AnyInv tok (serverRunStart globalState) := localInv_serverRunStart trivial globalState

/-- An event that does not occur changes nothing. -/
theorem serverRunStep_of_not_occurs (h : ¬ occurs r.server e = true) : serverRunStep tok r e = r :=
  if_neg h

/-- Once the loop has ended only `monitoring->stop` changes. -/
theorem serverRunStep_of_not_running (h : r.server.loop ≠ .running) (e : ServerEvent) :
    serverRunStep tok r e = { r with server := serverStep tok r.server e } := by
  by_cases hoccurs : occurs r.server e = true
  · obtain rfl : e = .setStop := by
      cases e with
      | setStop => rfl
      | accept outcome => cases outcome <;> simp [occurs, h] at hoccurs
      | _ => simp [occurs, h] at hoccurs
    rw [serverRunStep, if_pos hoccurs, serverStep, if_pos hoccurs]
    rfl
  · rw [serverRunStep_of_not_occurs hoccurs, serverStep, if_neg hoccurs]

@[simp] theorem fd?_on (fd : ℕ) (event : PeerTraffic) : (event.on fd).fd? = some fd := by
  cases event <;> rfl

/-- A registered peer is ready for the event. -/
def PeerTraffic.readyFor (status : FdStatus) : PeerTraffic → Bool
  | .error => true
  | .hangup => true
  | .readable outcome => status.wantRead && decide (outcome.size ≤ recvSize)
  | .writable _ _ => status.wantWrite

/-- Which events occur on a registered descriptor. -/
theorem occurs_on (hrunning : r.server.loop = .running)
    (hinterest : r.server.interest fd = some status) (event : PeerTraffic) :
    occurs r.server (event.on fd) = event.readyFor status := by
  cases event <;>
    simp [PeerTraffic.on, PeerTraffic.readyFor, occurs, Server.wants, hrunning, hinterest]

/-- The entry does not depend on the descriptor. -/
theorem peerEntry_on (event : PeerTraffic) :
    peerEntry tok peer (some status) (event.on fd)
      = peerEntry tok peer (some status) (event.on 0) := by
  cases event <;> rfl

/-- Nor does the log. -/
theorem record_on (log : PeerLog) (event : PeerTraffic) :
    log.record tok peer (event.on fd) = log.record tok peer (event.on 0) := by
  cases event <;> rfl

/-! ### What a run of traffic keeps -/

/-- The connections of the peers were all accepted, and are different. -/
structure TrafficInv (tok : JsonTokener) (s : TrafficRun) : Prop where
  run : AnyInv tok s.run
  lt : ∀ p fd k, s.place p = some (fd, k) → k < s.run.next
  unique : ∀ p q fd fd' k, s.place p = some (fd, k) → s.place q = some (fd', k) → p = q

theorem trafficInv_trafficRunStart (globalState : ℕ → PeerState) :
    TrafficInv tok (trafficRunStart globalState) where
  run := anyInv_serverRunStart globalState
  lt p fd k h := by cases h
  unique p q fd fd' k h := by cases h

/-- Only an accept changes the number of connections. -/
theorem next_serverRunStep (hinv : AnyInv tok r) (e : ServerEvent) :
    (serverRunStep tok r e).next = r.next ∨
      (∃ fd, e = .accept (.accepted fd true)) ∧ (serverRunStep tok r e).next = r.next + 1 := by
  cases hfd : e.fd? with
  | some fd =>
    refine .inl ?_
    by_cases hoccurs : occurs r.server e = true
    · rw [serverRunStep_peer hoccurs hfd]
    · rw [serverRunStep_of_not_occurs hoccurs]
  | none =>
    rcases serverRunStep_other hinv.server hfd with ⟨fd, rfl, -, heq⟩ | ⟨server, heq, -⟩
    · exact .inr ⟨⟨fd, rfl⟩, by rw [heq]⟩
    · exact .inl (by rw [heq])

theorem TrafficInv.step (hinv : TrafficInv tok s) (t : Traffic) :
    TrafficInv tok (trafficStep tok s t) := by
  rw [trafficStep]
  cases hevent : s.event? t with
  | none => exact hinv
  | some e =>
    have hnext := next_serverRunStep hinv.run e
    have hle : s.run.next ≤ (serverRunStep tok s.run e).next := by
      rcases hnext with h | ⟨-, h⟩ <;> omega
    have hkept : TrafficInv tok { run := serverRunStep tok s.run e, place := s.place } :=
      ⟨hinv.run.step e, fun p fd k h => (hinv.lt p fd k h).trans_le hle, hinv.unique⟩
    cases t with
    | connect p fd room =>
      simp only [TrafficRun.placed]
      split_ifs with hlt
      · -- the new connection has a number of its own
        refine ⟨hinv.run.step e, fun q fd' k h => ?_, fun q q' fd' fd'' k h h' => ?_⟩
        · simp only [Function.update_apply] at h
          split_ifs at h
          · obtain ⟨-, rfl⟩ : fd = fd' ∧ s.run.next = k := by simpa using h
            exact hlt
          · exact (hinv.lt q fd' k h).trans hlt
        · simp only [Function.update_apply] at h h'
          split_ifs at h h' with hq hq' hq'
          · rw [hq, hq']
          · obtain ⟨-, rfl⟩ : fd = fd' ∧ s.run.next = k := by simpa using h
            exact absurd (hinv.lt q' fd'' _ h') (lt_irrefl _)
          · obtain ⟨-, rfl⟩ : fd = fd'' ∧ s.run.next = k := by simpa using h'
            exact absurd (hinv.lt q fd' _ h) (lt_irrefl _)
          · exact hinv.unique q q' fd' fd'' k h h'
      · exact hkept
    | _ => exact hkept

/-! ### Entries -/

theorem descriptor_eq_some_iff :
    s.descriptor p = some fd ↔ ∃ k, s.place p = some (fd, k) ∧ s.run.owner fd = k ∧
      (s.run.server.interest fd).isSome = true := by
  rw [TrafficRun.descriptor]
  rcases s.place p with _ | ⟨fd', k⟩
  · simp
  · simp only [Option.bind_some, Option.some.injEq, Prod.mk.injEq]
    constructor
    · intro h
      split_ifs at h with hown
      obtain rfl := Option.some.inj h
      exact ⟨k, ⟨rfl, rfl⟩, hown⟩
    · rintro ⟨_, ⟨rfl, rfl⟩, hown⟩
      exact if_pos hown

theorem entry_eq_some_iff :
    s.entry p = some (peer, status) ↔ ∃ fd, s.descriptor p = some fd ∧
      s.run.server.interest fd = some status ∧ s.run.server.globalState fd = peer := by
  rw [TrafficRun.entry]
  rcases s.descriptor p with _ | fd
  · simp
  · rcases hinterest : s.run.server.interest fd with _ | status' <;>
      simp [hinterest, and_comm]

theorem log_of_place (h : s.place p = some (fd, k)) : s.log p = s.run.log k := by
  rw [TrafficRun.log, h]
  rfl

theorem log_of_place_none (h : s.place p = none) : s.log p = .empty := by
  rw [TrafficRun.log, h]
  rfl

/-! ### What an event does to its peer and to the others -/

/-- The peer is registered, and ready for the event. -/
def TrafficRun.Ready (s : TrafficRun) (p : ℕ) (event : PeerTraffic) : Prop :=
  ∃ peer status, s.entry p = some (peer, status) ∧ event.readyFor status = true

/-- An event for a peer that is not registered, or not ready for it, changes nothing. -/
theorem trafficStep_peer_idle {event : PeerTraffic} (hrunning : s.Running)
    (h : ¬ s.Ready p event) : trafficStep tok s (.peer p event) = s := by
  rw [trafficStep, TrafficRun.event?]
  rcases hd : s.descriptor p with _ | fd
  · rfl
  · obtain ⟨k, -, -, hregistered⟩ := descriptor_eq_some_iff.mp hd
    obtain ⟨status, hstatus⟩ := Option.isSome_iff_exists.mp hregistered
    have hnot : ¬ occurs s.run.server (event.on fd) = true := by
      rw [occurs_on hrunning hstatus]
      exact fun hready => h ⟨_, status, entry_eq_some_iff.mpr ⟨fd, hd, hstatus, rfl⟩, hready⟩
    simp only [Option.map_some, serverRunStep_of_not_occurs hnot]
    rfl

/-- The log of the connection on a descriptor, with one more event in it. -/
def ServerRun.recorded (r : ServerRun) (tok : JsonTokener) (fd : ℕ) (event : PeerTraffic) :
    ℕ → PeerLog :=
  Function.update r.log (r.owner fd)
    ((r.log (r.owner fd)).record tok (r.server.globalState fd) (event.on 0))

/-- The descriptors of two peers are different. -/
theorem TrafficInv.descriptor_ne (hinv : TrafficInv tok s) (hd : s.descriptor p = some fd)
    (hne : q ≠ p) : s.descriptor q ≠ some fd := by
  intro hd'
  obtain ⟨k, hplace, howner, -⟩ := descriptor_eq_some_iff.mp hd
  obtain ⟨k', hplace', howner', -⟩ := descriptor_eq_some_iff.mp hd'
  obtain rfl : k = k' := howner.symm.trans howner'
  exact hne (hinv.unique q p fd fd k hplace' hplace)

/-! #### The state after an event of a peer -/

/-- A state in which an event of a peer was served. -/
structure Recorded (tok : JsonTokener) (s s' : TrafficRun) (fd : ℕ) (event : PeerTraffic) :
    Prop where
  owner : s'.run.owner = s.run.owner
  log : s'.run.log = s.run.recorded tok fd event
  place : s'.place = s.place

section Recorded

variable {event : PeerTraffic} {entry : PeerState × Option FdStatus}

/-- **An event that a peer is ready for**: it is recorded, and the entry of the peer becomes what
`peerEntry` says, or the thread comes to an end. -/
theorem served_trafficStep (hinv : TrafficInv tok s) (hrunning : s.Running)
    (hd : s.descriptor p = some fd) (hstatus : s.run.server.interest fd = some status)
    (hready : event.readyFor status = true) :
    Recorded tok s (trafficStep tok s (.peer p event)) fd event ∧
      (trafficStep tok s (.peer p event)).run.server =
        (peerEntry tok (s.run.server.globalState fd) (some status) (event.on 0)).elim
          { s.run.server with loop := .undefined }
          fun entry => s.run.server.put fd entry.1 entry.2 := by
  have hoccurs : occurs s.run.server (event.on fd) = true := by
    rw [occurs_on hrunning hstatus, hready]
  have hserver := (hinv.run.server hrunning).handle_peer hoccurs (fd?_on fd event)
  rw [hstatus, peerEntry_on] at hserver
  rw [trafficStep, TrafficRun.event?, hd]
  simp only [Option.map_some, serverRunStep_peer hoccurs (fd?_on fd event)]
  refine ⟨⟨rfl, by rw [record_on, ServerRun.recorded], rfl⟩, hserver.trans ?_⟩
  cases peerEntry tok (s.run.server.globalState fd) (some status) (event.on 0) <;> rfl

/-- The event is recorded for its peer. -/
theorem Recorded.log_self (h : Recorded tok s s' fd event) (hd : s.descriptor p = some fd) :
    s'.log p = (s.log p).record tok (s.run.server.globalState fd) (event.on 0) := by
  obtain ⟨k, hplace, rfl, -⟩ := descriptor_eq_some_iff.mp hd
  have hplace' : s'.place p = some (fd, s.run.owner fd) := by rw [h.place, hplace]
  rw [log_of_place hplace, log_of_place hplace', h.log, ServerRun.recorded, Function.update_self]

/-- The event is not recorded for the others. -/
theorem Recorded.log_of_ne (h : Recorded tok s s' fd event) (hinv : TrafficInv tok s)
    (hd : s.descriptor p = some fd) (hne : q ≠ p) : s'.log q = s.log q := by
  obtain ⟨k, hplace, rfl, -⟩ := descriptor_eq_some_iff.mp hd
  rcases hq : s.place q with _ | ⟨fd', k'⟩
  · rw [log_of_place_none hq, log_of_place_none (by rw [h.place, hq])]
  · have hk : k' ≠ s.run.owner fd := fun heq =>
      hne (hinv.unique q p fd' fd _ hq (by rw [hplace, heq]))
    have hq' : s'.place q = some (fd', k') := by rw [h.place, hq]
    rw [log_of_place hq, log_of_place hq', h.log, ServerRun.recorded, Function.update_of_ne hk]

/-- The entry of the peer is the new one. -/
theorem Recorded.entry_self (h : Recorded tok s s' fd event) (hd : s.descriptor p = some fd)
    (hserver : s'.run.server = s.run.server.put fd entry.1 entry.2) :
    s'.entry p = entry.2.map fun status => (entry.1, status) := by
  obtain ⟨k, hplace, rfl, -⟩ := descriptor_eq_some_iff.mp hd
  have hplace' : s'.place p = some (fd, s.run.owner fd) := by rw [h.place, hplace]
  simp only [TrafficRun.entry, TrafficRun.descriptor, hplace', Option.bind_some, h.owner, true_and,
    hserver, Server.put, Function.update_self]
  rcases entry.2 with _ | status
  · rfl
  · simp

/-- The entries of the others are as before. -/
theorem Recorded.entry_of_ne (h : Recorded tok s s' fd event) (hinv : TrafficInv tok s)
    (hd : s.descriptor p = some fd) (hserver : s'.run.server = s.run.server.put fd entry.1 entry.2)
    (hne : q ≠ p) : s'.entry q = s.entry q := by
  obtain ⟨k, hplace, rfl, hregistered⟩ := descriptor_eq_some_iff.mp hd
  have hq : s'.place q = s.place q := by rw [h.place]
  rcases hplace' : s.place q with _ | ⟨fd', k'⟩
  · simp only [TrafficRun.entry, TrafficRun.descriptor, hq, hplace', Option.bind_none]
  · by_cases heq : fd' = fd
    · -- the descriptor was used again
      subst heq
      have hother : s.run.owner fd' ≠ k' := fun howner =>
        hinv.descriptor_ne hd hne (descriptor_eq_some_iff.mpr ⟨k', hplace', howner, hregistered⟩)
      simp only [TrafficRun.entry, TrafficRun.descriptor, hq, hplace', Option.bind_some, h.owner,
        hother, false_and, if_false, Option.bind_none]
    · simp only [TrafficRun.entry, TrafficRun.descriptor, hq, hplace', Option.bind_some, h.owner,
        hserver, Server.put, Function.update_of_ne heq]
      split_ifs
      · simp only [Option.bind_some, Function.update_of_ne heq]
      · rfl

end Recorded

/-! #### The state after an accept -/

/-- A state in which one more peer is accepted. -/
structure Connected (s s' : TrafficRun) (p fd : ℕ) : Prop where
  server : s'.run.server = s.run.server.put fd onPeerConnected.1 (some fdStatusR)
  owner : s'.run.owner = Function.update s.run.owner fd s.run.next
  log : s'.run.log = s.run.log
  place : s'.place = Function.update s.place p (some (fd, s.run.next))

/-- A peer that is accepted. -/
theorem connected_trafficStep (hinv : TrafficInv tok s) (hrunning : s.Running)
    (hlistening : s.run.server.listening = true) (hfree : s.run.server.isOpen fd = false)
    (hfd : fd < maxFds) (hplace : s.place p = none) :
    Connected s (trafficStep tok s (.connect p fd true)) p fd := by
  have hoccurs : occurs s.run.server (.accept (.accepted fd true)) = true := by
    simp only [occurs, Bool.and_eq_true, Bool.not_eq_true', decide_eq_true_eq]
    exact ⟨⟨hrunning, hlistening⟩, hfree⟩
  have hstep : trafficStep tok s (.connect p fd true) =
      { run :=
          { server := s.run.server.put fd onPeerConnected.1 (some fdStatusR)
            owner := Function.update s.run.owner fd s.run.next
            next := s.run.next + 1
            log := s.run.log }
        place := Function.update s.place p (some (fd, s.run.next)) } := by
    rw [trafficStep, TrafficRun.event?, if_pos hplace]
    simp only [serverRunStep_accept (hinv.run.server hrunning) hoccurs hfd, TrafficRun.placed,
      Nat.lt_succ_self, if_true]
  rw [hstep]
  exact ⟨rfl, rfl, rfl, rfl⟩

/-- The log of the peer is empty. -/
theorem Connected.log_self (h : Connected s s' p fd) (hinv : TrafficInv tok s) :
    s'.log p = .empty := by
  have hplace : s'.place p = some (fd, s.run.next) := by rw [h.place, Function.update_self]
  rw [log_of_place hplace, h.log, hinv.run.fresh _ le_rfl]

/-- The logs of the others are as before. -/
theorem Connected.log_of_ne (h : Connected s s' p fd) (hne : q ≠ p) : s'.log q = s.log q := by
  rw [TrafficRun.log, TrafficRun.log, h.place, h.log, Function.update_of_ne hne]

/-- The entry of the peer is prepared by `on_peer_connected`. -/
theorem Connected.entry_self (h : Connected s s' p fd) :
    s'.entry p = some (onPeerConnected.1, fdStatusR) := by
  refine entry_eq_some_iff.mpr ⟨fd, descriptor_eq_some_iff.mpr ⟨s.run.next, ?_, ?_, ?_⟩, ?_, ?_⟩
  · rw [h.place, Function.update_self]
  · rw [h.owner, Function.update_self]
  · simp only [h.server, Server.put, Function.update_self, Option.isSome_some]
  · simp only [h.server, Server.put, Function.update_self]
  · simp only [h.server, Server.put, Function.update_self]

/-- The entries of the others are as before. -/
theorem Connected.entry_of_ne (h : Connected s s' p fd) (hinv : TrafficInv tok s)
    (hrunning : s.Running) (hfree : s.run.server.isOpen fd = false) (hne : q ≠ p) :
    s'.entry q = s.entry q := by
  have hunregistered : (s.run.server.interest fd).isSome = false := by
    rw [(hinv.run.server hrunning).registered fd, hfree]
  have hplace : s'.place q = s.place q := by rw [h.place, Function.update_of_ne hne]
  rcases hq : s.place q with _ | ⟨fd', k⟩
  · simp only [TrafficRun.entry, TrafficRun.descriptor, hplace, hq, Option.bind_none]
  · by_cases heq : fd' = fd
    · subst heq
      have hk : s.run.next ≠ k := (hinv.lt q fd' k hq).ne'
      simp [TrafficRun.entry, TrafficRun.descriptor, hplace, hq, h.owner, hunregistered, hk]
    · simp only [TrafficRun.entry, TrafficRun.descriptor, hplace, hq, Option.bind_some, h.owner,
        h.server, Server.put, Function.update_of_ne heq]
      split_ifs
      · simp only [Option.bind_some, Function.update_of_ne heq]
      · rfl

/-! #### Events that change no entry -/

/-- A state that differs in the listening socket, the flag and the loop at most. -/
structure KeepsPeers (s s' : TrafficRun) : Prop where
  owner : s'.run.owner = s.run.owner
  log : s'.run.log = s.run.log
  place : s'.place = s.place
  interest : s'.run.server.interest = s.run.server.interest
  globalState : s'.run.server.globalState = s.run.server.globalState

theorem KeepsPeers.log_eq (h : KeepsPeers s s') (p : ℕ) : s'.log p = s.log p := by
  rw [TrafficRun.log, TrafficRun.log, h.place, h.log]

/-- An event of the server that is not one of traffic, or does not occur. -/
theorem trafficStep_of_not_occurs (h : ∀ e, s.event? t = some e → ¬ occurs s.run.server e = true) :
    trafficStep tok s t = s := by
  rw [trafficStep]
  rcases hevent : s.event? t with _ | e
  · rfl
  · have hplaced : s.placed s.run t = s.place := by
      cases t with
      | connect p fd room => exact if_neg (lt_irrefl _)
      | _ => rfl
    simp only [serverRunStep_of_not_occurs (h e hevent), hplaced]

/-- A peer that was accepted before, or cannot be, changes nothing by connecting. -/
theorem trafficStep_connect_idle {room : Bool}
    (h : ¬ (s.place p = none ∧ occurs s.run.server (.accept (.accepted fd room)) = true)) :
    trafficStep tok s (.connect p fd room) = s := by
  refine trafficStep_of_not_occurs fun e hevent hoccurs => ?_
  rw [TrafficRun.event?] at hevent
  split_ifs at hevent with hplace
  obtain rfl := Option.some.inj hevent
  exact h ⟨hplace, hoccurs⟩

variable (tok) in
/-- An event that no descriptor is concerned with changes the server alone. -/
theorem serverRunStep_of_fd?_none (hfd : e.fd? = none)
    (haccept : ∀ fd room, e ≠ .accept (.accepted fd room)) :
    serverRunStep tok r e = { r with server := serverStep tok r.server e } := by
  unfold serverRunStep serverStep
  split_ifs
  · rw [hfd]
    cases e with
    | accept outcome =>
      cases outcome with
      | accepted fd room => exact absurd rfl (haccept fd room)
      | _ => rfl
    | _ => rfl
  · rfl

/-- An event of the thread. -/
theorem trafficStep_thread (event : ThreadEvent) :
    trafficStep tok s (.thread event) =
      { s with
        run := { s.run with server := serverStep tok s.run.server event.serverEvent } } := by
  have hfd : event.serverEvent.fd? = none := by cases event <;> rfl
  have haccept : ∀ fd room, event.serverEvent ≠ .accept (.accepted fd room) := fun fd room h => by
    cases event <;> cases h
  rw [trafficStep, TrafficRun.event?]
  simp only [serverRunStep_of_fd?_none tok hfd haccept, TrafficRun.placed]

/-- An `accept` that fails for a peer. -/
theorem trafficStep_connectFails (hplace : s.place p = none) :
    trafficStep tok s (.connectFails p) =
      { s with run := { s.run with server := serverStep tok s.run.server (.accept .failed) } } := by
  have haccept : ∀ fd room, ServerEvent.accept .failed ≠ .accept (.accepted fd room) :=
    fun fd room h => by cases h
  rw [trafficStep, TrafficRun.event?, if_pos hplace]
  simp only [serverRunStep_of_fd?_none tok (e := .accept .failed) rfl haccept, TrafficRun.placed]

variable (tok) in
/-- Once the loop has ended, it stays so, and nothing but the flag changes. -/
theorem trafficStep_of_not_running (h : ¬ s.Running) (t : Traffic) :
    KeepsPeers s (trafficStep tok s t) ∧ ¬ (trafficStep tok s t).Running := by
  rw [trafficStep]
  rcases s.event? t with _ | e
  · exact ⟨⟨rfl, rfl, rfl, rfl, rfl⟩, h⟩
  · have hplaced : s.placed { s.run with server := serverStep tok s.run.server e } t = s.place := by
      cases t with
      | connect p fd room => exact if_neg (lt_irrefl _)
      | _ => rfl
    simp only [serverRunStep_of_not_running h, hplaced]
    rcases serverStep_of_not_running tok h e with heq | heq
    · rw [heq]
      exact ⟨⟨rfl, rfl, rfl, rfl, rfl⟩, h⟩
    · rw [heq]
      exact ⟨⟨rfl, rfl, rfl, rfl, rfl⟩, h⟩

variable (tok) in
/-- Only main sets `monitoring->stop`. -/
theorem stop_trafficStep (h : t ≠ .thread .setStop) :
    (trafficStep tok s t).run.server.stop = s.run.server.stop := by
  rw [trafficStep]
  rcases hevent : s.event? t with _ | e
  · rfl
  · refine stop_serverRunStep fun he => h ?_
    subst he
    cases t with
    | connect p fd room =>
      rw [TrafficRun.event?] at hevent
      split_ifs at hevent
      cases hevent
    | connectFails p =>
      rw [TrafficRun.event?] at hevent
      split_ifs at hevent
      cases hevent
    | peer p event =>
      rw [TrafficRun.event?] at hevent
      obtain ⟨fd, -, hon⟩ := Option.map_eq_some_iff.mp hevent
      cases event <;> cases hon
    | thread event => cases event <;> first | rfl | cases hevent

/-! ### Every run is a run of traffic -/

/-- The peers are numbered by their connections. -/
structure Numbered (s : TrafficRun) : Prop where
  registered : s.Running → ∀ fd, (s.run.server.interest fd).isSome = true →
    s.place (s.run.owner fd) = some (fd, s.run.owner fd)
  number : ∀ p fd k, s.place p = some (fd, k) → k = p
  isSome_iff : ∀ p, (s.place p).isSome = true ↔ p < s.run.next

theorem numbered_trafficRunStart (globalState : ℕ → PeerState) :
    Numbered (trafficRunStart globalState) where
  registered _ fd h := by cases h
  number p fd k h := by cases h
  isSome_iff p := iff_of_false Bool.false_ne_true (Nat.not_lt_zero p)

theorem Numbered.place_next (h : Numbered s) : s.place s.run.next = none :=
  Option.not_isSome_iff_eq_none.mp (mt (h.isSome_iff _).mp (lt_irrefl _))

/-- The log of a peer is that of its connection. -/
theorem Numbered.log_eq (h : Numbered s) (hinv : TrafficInv tok s) (p : ℕ) :
    s.log p = s.run.log p := by
  rcases hplace : s.place p with _ | ⟨fd, k⟩
  · have hle : s.run.next ≤ p := by
      rw [← not_lt, ← h.isSome_iff, hplace]
      exact Bool.false_ne_true
    rw [log_of_place_none hplace, hinv.run.fresh p hle]
  · rw [log_of_place hplace, h.number p fd k hplace]

/-- A server that changes in what concerns no peer, or ends its loop, keeps the numbers. -/
theorem Numbered.of_server (h : Numbered s) {run : ServerRun} (howner : run.owner = s.run.owner)
    (hnext : run.next = s.run.next)
    (hsame : run.server.loop = .running → s.Running ∧
      ∀ fd, (run.server.interest fd).isSome = true → (s.run.server.interest fd).isSome = true) :
    Numbered { run, place := s.place } where
  registered hrunning fd hregistered := by
    obtain ⟨hrunning', hsome⟩ := hsame hrunning
    simp only [howner]
    exact h.registered hrunning' fd (hsome fd hregistered)
  number := h.number
  isSome_iff p := by rw [hnext]; exact h.isSome_iff p

/-- The peer that is accepted gets the next number. -/
theorem Numbered.connect (h : Numbered s) (hinv : TrafficInv tok s) (hrunning : s.Running)
    {s' : TrafficRun} (hconnected : Connected s s' s.run.next fd)
    (hnext : s'.run.next = s.run.next + 1) : Numbered s' where
  registered _ fd' hregistered := by
    rw [hconnected.owner, hconnected.place]
    by_cases heq : fd' = fd
    · subst heq
      simp only [Function.update_self]
    · rw [hconnected.server] at hregistered
      simp only [Server.put, Function.update_of_ne heq] at hregistered
      have hne : s.run.owner fd' ≠ s.run.next :=
        ((hinv.run.owner hrunning).lt fd' hregistered).ne
      rw [Function.update_of_ne heq, Function.update_of_ne hne]
      exact h.registered hrunning fd' hregistered
  number p fd' k hplace := by
    rw [hconnected.place, Function.update_apply] at hplace
    split_ifs at hplace with heq
    · rw [heq]
      exact (congrArg Prod.snd (Option.some.inj hplace)).symm
    · exact h.number p fd' k hplace
  isSome_iff p := by
    rw [hconnected.place, Function.update_apply, hnext]
    split_ifs with heq
    · simp [heq]
    · rw [h.isSome_iff]
      omega

/-- A peer that connects, in whatever way it ends. -/
theorem Numbered.accept (h : Numbered s) (hinv : TrafficInv tok s) {room : Bool}
    (hoccurs : occurs s.run.server (.accept (.accepted fd room)) = true) :
    (trafficStep tok s (.connect s.run.next fd room)).run
        = serverRunStep tok s.run (.accept (.accepted fd room)) ∧
      Numbered (trafficStep tok s (.connect s.run.next fd room)) := by
  have hevent : s.event? (.connect s.run.next fd room) = some (.accept (.accepted fd room)) :=
    if_pos h.place_next
  have hrun : (trafficStep tok s (.connect s.run.next fd room)).run
      = serverRunStep tok s.run (.accept (.accepted fd room)) := by
    rw [trafficStep, hevent]
  refine ⟨hrun, ?_⟩
  have hrunning : s.Running := by
    simp only [occurs, Bool.and_eq_true, decide_eq_true_eq] at hoccurs
    exact hoccurs.1.1
  by_cases hends : maxFds ≤ fd ∨ room = false
  · -- the loop is left
    have hleft := serverRunStep_accept_ends tok hoccurs hends
    rcases serverRunStep_other hinv.run.server
        (rfl : (ServerEvent.accept (.accepted fd room)).fd? = none) with
      ⟨fd', -, hrunning', heq⟩ | ⟨server, heq, -⟩
    · rw [heq] at hleft
      simp only [Server.put, hrunning'] at hleft
      cases hleft
    · rw [heq] at hleft
      have hstep : trafficStep tok s (.connect s.run.next fd room)
          = { run := { s.run with server }, place := s.place } := by
        rw [trafficStep, hevent]
        simp only [heq, TrafficRun.placed, lt_irrefl, if_false]
      rw [hstep]
      refine h.of_server rfl rfl fun hrun => ?_
      rw [hleft] at hrun
      cases hrun
  · rw [not_or, not_le, Bool.not_eq_false] at hends
    obtain ⟨hfd, rfl⟩ := hends
    have hfree : s.run.server.isOpen fd = false ∧ s.run.server.listening = true := by
      simp only [occurs, Bool.and_eq_true, Bool.not_eq_true', decide_eq_true_eq] at hoccurs
      exact ⟨hoccurs.2, hoccurs.1.2⟩
    refine h.connect hinv hrunning
      (connected_trafficStep hinv hrunning hfree.2 hfree.1 hfd h.place_next) ?_
    rw [hrun, serverRunStep_accept (hinv.run.server hrunning) hoccurs hfd]

/-- An event of a registered descriptor is one of its peer. -/
theorem Numbered.ofPeer (h : Numbered s) (hinv : TrafficInv tok s) (event : PeerTraffic)
    (hoccurs : occurs s.run.server (event.on fd) = true) :
    (trafficStep tok s (.peer (s.run.owner fd) event)).run
        = serverRunStep tok s.run (event.on fd) ∧
      Numbered (trafficStep tok s (.peer (s.run.owner fd) event)) := by
  have hrunning : s.Running := running_of_occurs hoccurs (fd?_on fd event)
  have hregistered := isSome_interest_of_occurs hoccurs (fd?_on fd event)
  have hd : s.descriptor (s.run.owner fd) = some fd :=
    descriptor_eq_some_iff.mpr ⟨_, h.registered hrunning fd hregistered, rfl, hregistered⟩
  have hstep : trafficStep tok s (.peer (s.run.owner fd) event)
      = { run := serverRunStep tok s.run (event.on fd), place := s.place } := by
    rw [trafficStep, TrafficRun.event?, hd]
    rfl
  rw [hstep]
  refine ⟨rfl, ?_⟩
  have hpeer := (hinv.run.server hrunning).handle_peer hoccurs (fd?_on fd event)
  rw [serverRunStep_peer hoccurs (fd?_on fd event), hpeer]
  refine h.of_server rfl rfl fun hrun => ⟨hrunning, fun fd' hsome => ?_⟩
  rcases hentry : peerEntry tok (s.run.server.globalState fd) (s.run.server.interest fd)
      (event.on fd) with _ | entry
  · simp only [hentry] at hrun
    cases hrun
  · simp only [hentry] at hsome
    by_cases heq : fd' = fd
    · rw [heq]
      exact hregistered
    · simpa [Server.put, Function.update_of_ne heq] using hsome

/-- An event that concerns no peer keeps the numbers. -/
theorem Numbered.other (h : Numbered s) (hinv : TrafficInv tok s) (hfd : e.fd? = none)
    (haccept : ∀ fd room, e ≠ .accept (.accepted fd room)) :
    Numbered { s with run := { s.run with server := serverStep tok s.run.server e } } := by
  have hstep := serverRunStep_of_fd?_none tok (r := s.run) hfd haccept
  rcases serverRunStep_other hinv.run.server hfd with ⟨fd, heq, -⟩ | ⟨server, heq, hsame⟩
  · exact absurd heq (haccept fd true)
  · have hserver : serverStep tok s.run.server e = server :=
      congrArg ServerRun.server (hstep.symm.trans heq)
    rw [hserver]
    refine h.of_server rfl rfl fun hrun => ?_
    obtain ⟨hrunning, hinterest, -⟩ := hsame hrun
    exact ⟨hrunning, fun fd hsome => by rwa [← hinterest]⟩

theorem serverStep_wouldBlock (server : Server) :
    serverStep tok server (.accept .wouldBlock) = server := by
  rw [serverStep]
  split_ifs <;> rfl

/-- An event of the thread, as one of traffic. -/
theorem Numbered.ofThread (h : Numbered s) (hinv : TrafficInv tok s) (event : ThreadEvent) :
    (trafficStep tok s (.thread event)).run = serverRunStep tok s.run event.serverEvent ∧
      Numbered (trafficStep tok s (.thread event)) := by
  have hfd : event.serverEvent.fd? = none := by cases event <;> rfl
  have haccept : ∀ fd room, event.serverEvent ≠ .accept (.accepted fd room) := fun fd room h => by
    cases event <;> cases h
  refine ⟨rfl, ?_⟩
  rw [trafficStep_thread]
  exact h.other hinv hfd haccept

/-- **Every event of the server is an event of traffic.** -/
theorem Numbered.exists_step (h : Numbered s) (hinv : TrafficInv tok s) (e : ServerEvent) :
    ∃ t, DescriptorFree s t ∧ (trafficStep tok s t).run = serverRunStep tok s.run e ∧
      Numbered (trafficStep tok s t) := by
  by_cases hoccurs : occurs s.run.server e = true
  · cases e with
    | setStop => exact ⟨.thread .setStop, trivial, h.ofThread hinv .setStop⟩
    | checkStop => exact ⟨.thread .checkStop, trivial, h.ofThread hinv .checkStop⟩
    | listeningError => exact ⟨.thread .listeningError, trivial, h.ofThread hinv .listeningError⟩
    | accept outcome =>
      cases outcome with
      | accepted fd room =>
        refine ⟨.connect s.run.next fd room, fun _ => ?_, h.accept hinv hoccurs⟩
        simp only [occurs, Bool.and_eq_true, Bool.not_eq_true'] at hoccurs
        exact hoccurs.2
      | wouldBlock => exact ⟨.thread .wouldBlock, trivial, h.ofThread hinv .wouldBlock⟩
      | failed =>
        have haccept : ∀ fd room, ServerEvent.accept .failed ≠ .accept (.accepted fd room) :=
          fun fd room h => by cases h
        refine ⟨.connectFails s.run.next, trivial, ?_⟩
        rw [trafficStep_connectFails h.place_next,
          serverRunStep_of_fd?_none tok (e := .accept .failed) rfl haccept]
        exact ⟨rfl, h.other hinv rfl haccept⟩
    | error fd => exact ⟨.peer (s.run.owner fd) .error, trivial, h.ofPeer hinv .error hoccurs⟩
    | hangup fd => exact ⟨.peer (s.run.owner fd) .hangup, trivial, h.ofPeer hinv .hangup hoccurs⟩
    | readable fd outcome =>
      exact ⟨.peer (s.run.owner fd) (.readable outcome), trivial,
        h.ofPeer hinv (.readable outcome) hoccurs⟩
    | writable fd resp outcome =>
      exact ⟨.peer (s.run.owner fd) (.writable resp outcome), trivial,
        h.ofPeer hinv (.writable resp outcome) hoccurs⟩
  · -- an event that does not occur is none
    obtain ⟨hrun, hnumbered⟩ := h.ofThread hinv .wouldBlock
    refine ⟨.thread .wouldBlock, trivial, ?_, hnumbered⟩
    rw [trafficStep_thread, ThreadEvent.serverEvent, serverStep_wouldBlock,
      serverRunStep_of_not_occurs hoccurs]

/-- **Every run of the server is the run of some traffic**, whose peers are the connections in the
order they are accepted. -/
theorem exists_traffic (tok : JsonTokener) (globalState : ℕ → PeerState) (es : List ServerEvent) :
    ∃ ts, EachStep (trafficStep tok) DescriptorFree (trafficRunStart globalState) ts ∧
      (after (trafficStep tok) (trafficRunStart globalState) ts).run
        = after (serverRunStep tok) (serverRunStart globalState) es ∧
      ∀ k, (after (trafficStep tok) (trafficRunStart globalState) ts).log k
        = (after (serverRunStep tok) (serverRunStart globalState) es).log k := by
  have hrun : ∀ (es : List ServerEvent) (s : TrafficRun), TrafficInv tok s → Numbered s →
      ∃ ts, EachStep (trafficStep tok) DescriptorFree s ts ∧
        (after (trafficStep tok) s ts).run = after (serverRunStep tok) s.run es ∧
        ∀ k, (after (trafficStep tok) s ts).log k = (after (trafficStep tok) s ts).run.log k := by
    intro es
    induction es with
    | nil => exact fun s hinv h => ⟨[], eachStep_nil, rfl, h.log_eq hinv⟩
    | cons e es ih =>
      intro s hinv h
      obtain ⟨t, hfree, hstep, hnumbered⟩ := h.exists_step hinv e
      obtain ⟨ts, hfrees, hafter, hlog⟩ := ih (trafficStep tok s t) (hinv.step t) hnumbered
      refine ⟨t :: ts, eachStep_cons.mpr ⟨hfree, hfrees⟩, ?_, hlog⟩
      rw [after_cons, after_cons, hafter, hstep]
  obtain ⟨ts, hfree, hafter, hlog⟩ := hrun es (trafficRunStart globalState)
    (trafficInv_trafficRunStart globalState) (numbered_trafficRunStart globalState)
  refine ⟨ts, hfree, hafter, fun k => ?_⟩
  rw [hlog, hafter]
  rfl

end Oscillatord
