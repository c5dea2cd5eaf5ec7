import Oscillatord.Monitoring.Traffic

/-!
# Isolation of the peers

The peers share one table, indexed by descriptors that serve one client after the other. What the
server handles for a peer is nevertheless a function of the events it has served for it:
`requestsOf` runs the two handlers over these, from the state `on_peer_connected` prepares, and
needs no result of `send` (a peer whose response was not sent is not read again).

Which events are served does depend on the others. The loop is left when an `accept` fails, when a
descriptor is not below `MAXFDS` or finds no room in epoll, and when a chunk fills the receive
buffer of a peer (`EndsLoop`), and then no peer is served any more: a client that aborts its
connection before it is accepted silences all others (`peerIsolation_fails_connection_aborted`). As
long as no event of another peer ends the loop, a peer is served as if it were alone, on any
descriptor (`ServesAlone`), so two servers that are told the same of it handle the same requests for
it (`peerIsolation_of_othersServeOn`).
-/

namespace Oscillatord

open StepRun ObjectRep

variable {tok : JsonTokener} {r r' : ServerRun} {e : ServerEvent} {fd k : ℕ} {peer : PeerState}
  {status : FdStatus} {log : PeerLog} {object resp : List UInt8}

/-! ### A connection on its own -/

/-- One ready event of a connection that is served alone, on its state and on the requests handled.
Every response is sent. -/
def peerStep (tok : JsonTokener) (v : PeerState × List (List UInt8 × MonitoringRequest)) :
    ReadyEvent → PeerState × List (List UInt8 × MonitoringRequest)
  | .error => v
  | .hangup => v
  | .readable outcome =>
    (onPeerReadyRecv tok v.1 outcome).elim v fun result => (result.1, v.2)
  | .writable =>
    (onPeerReadySend tok v.1 (SendOutcome.sent ⟨1, Nat.one_pos⟩).ret).elim v fun result =>
      (result.peer, v.2 ++ result.handled.toList)

/-- A connection that is served alone, after its ready events. -/
def peerAfter (tok : JsonTokener) (events : List ReadyEvent) :
    PeerState × List (List UInt8 × MonitoringRequest) :=
  after (peerStep tok) (onPeerConnected.1, []) events

/-- The requests handled for a connection, from its ready events and the bytes received. -/
def requestsOf (tok : JsonTokener) (events : List ReadyEvent) :
    List (List UInt8 × MonitoringRequest) := (peerAfter tok events).2

/-- An entry of the table and its log, compared with the connection on its own: the handled requests
are the same, and so is the peer, except that the cursors differ once a response was not sent. -/
structure LikeAlone (tok : JsonTokener) (peer : PeerState) (status : FdStatus)
    (log : PeerLog) : Prop where
  handled : requestsOf tok log.events = log.handled
  peer : (peerAfter tok log.events).1 = peer ∨
    (status = fdStatusW ∧ peer.recvBuf = zeros sendbufSize ∧
      (peerAfter tok log.events).1.recvBuf = zeros sendbufSize)

theorem peerAfter_append (events : List ReadyEvent) (e : ReadyEvent) :
    peerAfter tok (events ++ [e]) = peerStep tok (peerAfter tok events) e := by
  rw [peerAfter, peerAfter, after_append, after_cons, after_nil]

theorem likeAlone_connected : LikeAlone tok onPeerConnected.1 fdStatusR .empty :=
  ⟨rfl, .inl rfl⟩

@[simp] theorem events_readable (outcome : RecvOutcome) :
    (log.record tok peer (.readable fd outcome)).events = log.events ++ [.readable outcome] := by
  simp only [PeerLog.record]

@[simp] theorem events_writable (outcome : SendOutcome) :
    (log.record tok peer (.writable fd resp outcome)).events = log.events ++ [.writable] := by
  simp only [PeerLog.record]

/-- What a log says was handled is what the connection on its own handles. -/
def HandledAlone (tok : JsonTokener) (log : PeerLog) : Prop :=
  requestsOf tok log.events = log.handled

/-- A peer that is read changes as it does on its own. -/
theorem LikeAlone.read_step {outcome : RecvOutcome} (h : LikeAlone tok peer fdStatusR log) :
    LocalStep tok (LikeAlone tok) (HandledAlone tok) peer fdStatusR log (.readable fd outcome) := by
  have hpeer : (peerAfter tok log.events).1 = peer :=
    h.peer.resolve_right fun hunsent => by cases hunsent.1
  have hafter : peerAfter tok (log.record tok peer (.readable fd outcome)).events
      = peerStep tok (peerAfter tok log.events) (.readable outcome) := by
    rw [events_readable, peerAfter_append]
  rw [peerStep, hpeer] at hafter
  cases hrecv : onPeerReadyRecv tok peer outcome with
  | none =>
    rw [hrecv, Option.elim_none] at hafter
    refine ⟨fun peer' status' hentry => ?_, ?_⟩
    · rw [peerEntry, hrecv] at hentry
      cases hentry
    · rw [HandledAlone, requestsOf, hafter]
      exact h.handled
  | some result =>
    rw [hrecv, Option.elim_some] at hafter
    have hhandled : HandledAlone tok (log.record tok peer (.readable fd outcome)) := by
      rw [HandledAlone, requestsOf, hafter]
      exact h.handled
    refine ⟨fun peer' status' hentry => ⟨hhandled, .inl ?_⟩, hhandled⟩
    rw [peerEntry, hrecv] at hentry
    obtain ⟨rfl, -⟩ : result.1 = peer' ∧ result.2.interest = some status' := by
      simpa using hentry
    rw [hafter]

/-- A peer that is written to changes as it does on its own, but for what follows a `send` that
fails. -/
theorem LikeAlone.write_step {outcome : SendOutcome} (h : LikeAlone tok peer fdStatusW log)
    (hcond : PeerCondition tok peer fdStatusW) :
    LocalStep tok (LikeAlone tok) (HandledAlone tok) peer fdStatusW log
      (.writable fd resp outcome) := by
  have hafter : peerAfter tok (log.record tok peer (.writable fd resp outcome)).events
      = peerStep tok (peerAfter tok log.events) .writable := by
    rw [events_writable, peerAfter_append]
  -- with a cleared buffer neither of the two handles anything
  have hcleared : peer.recvBuf = zeros sendbufSize →
      (peerAfter tok log.events).1.recvBuf = zeros sendbufSize →
      LocalStep tok (LikeAlone tok) (HandledAlone tok) peer fdStatusW log
        (.writable fd resp outcome) := fun hempty halone => by
    rw [peerStep, onPeerReadySend_empty halone, Option.elim_some] at hafter
    have hserved : (log.record tok peer (.writable fd resp outcome)).served = log.served :=
      (record_writable_empty hempty outcome).2.1
    have hhandled : HandledAlone tok (log.record tok peer (.writable fd resp outcome)) := by
      rw [HandledAlone, requestsOf, hafter, PeerLog.handled, hserved]
      exact (List.append_nil _).trans h.handled
    refine ⟨fun peer' status' hentry => ⟨hhandled, .inr ⟨?_, ?_, ?_⟩⟩, hhandled⟩
    all_goals
      rw [peerEntry, onPeerReadySend_empty hempty] at hentry
      obtain ⟨rfl, rfl⟩ : peer = peer' ∧ fdStatusW = status' := by simpa using hentry
    · rfl
    · exact hempty
    · rw [hafter]
      exact halone
  rcases h.peer with hpeer | ⟨-, hempty, halone⟩
  · generalize hw : fdStatusW = status at hcond
    cases hcond with
    | clean => cases hw
    | waiting _ => cases hw
    | unsent hempty => exact hcleared hempty (by rw [hpeer]; exact hempty)
    | holding object hobject =>
      rw [peerStep, hpeer, hobject.send, Option.elim_some,
        if_neg SendOutcome.noConfusion] at hafter
      have hserved : (log.record tok peer (.writable fd resp outcome)).served
          = log.served ++ [⟨tok.request object, resp, outcome⟩] :=
        (record_writable_holding hobject outcome).2.1
      have hhandled : HandledAlone tok (log.record tok peer (.writable fd resp outcome)) := by
        rw [HandledAlone, requestsOf, hafter, PeerLog.handled, hserved, List.map_append]
        exact congrArg (· ++ [tok.request object]) h.handled
      refine ⟨fun peer' status' hentry => ⟨hhandled, ?_⟩, hhandled⟩
      rw [peerEntry, hobject.send outcome] at hentry
      rw [hafter]
      cases outcome with
      | failed =>
        obtain ⟨rfl, rfl⟩ : { peer with recvBuf := zeros sendbufSize } = peer' ∧
          fdStatusW = status' := by simpa using hentry
        exact .inr ⟨rfl, rfl, rfl⟩
      | sent count =>
        obtain ⟨rfl, -⟩ : onPeerConnected.1 = peer' ∧ fdStatusR = status' := by
          simpa using hentry
        exact .inl rfl
  · exact hcleared hempty halone

theorem likeAlone_step (hinv : LocalInv tok (LikeAlone tok) (HandledAlone tok) r)
    (e : ServerEvent) :
    LocalInv tok (LikeAlone tok) (HandledAlone tok) (serverRunStep tok r e) := by
  refine hinv.step likeAlone_connected fun fd hfd hoccurs hrunning status hstatus => ?_
  have halone := hinv.entry hrunning fd status hstatus
  have hserver := hinv.server hrunning
  cases e with
  | error _ =>
    have hafter : peerAfter tok ((r.log (r.owner fd)).events ++ [.error])
        = peerAfter tok (r.log (r.owner fd)).events := peerAfter_append _ _
    refine ⟨fun peer' status' hentry => ?_, (congrArg Prod.snd hafter).trans halone.handled⟩
    cases hentry
  | hangup _ =>
    have hafter : peerAfter tok ((r.log (r.owner fd)).events ++ [.hangup])
        = peerAfter tok (r.log (r.owner fd)).events := peerAfter_append _ _
    have hhandled := (congrArg Prod.snd hafter).trans halone.handled
    refine ⟨fun peer' status' hentry => ⟨hhandled, ?_⟩, hhandled⟩
    obtain ⟨rfl, rfl⟩ : r.server.globalState fd = peer' ∧ status = status' := by
      simpa [peerEntry] using hentry
    simp only [PeerLog.record, hafter]
    exact halone.peer
  | readable fd' outcome =>
    obtain rfl : fd' = fd := Option.some.inj hfd
    simp only [occurs, Bool.and_eq_true, decide_eq_true_eq] at hoccurs
    obtain ⟨hinterest, -⟩ := hserver.peer_of_wantRead hoccurs.1.2
    obtain rfl : fdStatusR = status := Option.some.inj (hinterest.symm.trans hstatus)
    exact halone.read_step
  | writable fd' resp outcome =>
    obtain rfl : fd' = fd := Option.some.inj hfd
    simp only [occurs, Bool.and_eq_true] at hoccurs
    obtain ⟨hinterest, hcond⟩ := hserver.peer_of_wantWrite hoccurs.2
    obtain rfl : fdStatusW = status := Option.some.inj (hinterest.symm.trans hstatus)
    exact halone.write_step hcond
  | _ => cases hfd

theorem handledAlone_empty : HandledAlone tok .empty := rfl

/-! ### The server without the other peers -/

/-- What the thread is told of when there is no peer but `p`, which then has descriptor 0. -/
def Traffic.alone (p : ℕ) : Traffic → Option Traffic
  | .connect q _ _ => if q = p then some (.connect p 0 true) else none
  | .connectFails q => if q = p then some (.connectFails p) else none
  | .peer q event => if q = p then some (.peer p event) else none
  | .thread event => some (.thread event)

/-- The traffic of a peer: what it sends, in the order of its own events, and what main does. -/
def ownTraffic (p : ℕ) (ts : List Traffic) : List Traffic := ts.filterMap (Traffic.alone p)

/-- The events that may end the loop: those of the thread, those of the peer itself, and an
`accept` that fails for it. -/
def Traffic.mayEnd (p : ℕ) : Traffic → Bool
  | .connect _ _ _ => false
  | .connectFails q => decide (q = p)
  | .peer q _ => decide (q = p)
  | .thread _ => true

/-- No connection that is accepted and no event of another peer ends the loop. -/
def OthersServeOn (tok : JsonTokener) (p : ℕ) (s : TrafficRun) (t : Traffic) : Prop :=
  t.mayEnd p = false → ∀ e, s.event? t = some e → occurs s.run.server e = true →
    ¬ EndsLoop tok s.run.server e

variable {s s' : TrafficRun} {t : Traffic} {p q : ℕ}

/-- Two running servers, of which the second one has no peer but `p`. -/
structure RunningAlone (p : ℕ) (s s' : TrafficRun) : Prop where
  listening : s'.run.server.listening = s.run.server.listening
  place : s'.place p = none ↔ s.place p = none
  closed : s.place p = none → s'.run.server.isOpen 0 = false
  entry : s'.entry p = s.entry p

/-- A server, and one that has no peer but `p`. -/
structure ServesAlone (p : ℕ) (s s' : TrafficRun) : Prop where
  loop : s'.Running ↔ s.Running
  stop : s'.run.server.stop = s.run.server.stop
  log : s'.log p = s.log p
  running : s.Running → RunningAlone p s s'

theorem servesAlone_trafficRunStart (globalState globalState' : ℕ → PeerState) :
    ServesAlone p (trafficRunStart globalState) (trafficRunStart globalState') where
  loop := Iff.rfl
  stop := rfl
  log := rfl
  running _ := ⟨rfl, Iff.rfl, fun _ => rfl, rfl⟩

/-- Once both loops have ended, nothing but the flag and the log matters. -/
theorem ServesAlone.of_ended (hended : ¬ s.Running) (hended' : ¬ s'.Running)
    (hstop : s'.run.server.stop = s.run.server.stop) (hlog : s'.log p = s.log p) :
    ServesAlone p s s' :=
  ⟨iff_of_false hended' hended, hstop, hlog, fun h => absurd h hended⟩

/-- A loop that an event does not end goes on. -/
theorem running_trafficStep (hinv : TrafficInv tok s) (hrunning : s.Running)
    (hserve : ∀ e, s.event? t = some e → occurs s.run.server e = true →
      ¬ EndsLoop tok s.run.server e) : (trafficStep tok s t).Running := by
  rw [trafficStep]
  rcases hevent : s.event? t with _ | e
  · exact hrunning
  · simp only [TrafficRun.Running, server_serverRunStep, serverStep]
    split_ifs with hoccurs
    · rcases (hinv.run.server hrunning).handle hrunning hoccurs with ⟨hends, -⟩ | ⟨-, h, -⟩
      · exact absurd hends (hserve e hevent hoccurs)
      · exact h
    · exact hrunning

/-! #### Events of the others -/

/-- A step that keeps the peer and the listening socket changes nothing for the server without the
others. -/
theorem ServesAlone.other {s₁ : TrafficRun} (h : ServesAlone p s s') (hrunning : s.Running)
    (hrunning₁ : s₁.Running) (hstop : s₁.run.server.stop = s.run.server.stop)
    (hlistening : s₁.run.server.listening = s.run.server.listening)
    (hplace : s₁.place p = s.place p) (hlog : s₁.log p = s.log p)
    (hentry : s₁.entry p = s.entry p) : ServesAlone p s₁ s' := by
  obtain ⟨hlistening', hplace', hclosed, hentry'⟩ := h.running hrunning
  refine ⟨iff_of_true (h.loop.mpr hrunning) hrunning₁, h.stop.trans hstop.symm,
    h.log.trans hlog.symm, fun _ => ⟨hlistening'.trans hlistening.symm, ?_, ?_, ?_⟩⟩
  · rw [hplace, hplace']
  · rw [hplace]
    exact hclosed
  · rw [hentry, hentry']

/-- Another peer connects. -/
theorem ServesAlone.otherConnect {fd : ℕ} {room : Bool} (h : ServesAlone p s s')
    (hinv : TrafficInv tok s) (hrunning : s.Running) (hne : p ≠ q)
    (hserve : OthersServeOn tok p s (.connect q fd room)) :
    ServesAlone p (trafficStep tok s (.connect q fd room)) s' := by
  by_cases hoccurs : s.place q = none ∧ occurs s.run.server (.accept (.accepted fd room)) = true
  · obtain ⟨hplace, hoccurs⟩ := hoccurs
    have hends := hserve rfl _ (if_pos hplace) hoccurs
    simp only [EndsLoop, not_or, not_le, Bool.not_eq_false] at hends
    obtain ⟨hfd, rfl⟩ := hends
    simp only [occurs, Bool.and_eq_true, Bool.not_eq_true', decide_eq_true_eq] at hoccurs
    have hconnected := connected_trafficStep hinv hrunning hoccurs.1.2 hoccurs.2 hfd hplace
    have hnext : (trafficStep tok s (.connect q fd true)).Running := by
      rw [TrafficRun.Running, hconnected.server]
      exact hrunning
    refine h.other hrunning hnext ?_ ?_ ?_ (hconnected.log_of_ne hne)
      (hconnected.entry_of_ne hinv hrunning hoccurs.2 hne)
    · rw [hconnected.server, Server.put]
    · rw [hconnected.server, Server.put]
    · rw [hconnected.place, Function.update_of_ne hne]
  · rw [trafficStep_connect_idle hoccurs]
    exact h

/-- Another peer fails to connect: by the condition, this does not occur. -/
theorem ServesAlone.otherConnectFails (h : ServesAlone p s s') (hne : p ≠ q)
    (hserve : OthersServeOn tok p s (.connectFails q)) :
    ServesAlone p (trafficStep tok s (.connectFails q)) s' := by
  rw [trafficStep_of_not_occurs]
  · exact h
  · intro e hevent hoccurs
    have hends := hserve (decide_eq_false hne.symm) e hevent hoccurs
    rw [TrafficRun.event?] at hevent
    split_ifs at hevent
    obtain rfl := Option.some.inj hevent
    exact hends trivial

/-- An event of another peer. -/
theorem ServesAlone.otherPeer {event : PeerTraffic} (h : ServesAlone p s s')
    (hinv : TrafficInv tok s) (hrunning : s.Running) (hne : p ≠ q)
    (hserve : OthersServeOn tok p s (.peer q event)) :
    ServesAlone p (trafficStep tok s (.peer q event)) s' := by
  by_cases hready : s.Ready q event
  · obtain ⟨peer, status, hentry, hready⟩ := hready
    obtain ⟨fd, hd, hstatus, -⟩ := entry_eq_some_iff.mp hentry
    obtain ⟨hrecorded, hpeer⟩ := served_trafficStep hinv hrunning hd hstatus hready
    have hnext := running_trafficStep hinv hrunning (hserve (decide_eq_false hne.symm))
    rcases hnew : peerEntry tok (s.run.server.globalState fd) (some status) (event.on 0)
      with _ | entry
    · rw [hnew] at hpeer
      rw [TrafficRun.Running, hpeer] at hnext
      cases hnext
    · rw [hnew] at hpeer
      refine h.other hrunning hnext ?_ ?_ ?_ (hrecorded.log_of_ne hinv hd hne)
        (hrecorded.entry_of_ne hinv hd hpeer hne)
      · rw [hpeer]
        rfl
      · rw [hpeer]
        rfl
      · rw [hrecorded.place]
  · rw [trafficStep_peer_idle hrunning hready]
    exact h

/-! #### Events of the peer itself -/

/-- The peer connects, to both servers. -/
theorem ServesAlone.ownConnect {fd : ℕ} {room : Bool} (h : ServesAlone p s s')
    (hinv : TrafficInv tok s) (hinv' : TrafficInv tok s') (hrunning : s.Running)
    (hfree : DescriptorFree s (.connect p fd room))
    (hserve : OthersServeOn tok p s (.connect p fd room)) :
    ServesAlone p (trafficStep tok s (.connect p fd room))
      (trafficStep tok s' (.connect p 0 true)) := by
  have hrunning' := h.loop.mpr hrunning
  obtain ⟨hlistening, hplace, hclosed, hentry⟩ := h.running hrunning
  have hfree' : s.run.server.isOpen fd = false := hfree hrunning
  by_cases hconnects : s.place p = none ∧ s.run.server.listening = true
  · obtain ⟨hnone, hlistens⟩ := hconnects
    have hoccurs : occurs s.run.server (.accept (.accepted fd room)) = true := by
      simp [occurs, hrunning, hlistens, hfree']
    have hends := hserve rfl _ (if_pos hnone) hoccurs
    simp only [EndsLoop, not_or, not_le, Bool.not_eq_false] at hends
    obtain ⟨hfd, rfl⟩ := hends
    have hconnected := connected_trafficStep hinv hrunning hlistens hfree' hfd hnone
    have hconnected' := connected_trafficStep hinv' hrunning' (hlistening.trans hlistens)
      (hclosed hnone) (by decide : 0 < maxFds) (hplace.mpr hnone)
    refine ⟨?_, ?_, ?_, fun _ => ⟨?_, ?_, ?_, ?_⟩⟩
    · simp only [TrafficRun.Running, hconnected.server, hconnected'.server, Server.put]
      exact h.loop
    · simp only [hconnected.server, hconnected'.server, Server.put, h.stop]
    · rw [hconnected.log_self hinv, hconnected'.log_self hinv']
    · simp only [hconnected.server, hconnected'.server, Server.put, hlistening]
    · simp only [hconnected.place, hconnected'.place, Function.update_self, reduceCtorEq]
    · simp only [hconnected.place, Function.update_self, reduceCtorEq, false_imp_iff]
    · rw [hconnected.entry_self, hconnected'.entry_self]
  · have hidle : ¬ (s.place p = none ∧
        occurs s.run.server (.accept (.accepted fd room)) = true) := by
      rintro ⟨hnone, hoccurs⟩
      simp only [occurs, Bool.and_eq_true] at hoccurs
      exact hconnects ⟨hnone, hoccurs.1.2⟩
    have hidle' : ¬ (s'.place p = none ∧
        occurs s'.run.server (.accept (.accepted 0 true)) = true) := by
      rintro ⟨hnone, hoccurs⟩
      simp only [occurs, Bool.and_eq_true] at hoccurs
      exact hconnects ⟨hplace.mp hnone, hlistening.symm.trans hoccurs.1.2⟩
    rw [trafficStep_connect_idle hidle, trafficStep_connect_idle hidle']
    exact h

/-- The peer fails to connect, to both servers. -/
theorem ServesAlone.ownConnectFails (h : ServesAlone p s s') (hrunning : s.Running) :
    ServesAlone p (trafficStep tok s (.connectFails p)) (trafficStep tok s' (.connectFails p)) := by
  have hrunning' := h.loop.mpr hrunning
  obtain ⟨hlistening, hplace, -, -⟩ := h.running hrunning
  by_cases hnone : s.place p = none
  · rw [trafficStep_connectFails hnone, trafficStep_connectFails (hplace.mpr hnone)]
    by_cases hlistens : s.run.server.listening = true
    · have hoccurs : occurs s.run.server (.accept .failed) = true := by
        simp [occurs, hrunning, hlistens]
      have hoccurs' : occurs s'.run.server (.accept .failed) = true := by
        simp [occurs, hrunning', hlistening, hlistens]
      rw [serverStep, if_pos hoccurs, serverStep, if_pos hoccurs']
      exact .of_ended LoopStatus.noConfusion LoopStatus.noConfusion h.stop h.log
    · have hoccurs : ¬ occurs s.run.server (.accept .failed) = true := by
        simp [occurs, hlistens]
      have hoccurs' : ¬ occurs s'.run.server (.accept .failed) = true := by
        simp [occurs, hlistening, hlistens]
      rw [serverStep, if_neg hoccurs, serverStep, if_neg hoccurs']
      exact h
  · have hnot : ∀ {s : TrafficRun}, s.place p ≠ none → trafficStep tok s (.connectFails p) = s :=
      fun hne => trafficStep_of_not_occurs fun e hevent => by
        rw [TrafficRun.event?, if_neg hne] at hevent
        cases hevent
    rw [hnot hnone, hnot (mt hplace.mp hnone)]
    exact h

/-- An event of the peer, on both servers. -/
theorem ServesAlone.ownPeer {event : PeerTraffic} (h : ServesAlone p s s')
    (hinv : TrafficInv tok s) (hinv' : TrafficInv tok s') (hrunning : s.Running) :
    ServesAlone p (trafficStep tok s (.peer p event)) (trafficStep tok s' (.peer p event)) := by
  have hrunning' := h.loop.mpr hrunning
  obtain ⟨hlistening, hplace, hclosed, hentry⟩ := h.running hrunning
  by_cases hready : s.Ready p event
  · obtain ⟨peer, status, hsome, hready⟩ := hready
    obtain ⟨fd, hd, hstatus, rfl⟩ := entry_eq_some_iff.mp hsome
    obtain ⟨fd', hd', hstatus', hpeer'⟩ := entry_eq_some_iff.mp (hentry.trans hsome)
    obtain ⟨hrecorded, hserver⟩ := served_trafficStep hinv hrunning hd hstatus hready
    obtain ⟨hrecorded', hserver'⟩ := served_trafficStep hinv' hrunning' hd' hstatus' hready
    rw [hpeer'] at hserver'
    have hlog : (trafficStep tok s' (.peer p event)).log p
        = (trafficStep tok s (.peer p event)).log p := by
      rw [hrecorded.log_self hd, hrecorded'.log_self hd', h.log, hpeer']
    rcases hnew : peerEntry tok (s.run.server.globalState fd) (some status) (event.on 0)
      with _ | entry
    · rw [hnew] at hserver hserver'
      refine .of_ended ?_ ?_ ?_ hlog
      · rw [TrafficRun.Running, hserver]
        exact LoopStatus.noConfusion
      · rw [TrafficRun.Running, hserver']
        exact LoopStatus.noConfusion
      · rw [hserver, hserver']
        exact h.stop
    · rw [hnew] at hserver hserver'
      have hentry₁ := hrecorded.entry_self hd hserver
      have hentry₁' := hrecorded'.entry_self hd' hserver'
      obtain ⟨k, hk, -⟩ := descriptor_eq_some_iff.mp hd
      refine ⟨?_, ?_, hlog, fun _ => ⟨?_, ?_, fun hnone => ?_, hentry₁'.trans hentry₁.symm⟩⟩
      · rw [TrafficRun.Running, TrafficRun.Running, hserver, hserver']
        exact h.loop
      · rw [hserver, hserver']
        exact h.stop
      · rw [hserver, hserver']
        exact hlistening
      · rw [hrecorded.place, hrecorded'.place]
        exact hplace
      · rw [hrecorded.place, hk] at hnone
        cases hnone
  · have hready' : ¬ s'.Ready p event := by
      rw [TrafficRun.Ready, hentry]
      exact hready
    rw [trafficStep_peer_idle hrunning hready, trafficStep_peer_idle hrunning' hready']
    exact h

/-! #### Events of the thread -/

/-- An event of the thread, on both servers. -/
theorem ServesAlone.thread (h : ServesAlone p s s') (hrunning : s.Running) (event : ThreadEvent) :
    ServesAlone p (trafficStep tok s (.thread event)) (trafficStep tok s' (.thread event)) := by
  have hrunning' := h.loop.mpr hrunning
  obtain ⟨hlistening, hplace, hclosed, hentry⟩ := h.running hrunning
  rw [trafficStep_thread, trafficStep_thread]
  cases event with
  | setStop => exact ⟨h.loop, rfl, h.log, fun _ => ⟨hlistening, hplace, hclosed, hentry⟩⟩
  | checkStop =>
    have hstep : serverStep tok s.run.server .checkStop = s.run.server.handle tok .checkStop :=
      if_pos (decide_eq_true hrunning)
    have hstep' : serverStep tok s'.run.server .checkStop = s'.run.server.handle tok .checkStop :=
      if_pos (decide_eq_true hrunning')
    simp only [ThreadEvent.serverEvent, hstep, hstep', Server.handle, h.stop]
    by_cases hset : s.run.server.stop = true
    · simp only [if_pos hset]
      exact .of_ended LoopStatus.noConfusion LoopStatus.noConfusion rfl h.log
    · simp only [if_neg hset]
      exact h
  | listeningError =>
    by_cases hlistens : s.run.server.listening = true
    · have hstep : serverStep tok s.run.server .listeningError =
          { s.run.server with listening := false } := if_pos (by simp [occurs, hrunning, hlistens])
      have hstep' : serverStep tok s'.run.server .listeningError =
          { s'.run.server with listening := false } :=
        if_pos (by simp [occurs, hrunning', hlistening, hlistens])
      simp only [ThreadEvent.serverEvent, hstep, hstep']
      exact ⟨h.loop, h.stop, h.log, fun _ => ⟨rfl, hplace, hclosed, hentry⟩⟩
    · have hstep : serverStep tok s.run.server .listeningError = s.run.server :=
        if_neg (by simp [occurs, hlistens])
      have hstep' : serverStep tok s'.run.server .listeningError = s'.run.server :=
        if_neg (by simp [occurs, hlistening, hlistens])
      simp only [ThreadEvent.serverEvent, hstep, hstep']
      exact h
  | wouldBlock =>
    simp only [ThreadEvent.serverEvent, serverStep_wouldBlock]
    exact h

/-! #### Whole runs -/

/-- An event once both loops have ended. -/
theorem ServesAlone.ended (h : ServesAlone p s s') (hrunning : ¬ s.Running) (t : Traffic) :
    ServesAlone p (trafficStep tok s t) ((t.alone p).elim s' (trafficStep tok s')) := by
  have hrunning' : ¬ s'.Running := mt h.loop.mp hrunning
  obtain ⟨hkept, hended⟩ := trafficStep_of_not_running tok hrunning t
  have hlog : (trafficStep tok s t).log p = s.log p := hkept.log_eq p
  by_cases hset : t = .thread .setStop
  · subst hset
    exact ⟨iff_of_false hrunning' hended, rfl, h.log.trans hlog.symm, fun h => absurd h hended⟩
  · have hstop := stop_trafficStep tok (s := s) hset
    rcases halone : t.alone p with _ | t'
    · exact .of_ended hended hrunning' (h.stop.trans hstop.symm) (h.log.trans hlog.symm)
    · have hset' : t' ≠ .thread .setStop := by
        rintro rfl
        cases t with
        | thread event => exact hset (Option.some.inj halone)
        | _ =>
          rw [Traffic.alone] at halone
          split_ifs at halone
          cases halone
      obtain ⟨hkept', hended'⟩ := trafficStep_of_not_running tok hrunning' t'
      have hstop' := stop_trafficStep tok (s := s') hset'
      exact .of_ended hended hended' (hstop'.trans (h.stop.trans hstop.symm))
        ((hkept'.log_eq p).trans (h.log.trans hlog.symm))

/-- **One event**, on the server with all its peers and on the one without the others. -/
theorem ServesAlone.step (h : ServesAlone p s s') (hinv : TrafficInv tok s)
    (hinv' : TrafficInv tok s') (hfree : DescriptorFree s t) (hserve : OthersServeOn tok p s t) :
    ServesAlone p (trafficStep tok s t) ((t.alone p).elim s' (trafficStep tok s')) := by
  by_cases hrunning : s.Running
  · cases t with
    | connect q fd room =>
      by_cases hq : q = p
      · subst hq
        rw [Traffic.alone, if_pos rfl]
        exact h.ownConnect hinv hinv' hrunning hfree hserve
      · rw [Traffic.alone, if_neg hq]
        exact h.otherConnect hinv hrunning (Ne.symm hq) hserve
    | connectFails q =>
      by_cases hq : q = p
      · subst hq
        rw [Traffic.alone, if_pos rfl]
        exact h.ownConnectFails hrunning
      · rw [Traffic.alone, if_neg hq]
        exact h.otherConnectFails (Ne.symm hq) hserve
    | peer q event =>
      by_cases hq : q = p
      · subst hq
        rw [Traffic.alone, if_pos rfl]
        exact h.ownPeer hinv hinv' hrunning
      · rw [Traffic.alone, if_neg hq]
        exact h.otherPeer hinv hrunning (Ne.symm hq) hserve
    | thread event => exact h.thread hrunning event
  · exact h.ended hrunning t

/-- The two servers, over a whole run. -/
theorem ServesAlone.after {ts : List Traffic} (h : ServesAlone p s s') (hinv : TrafficInv tok s)
    (hinv' : TrafficInv tok s') (hfree : EachStep (trafficStep tok) DescriptorFree s ts)
    (hserve : EachStep (trafficStep tok) (OthersServeOn tok p) s ts) :
    ServesAlone p (after (trafficStep tok) s ts)
      (after (trafficStep tok) s' (ownTraffic p ts)) := by
  induction ts generalizing s s' with
  | nil => exact h
  | cons t ts ih =>
    obtain ⟨hfree, hfrees⟩ := eachStep_cons.mp hfree
    obtain ⟨hserve, hserves⟩ := eachStep_cons.mp hserve
    have hstep := h.step hinv hinv' hfree hserve
    rw [after_cons, ownTraffic]
    rcases halone : t.alone p with _ | t'
    · rw [halone] at hstep
      rw [List.filterMap_cons_none halone]
      exact ih hstep (hinv.step t) hinv' hfrees hserves
    · rw [halone] at hstep
      rw [List.filterMap_cons_some halone, after_cons]
      exact ih hstep (hinv.step t) (hinv'.step t') hfrees hserves

/-! ### The law -/

/-- What was handled for a peer is a function of the events served for it. -/
theorem handled_eq_requestsOf (tok : JsonTokener) (globalState : ℕ → PeerState)
    (ts : List Traffic) (p : ℕ) :
    ((after (trafficStep tok) (trafficRunStart globalState) ts).log p).handled =
      requestsOf tok ((after (trafficStep tok) (trafficRunStart globalState) ts).log p).events := by
  have hstart : LocalInv tok (LikeAlone tok) (HandledAlone tok)
      (trafficRunStart globalState).run := localInv_serverRunStart handledAlone_empty globalState
  have hrun : LocalInv tok (LikeAlone tok) (HandledAlone tok)
      (after (trafficStep tok) (trafficRunStart globalState) ts).run := by
    refine after_induction (P := fun s : TrafficRun =>
      LocalInv tok (LikeAlone tok) (HandledAlone tok) s.run) hstart fun s t hinv => ?_
    rw [trafficStep]
    rcases s.event? t with _ | e
    · exact hinv
    · exact likeAlone_step hinv e
  rw [TrafficRun.log]
  rcases (after (trafficStep tok) (trafficRunStart globalState) ts).place p with _ | ⟨fd, k⟩
  · rfl
  · exact (hrun.log k).symm

/-- **The law of isolation** of the peer `p`, over two runs of the server. The requests handled for
it are a function of the events served for it; they are the requests handled when the others are
taken away; and they are those of the second run, when the traffic of the peer is the same there,
whatever the others do and whatever descriptors the kernel gives out. -/
structure PeerIsolation (tok : JsonTokener) (p : ℕ) (globalState : ℕ → PeerState)
    (ts : List Traffic) (globalState' : ℕ → PeerState) (ts' : List Traffic) : Prop where
  own : ((after (trafficStep tok) (trafficRunStart globalState) ts).log p).handled =
    requestsOf tok ((after (trafficStep tok) (trafficRunStart globalState) ts).log p).events
  removed :
    ((after (trafficStep tok) (trafficRunStart globalState) (ownTraffic p ts)).log p).handled =
      ((after (trafficStep tok) (trafficRunStart globalState) ts).log p).handled
  changed : ownTraffic p ts' = ownTraffic p ts →
    ((after (trafficStep tok) (trafficRunStart globalState') ts').log p).handled =
      ((after (trafficStep tok) (trafficRunStart globalState) ts).log p).handled

/-- Alone, the peer is served in the same way whatever the others do, as long as they do not end the
loop. -/
theorem log_ownTraffic {ts : List Traffic} (globalState globalState' : ℕ → PeerState)
    (hfree : EachStep (trafficStep tok) DescriptorFree (trafficRunStart globalState) ts)
    (hserve : EachStep (trafficStep tok) (OthersServeOn tok p) (trafficRunStart globalState) ts) :
    (after (trafficStep tok) (trafficRunStart globalState') (ownTraffic p ts)).log p
      = (after (trafficStep tok) (trafficRunStart globalState) ts).log p :=
  ((servesAlone_trafficRunStart globalState globalState').after
    (trafficInv_trafficRunStart globalState) (trafficInv_trafficRunStart globalState') hfree
    hserve).log

/-- **Isolation of the peers.** Whatever the tables hold at the start, every peer of every two runs
in which no event of another peer ends the loop obeys the law. The kernel is relied on to return a
descriptor that is not open. -/
theorem peerIsolation_of_othersServeOn (tok : JsonTokener) (p : ℕ)
    (globalState globalState' : ℕ → PeerState) (ts ts' : List Traffic)
    (hfree : EachStep (trafficStep tok) DescriptorFree (trafficRunStart globalState) ts)
    (hfree' : EachStep (trafficStep tok) DescriptorFree (trafficRunStart globalState') ts')
    (hserve : EachStep (trafficStep tok) (OthersServeOn tok p) (trafficRunStart globalState) ts)
    (hserve' : EachStep (trafficStep tok) (OthersServeOn tok p) (trafficRunStart globalState')
      ts') :
    PeerIsolation tok p globalState ts globalState' ts' where
  own := handled_eq_requestsOf tok globalState ts p
  removed := by rw [log_ownTraffic globalState globalState hfree hserve]
  changed hsame := by
    rw [← log_ownTraffic globalState' globalState hfree' hserve', hsame,
      log_ownTraffic globalState globalState hfree hserve]

/-! ### Two runs -/

theorem othersServeOn_connect {fd : ℕ} (hfd : fd < maxFds) :
    OthersServeOn tok p s (.connect q fd true) := by
  intro _ e hevent _ hends
  rw [TrafficRun.event?] at hevent
  split_ifs at hevent
  obtain rfl := Option.some.inj hevent
  simp only [EndsLoop, Bool.true_eq_false, or_false] at hends
  exact absurd hfd (not_lt.mpr hends)

theorem othersServeOn_error : OthersServeOn tok p s (.peer q .error) := by
  intro _ e hevent _
  obtain ⟨fd, -, rfl⟩ := Option.map_eq_some_iff.mp hevent
  exact id

theorem othersServeOn_own (hown : t.mayEnd p = true) : OthersServeOn tok p s t := by
  intro hother
  rw [hown] at hother
  cases hother

/-- A request of a peer, and the response that `send` takes. -/
def requestTraffic (p : ℕ) : List Traffic :=
  [.peer p (.readable (.received [0x7B, 0x7D])),
    .peer p (.writable [0x7B, 0x7D] (.sent ⟨2, Nat.two_pos⟩))]

/-- A peer that is given the descriptor of one that was closed. -/
def reusedTraffic : List Traffic :=
  [.connect 1 5 true, .peer 1 .error, .connect 0 5 true] ++ requestTraffic 0

/-- The peer alone. -/
def unsharedTraffic : List Traffic := .connect 0 7 true :: requestTraffic 0

/-- A client that aborts its connection before it is accepted. -/
def abortedTraffic : List Traffic := [.connect 0 5 true, .connectFails 1] ++ requestTraffic 0

/-- A descriptor that is used again makes no difference. -/
theorem peerIsolation_reused :
    PeerIsolation jsonObjects 0 (fun _ => onPeerConnected.1) reusedTraffic
      (fun _ => onPeerConnected.1) unsharedTraffic := by
  refine peerIsolation_of_othersServeOn jsonObjects 0 _ _ _ _ (by decide +kernel)
    (by decide +kernel) ?_ ?_
  · refine eachStep_cons.mpr ⟨othersServeOn_connect (by decide), eachStep_cons.mpr
      ⟨othersServeOn_error, eachStep_cons.mpr ⟨othersServeOn_connect (by decide), ?_⟩⟩⟩
    exact eachStep_cons.mpr ⟨othersServeOn_own rfl,
      eachStep_cons.mpr ⟨othersServeOn_own rfl, eachStep_nil⟩⟩
  · exact eachStep_cons.mpr ⟨othersServeOn_connect (by decide), eachStep_cons.mpr
      ⟨othersServeOn_own rfl, eachStep_cons.mpr ⟨othersServeOn_own rfl, eachStep_nil⟩⟩⟩

/-- A client that aborts its connection silences the others: the request of the peer, which the
server handles without that client, is not handled. -/
theorem peerIsolation_fails_connection_aborted :
    EachStep (trafficStep jsonObjects) DescriptorFree (trafficRunStart fun _ => onPeerConnected.1)
        abortedTraffic ∧
      ¬ PeerIsolation jsonObjects 0 (fun _ => onPeerConnected.1) abortedTraffic
        (fun _ => onPeerConnected.1) abortedTraffic := by
  refine ⟨by decide +kernel, fun h => ?_⟩
  have hremoved := h.removed
  revert hremoved
  decide +kernel

end Oscillatord
