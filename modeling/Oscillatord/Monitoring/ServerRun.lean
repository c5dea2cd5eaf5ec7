import Oscillatord.Monitoring.Server

/-!
# Runs of the monitoring server, connection by connection

The server keeps no record of what it does for a peer, and its table is indexed by descriptors,
which the kernel uses again. A `ServerRun` numbers the connections in the order they are accepted
and keeps a log of each: its own ready events, the bytes read from it, the requests found in its
buffer, the requests handled with the response composed for each and what `send` took of it, and
the actions stored for the main loop.

`LocalInv` is the rule the laws of a connection are proved with: a property of one entry of the
table and its log that every event of that entry keeps holds of every registered entry, and a
property of the log that goes with it holds of every connection, open or closed.
-/

namespace Oscillatord

open StepRun ObjectRep

/-! ### Logs -/

/-- A ready event of a connection. -/
inductive ReadyEvent
  | error
  | hangup
  | readable (outcome : RecvOutcome)
  | writable
  deriving Repr, DecidableEq

/-- A request that was handled, the response composed for it, and what `send` returned. -/
structure ServedRequest where
  request : List UInt8 × MonitoringRequest
  resp : List UInt8
  outcome : SendOutcome
  deriving DecidableEq

/-- How many bytes `send` took. -/
def SendOutcome.count : SendOutcome → ℕ
  | .sent count => count
  | .failed => 0

/-- The bytes of the response that were sent. -/
def ServedRequest.sent (a : ServedRequest) : List UInt8 := a.resp.take a.outcome.count

/-- The log of a connection. -/
structure PeerLog where
  events : List ReadyEvent
  received : List UInt8
  accepted : List (List UInt8 × MonitoringRequest)
  served : List ServedRequest
  stored : List MonitoringRequest
  deriving DecidableEq

/-- The log of a connection that was just accepted. -/
def PeerLog.empty : PeerLog :=
  { events := [], received := [], accepted := [], served := [], stored := [] }

/-- The requests that were handled. -/
def PeerLog.handled (log : PeerLog) : List (List UInt8 × MonitoringRequest) :=
  log.served.map ServedRequest.request

/-- The bytes `recv` returns. -/
def RecvOutcome.bytes : RecvOutcome → List UInt8
  | .received bytes => bytes
  | .wouldBlock => []
  | .failed => []

/-- The request `on_peer_ready_recv` finds complete in the buffer. -/
def acceptedBy (tok : JsonTokener) (peer : PeerState) (outcome : RecvOutcome) :
    Option (List UInt8 × MonitoringRequest) := do
  let result ← onPeerReadyRecv tok peer outcome
  let text ← cString result.1.recvBuf
  if result.2.wantWrite then some (tok.request text) else none

/-- The request `on_peer_ready_send` handles. -/
def handledBy (tok : JsonTokener) (peer : PeerState) (outcome : SendOutcome) :
    Option (List UInt8 × MonitoringRequest) := do
  let result ← onPeerReadySend tok peer outcome.ret
  result.handled

/-- The action `json_handle_request` stores of a request, if it asks for one. -/
def storedAction (request : List UInt8 × MonitoringRequest) : Option MonitoringRequest :=
  if request.2.isAction then some request.2 else none

/-- The log after an event of the connection, which finds the peer in the state given. -/
def PeerLog.record (tok : JsonTokener) (log : PeerLog) (peer : PeerState) :
    ServerEvent → PeerLog
  | .error _ => { log with events := log.events ++ [.error] }
  | .hangup _ => { log with events := log.events ++ [.hangup] }
  | .readable _ outcome =>
    { log with
      events := log.events ++ [.readable outcome]
      received := log.received ++ if peer.mustWait then [] else outcome.bytes
      accepted := log.accepted ++ (acceptedBy tok peer outcome).toList }
  | .writable _ resp outcome =>
    let handled := handledBy tok peer outcome
    { log with
      events := log.events ++ [.writable]
      served := log.served ++ (handled.map fun request => ⟨request, resp, outcome⟩).toList
      stored := log.stored ++ (handled.bind storedAction).toList }
  | _ => log

/-! ### Runs -/

/-- The server, which connection a descriptor was last accepted for, the number of connections
accepted so far, and the logs. -/
structure ServerRun where
  server : Server
  owner : ℕ → ℕ
  next : ℕ
  log : ℕ → PeerLog

/-- The server before its first event. -/
def serverRunStart (globalState : ℕ → PeerState) : ServerRun :=
  { server := serverStart globalState
    owner := fun _ => 0
    next := 0
    log := fun _ => .empty }

variable (tok : JsonTokener)

/-- One event of the server, with its logs. -/
def serverRunStep (r : ServerRun) (e : ServerEvent) : ServerRun :=
  if occurs r.server e then
    let server := r.server.handle tok e
    match e.fd? with
    | some fd =>
      let k := r.owner fd
      { r with
        server
        log := Function.update r.log k ((r.log k).record tok (r.server.globalState fd) e) }
    | none =>
      match e with
      | .accept (.accepted fd _) =>
        if server.loop = .running then
          { server, owner := Function.update r.owner fd r.next, next := r.next + 1, log := r.log }
        else { r with server }
      | _ => { r with server }
  else r

variable {tok} {r : ServerRun} {e : ServerEvent} {fd : ℕ}

/-- The logs do not influence the server. -/
theorem server_serverRunStep (r : ServerRun) (e : ServerEvent) :
    (serverRunStep tok r e).server = serverStep tok r.server e := by
  unfold serverRunStep serverStep
  split
  · cases e with
    | accept outcome =>
      rcases outcome with ⟨fd, room⟩ | _ | _
      · simp only [ServerEvent.fd?]
        split_ifs <;> rfl
      · rfl
      · rfl
    | _ => rfl
  · rfl

/-- The server of an observed run is the server of the run. -/
theorem server_after_serverRunStep (globalState : ℕ → PeerState) (es : List ServerEvent) :
    (after (serverRunStep tok) (serverRunStart globalState) es).server
      = after (serverStep tok) (serverStart globalState) es :=
  after_hom ServerRun.server server_serverRunStep

/-- The loop is running when a peer event occurs. -/
theorem running_of_occurs (h : occurs r.server e = true) (hfd : e.fd? = some fd) :
    r.server.loop = .running := by
  cases e with
  | error _ | hangup _ =>
    simp only [occurs, Bool.and_eq_true, decide_eq_true_eq] at h
    exact h.1
  | readable _ _ =>
    simp only [occurs, Bool.and_eq_true, decide_eq_true_eq] at h
    exact h.1.1
  | writable _ _ _ =>
    simp only [occurs, Bool.and_eq_true, decide_eq_true_eq] at h
    exact h.1
  | _ => cases hfd

/-- An event of a connection. -/
theorem serverRunStep_peer (h : occurs r.server e = true) (hfd : e.fd? = some fd) :
    serverRunStep tok r e =
      { r with
        server := r.server.handle tok e
        log := Function.update r.log (r.owner fd)
          ((r.log (r.owner fd)).record tok (r.server.globalState fd) e) } := by
  rw [serverRunStep, if_pos h, hfd]

/-- A connection that is accepted. -/
theorem serverRunStep_accept (hinv : ServerInv tok r.server)
    (h : occurs r.server (.accept (.accepted fd true)) = true) (hfd : fd < maxFds) :
    serverRunStep tok r (.accept (.accepted fd true)) =
      { server := r.server.put fd onPeerConnected.1 (some fdStatusR)
        owner := Function.update r.owner fd r.next
        next := r.next + 1
        log := r.log } := by
  have hoccurs := h
  simp only [occurs, Bool.and_eq_true, Bool.not_eq_true', decide_eq_true_eq] at h
  have hput : r.server.handle tok (.accept (.accepted fd true))
      = r.server.put fd onPeerConnected.1 (some fdStatusR) := hinv.acceptPeer_accepted h.2 hfd
  have hrunning : (r.server.put fd onPeerConnected.1 (some fdStatusR)).loop = .running := h.1.1
  rw [serverRunStep, if_pos hoccurs]
  simp only [ServerEvent.fd?, hput, hrunning, if_true]

variable (tok) in
/-- A connection that is not accepted ends the loop. -/
theorem serverRunStep_accept_ends {room : Bool}
    (h : occurs r.server (.accept (.accepted fd room)) = true)
    (hends : maxFds ≤ fd ∨ room = false) :
    (serverRunStep tok r (.accept (.accepted fd room))).server.loop = .left := by
  rw [server_serverRunStep, serverStep, if_pos h, Server.handle]
  simp only [Server.acceptPeer]
  rcases hends with hfd | rfl
  · rw [if_pos hfd]
  · simp only [Bool.not_false, Bool.or_true, if_true]
    split <;> rfl

/-- Only main sets `monitoring->stop`. -/
theorem stop_serverRunStep (he : e ≠ .setStop) :
    (serverRunStep tok r e).server.stop = r.server.stop := by
  rw [server_serverRunStep, serverStep]
  split
  · exact stop_handle he
  · rfl

/-- Every other event accepts a connection, or leaves the entries and the logs alone as long as the
loop is running. -/
theorem serverRunStep_other (hinv : RunningInv tok r.server) (hfd : e.fd? = none) :
    (∃ fd, e = .accept (.accepted fd true) ∧ r.server.loop = .running ∧
        serverRunStep tok r e =
          { server := r.server.put fd onPeerConnected.1 (some fdStatusR)
            owner := Function.update r.owner fd r.next
            next := r.next + 1
            log := r.log }) ∨
      ∃ server, serverRunStep tok r e = { r with server } ∧
        (server.loop = .running → r.server.loop = .running ∧
          server.interest = r.server.interest ∧ server.globalState = r.server.globalState) := by
  by_cases h : occurs r.server e = true
  · cases e with
    | setStop => exact .inr ⟨_, if_pos h, fun hrun => ⟨hrun, rfl, rfl⟩⟩
    | checkStop =>
      refine .inr ⟨_, if_pos h, fun hrun => ?_⟩
      simp only [Server.handle] at hrun ⊢
      by_cases hstop : r.server.stop = true
      · rw [if_pos hstop] at hrun
        cases hrun
      · rw [if_neg hstop] at hrun ⊢
        exact ⟨hrun, rfl, rfl⟩
    | listeningError => exact .inr ⟨_, if_pos h, fun hrun => ⟨hrun, rfl, rfl⟩⟩
    | accept outcome =>
      rcases outcome with ⟨fd, room⟩ | _ | _
      · by_cases hends : maxFds ≤ fd ∨ room = false
        · have hleft : (serverRunStep tok r (.accept (.accepted fd room))).server.loop = .left :=
            serverRunStep_accept_ends tok h hends
          have hstep : serverRunStep tok r (.accept (.accepted fd room)) =
              if (r.server.handle tok (.accept (.accepted fd room))).loop = .running then
                { server := r.server.handle tok (.accept (.accepted fd room))
                  owner := Function.update r.owner fd r.next
                  next := r.next + 1
                  log := r.log }
              else { r with server := r.server.handle tok (.accept (.accepted fd room)) } :=
            if_pos h
          rw [server_serverRunStep, serverStep, if_pos h] at hleft
          refine .inr ⟨_, hstep.trans (if_neg ?_), fun hrun => ?_⟩
          · rw [hleft]
            exact LoopStatus.noConfusion
          · rw [hleft] at hrun
            cases hrun
        · rw [not_or, not_le, Bool.not_eq_false] at hends
          obtain ⟨hfd', rfl⟩ := hends
          have hrunning : r.server.loop = .running := by
            simp only [occurs, Bool.and_eq_true, decide_eq_true_eq] at h
            exact h.1.1
          exact .inl ⟨fd, rfl, hrunning, serverRunStep_accept (hinv hrunning) h hfd'⟩
      · exact .inr ⟨_, if_pos h, fun hrun => ⟨hrun, rfl, rfl⟩⟩
      · exact .inr ⟨_, if_pos h, fun hrun => by cases hrun⟩
    | _ => cases hfd
  · exact .inr ⟨r.server, if_neg h, fun hrun => ⟨hrun, rfl, rfl⟩⟩

/-! ### What a running server keeps of its connections -/

/-- The connections of the registered descriptors are different, and were all accepted. -/
structure OwnerInv (r : ServerRun) : Prop where
  lt : ∀ fd, (r.server.interest fd).isSome = true → r.owner fd < r.next
  unique : ∀ fd fd', (r.server.interest fd).isSome = true →
    (r.server.interest fd').isSome = true → r.owner fd = r.owner fd' → fd = fd'

/-- **A local property of the connections**: `Φ` relates every registered entry of the table to the
log of its connection, and `Ψ` holds of all logs. -/
structure LocalInv (tok : JsonTokener) (Φ : PeerState → FdStatus → PeerLog → Prop)
    (Ψ : PeerLog → Prop) (r : ServerRun) : Prop where
  server : RunningInv tok r.server
  owner : r.server.loop = .running → OwnerInv r
  entry : r.server.loop = .running → ∀ fd status, r.server.interest fd = some status →
    Φ (r.server.globalState fd) status (r.log (r.owner fd))
  log : ∀ k, Ψ (r.log k)
  fresh : ∀ k, r.next ≤ k → r.log k = .empty

/-- What an event of an entry owes: the entry it leads to is related to the new log, and the new log
has its property even when the connection ends. -/
structure LocalStep (tok : JsonTokener) (Φ : PeerState → FdStatus → PeerLog → Prop)
    (Ψ : PeerLog → Prop) (peer : PeerState) (status : FdStatus) (log : PeerLog)
    (e : ServerEvent) : Prop where
  entry : ∀ peer' status', peerEntry tok peer (some status) e = some (peer', some status') →
    Φ peer' status' (log.record tok peer e)
  log : Ψ (log.record tok peer e)

variable {Φ : PeerState → FdStatus → PeerLog → Prop} {Ψ : PeerLog → Prop}

theorem localInv_serverRunStart (hempty : Ψ .empty) (globalState : ℕ → PeerState) :
    LocalInv tok Φ Ψ (serverRunStart globalState) where
  server _ := serverInv_serverStart globalState
  owner _ := ⟨nofun, nofun⟩
  entry _ := nofun
  log _ := hempty
  fresh _ _ := rfl

/-- An event that concerns no entry of the table keeps a local property. -/
theorem LocalInv.other (hinv : LocalInv tok Φ Ψ r) {server : Server}
    (hserver : RunningInv tok server)
    (hsame : server.loop = .running → r.server.loop = .running ∧
      server.interest = r.server.interest ∧ server.globalState = r.server.globalState) :
    LocalInv tok Φ Ψ { r with server } := by
  refine ⟨hserver, fun h => ?_, fun h fd status hst => ?_, hinv.log, hinv.fresh⟩
  · obtain ⟨hrunning, hinterest, -⟩ := hsame h
    obtain ⟨hlt, hunique⟩ := hinv.owner hrunning
    refine ⟨?_, ?_⟩
    · rw [hinterest]
      exact hlt
    · rw [hinterest]
      exact hunique
  · obtain ⟨hrunning, hinterest, hstate⟩ := hsame h
    rw [hinterest] at hst
    rw [hstate]
    exact hinv.entry hrunning fd status hst

/-- The connection that is accepted keeps a local property. -/
theorem LocalInv.connect (hinv : LocalInv tok Φ Ψ r)
    (hconnect : Φ onPeerConnected.1 fdStatusR .empty) (hrunning : r.server.loop = .running)
    (hserver : RunningInv tok (r.server.put fd onPeerConnected.1 (some fdStatusR))) :
    LocalInv tok Φ Ψ
      { server := r.server.put fd onPeerConnected.1 (some fdStatusR)
        owner := Function.update r.owner fd r.next
        next := r.next + 1
        log := r.log } := by
  obtain ⟨hlt, hunique⟩ := hinv.owner hrunning
  refine ⟨hserver, fun _ => ⟨fun fd' h => ?_, fun fd' fd'' h h' heq => ?_⟩,
    fun _ fd' status hst => ?_, hinv.log, fun k hk => hinv.fresh k ?_⟩
  · by_cases hfd : fd' = fd
    · subst hfd
      simp
    · simp only [Server.put, Function.update_of_ne hfd] at h ⊢
      exact (hlt fd' h).trans (Nat.lt_succ_self _)
  · by_cases hfd : fd' = fd
    · by_cases hfd' : fd'' = fd
      · rw [hfd, hfd']
      · subst hfd
        simp only [Server.put, Function.update_of_ne hfd', Function.update_self] at h' heq
        exact absurd heq.symm (hlt fd'' h').ne
    · by_cases hfd' : fd'' = fd
      · subst hfd'
        simp only [Server.put, Function.update_of_ne hfd, Function.update_self] at h heq
        exact absurd heq (hlt fd' h).ne
      · simp only [Server.put, Function.update_of_ne hfd, Function.update_of_ne hfd'] at h h' heq
        exact hunique fd' fd'' h h' heq
  · by_cases hfd : fd' = fd
    · subst hfd
      obtain rfl : fdStatusR = status := by simpa [Server.put] using hst
      simpa [Server.put, hinv.fresh r.next le_rfl] using hconnect
    · simp only [Server.put, Function.update_of_ne hfd] at hst ⊢
      exact hinv.entry hrunning fd' status hst
  · exact (Nat.le_succ _).trans hk

/-- An event of an entry keeps a local property when it pays what it owes. -/
theorem LocalInv.peer (hinv : LocalInv tok Φ Ψ r) (h : occurs r.server e = true)
    (hfd : e.fd? = some fd) (hrunning : r.server.loop = .running)
    (hstep : ∀ status, r.server.interest fd = some status →
      LocalStep tok Φ Ψ (r.server.globalState fd) status (r.log (r.owner fd)) e) :
    LocalInv tok Φ Ψ (serverRunStep tok r e) := by
  obtain ⟨hlt, hunique⟩ := hinv.owner hrunning
  have hregistered := isSome_interest_of_occurs h hfd
  obtain ⟨status, hstatus⟩ := Option.isSome_iff_exists.mp hregistered
  have howed := hstep status hstatus
  have hserver := hinv.server.step e
  rw [← server_serverRunStep] at hserver
  have hhandle := (hinv.server hrunning).handle_peer h hfd
  rw [serverRunStep_peer h hfd] at hserver ⊢
  have hlogs : ∀ k, Ψ (Function.update r.log (r.owner fd)
      ((r.log (r.owner fd)).record tok (r.server.globalState fd) e) k) := fun k => by
    by_cases hk : k = r.owner fd
    · subst hk
      simpa using howed.log
    · simpa [Function.update_of_ne hk] using hinv.log k
  have hfresh : ∀ k, r.next ≤ k → Function.update r.log (r.owner fd)
      ((r.log (r.owner fd)).record tok (r.server.globalState fd) e) k = .empty := fun k hk => by
    have hne : k ≠ r.owner fd := (hk.trans_lt' (hlt fd hregistered)).ne'
    rw [Function.update_of_ne hne]
    exact hinv.fresh k hk
  rw [hstatus] at hhandle
  cases hentry : peerEntry tok (r.server.globalState fd) (some status) e with
  | none =>
    rw [hentry] at hhandle
    refine ⟨hserver, fun hrun => ?_, fun hrun => ?_, hlogs, hfresh⟩
    · rw [hhandle] at hrun
      cases hrun
    · rw [hhandle] at hrun
      cases hrun
  | some entry =>
    rw [hentry] at hhandle
    -- the registered descriptors are those of before, less the one that may have been closed
    have hbefore : ∀ fd', ((r.server.put fd entry.1 entry.2).interest fd').isSome = true →
        (r.server.interest fd').isSome = true := fun fd' hsome => by
      by_cases heq : fd' = fd
      · rw [heq]
        exact hregistered
      · simpa [Server.put, Function.update_of_ne heq] using hsome
    rw [hhandle] at hserver ⊢
    refine ⟨hserver, fun _ => ⟨fun fd' hsome => hlt fd' (hbefore fd' hsome), ?_⟩,
      fun _ fd' status' hst => ?_, hlogs, hfresh⟩
    · intro fd' fd'' hsome hsome' heq
      exact hunique fd' fd'' (hbefore fd' hsome) (hbefore fd'' hsome') heq
    · by_cases heq : fd' = fd
      · subst heq
        simp only [Server.put, Function.update_self] at hst ⊢
        refine howed.entry entry.1 status' ?_
        rw [hentry, ← hst]
      · have hsome : (r.server.interest fd').isSome = true :=
          hbefore fd' (by rw [hst]; rfl)
        have hne : r.owner fd' ≠ r.owner fd := fun howner =>
          heq (hunique fd' fd hsome hregistered howner)
        simp only [Server.put, Function.update_of_ne heq, Function.update_of_ne hne] at hst ⊢
        exact hinv.entry hrunning fd' status' hst

/-- **The rule of local properties.** A local property that a new connection has is kept by every
step whose event of an entry pays what it owes. -/
theorem LocalInv.step (hinv : LocalInv tok Φ Ψ r)
    (hconnect : Φ onPeerConnected.1 fdStatusR .empty)
    (hstep : ∀ fd, e.fd? = some fd → occurs r.server e = true → r.server.loop = .running →
      ∀ status, r.server.interest fd = some status →
        LocalStep tok Φ Ψ (r.server.globalState fd) status (r.log (r.owner fd)) e) :
    LocalInv tok Φ Ψ (serverRunStep tok r e) := by
  have hserver := hinv.server.step e
  rw [← server_serverRunStep] at hserver
  cases hfd : e.fd? with
  | some fd =>
    by_cases h : occurs r.server e = true
    · have hrunning := running_of_occurs h hfd
      exact hinv.peer h hfd hrunning (hstep fd hfd h hrunning)
    · have hsame : serverRunStep tok r e = r := if_neg h
      rw [hsame]
      exact hinv
  | none =>
    rcases serverRunStep_other hinv.server hfd with
      ⟨fd, -, hrunning, heq⟩ | ⟨server, heq, hsame⟩
    · rw [heq] at hserver ⊢
      exact hinv.connect hconnect hrunning hserver
    · rw [heq] at hserver ⊢
      exact hinv.other hserver hsame

end Oscillatord
