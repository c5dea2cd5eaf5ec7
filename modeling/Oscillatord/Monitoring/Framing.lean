import Oscillatord.Library.Runs
import Oscillatord.Monitoring.Peer

/-!
# Framing of the requests of a peer

A peer sends a stream of JSON objects and the network cuts it into chunks. Starting from a clean
state, `on_peer_ready_recv` looks at one chunk: it keeps the first object of it and drops the rest,
or, when the first object is not complete, keeps what it has and refuses to receive the next chunk,
since the bytes it has kept look like data waiting to be sent. A response that cannot be sent
leaves the cursors as they are, too, and the peer is not read again.

So the server is a reader of one object a chunk: under every fair schedule of the events it asks
for, it handles what `FrameFormat.chunkwise` says (`eventually_handled`). It handles the objects of
the stream, each once and in order, exactly when every chunk is made of one object at most and all
responses but the last are sent (`framingLaw_iff`).
-/

namespace Oscillatord

open StepRun ObjectRep

variable {tok : JsonTokener}

/-- Requests that fit in the buffer, as frames. -/
def JsonTokener.requests (tok : JsonTokener) : FrameFormat UInt8 where
  start := openingBrace
  IsFrame object := tok.IsObject object ∧ object.length < sendbufSize
  head_eq h := h.1.2
  prefix_free h h' hpre := tok.object_prefix_free h.1.1 h'.1.1 h.1.2 h'.1.2 hpre

/-! ### Receiving a chunk -/

variable {object text bytes chunk : List UInt8} {peer : PeerState} {b : UInt8} {ready : Bool}

/-- The peer while the text of a request arrives. -/
def filling (text : List UInt8) : PeerState :=
  { state := .inMsg, recvBuf := written sendbufSize text, bufEnd := text.length, bufPtr := 0 }

/-- The buffer holds an object, whatever else has been received. -/
structure Holding (object : List UInt8) (peer : PeerState) : Prop where
  recvBuf : peer.recvBuf = written sendbufSize object
  bufEnd : 0 < peer.bufEnd
  bufPtr : peer.bufPtr = 0
  state : peer.state ≠ .initialAck

/-- A peer that waits for a request passes over a separator. -/
theorem recvLoop_separator (hpeer : peer.state = .waitForMsg) (h : openingBrace ∉ bytes) :
    bytes.foldlM (recvByte tok) (peer, ready) = some (peer, ready) := by
  induction bytes with
  | nil => rfl
  | cons b bytes ih =>
    have hb : b ≠ openingBrace := fun heq => h (heq ▸ List.mem_cons_self)
    have hstep : recvByte tok (peer, ready) b = some (peer, ready) := by
      rw [recvByte, hpeer]
      exact if_neg hb
    rw [List.foldlM_cons, hstep]
    exact ih fun hm => h (List.mem_cons_of_mem _ hm)

/-- The brace that begins a request. -/
theorem recvByte_brace :
    recvByte tok (onPeerConnected.1, ready) openingBrace
      = some (filling [openingBrace], ready) := by
  have hroom : ([] : List UInt8).length < sendbufSize := Nat.succ_pos 1023
  have hbuf : Function.update (zeros sendbufSize) 0 openingBrace
      = written sendbufSize [openingBrace] := update_written hroom openingBrace
  simp only [recvByte, onPeerConnected, if_true, hbuf]
  rfl

/-- A byte of a request that is not complete is appended. -/
theorem recvByte_filling (hlen : text.length < sendbufSize)
    (hhead : text.head? = some openingBrace) (h : ¬ tok.StartsWithObject text) :
    recvByte tok (filling text, ready) b = some (filling (text ++ [b]), ready) := by
  obtain ⟨string, hstring, hparse⟩ := exists_cString_written hlen hhead
  have hnone : ¬ (tok.jsonTokenerParse string).isSome = true := fun hsome => h (hparse.mp hsome)
  simp only [recvByte, filling, hstring, Option.bind_eq_bind, Option.bind_some, if_neg hnone,
    dif_pos hlen, update_written, List.length_append, List.length_singleton]

/-- The bytes of a request are appended as long as it is not complete. -/
theorem recvLoop_filling (hlen : (text ++ bytes).length ≤ sendbufSize)
    (hhead : text.head? = some openingBrace)
    (h : ∀ p, p <+: text ++ bytes → p.length < (text ++ bytes).length →
      ¬ tok.StartsWithObject p) :
    bytes.foldlM (recvByte tok) (filling text, ready)
      = some (filling (text ++ bytes), ready) := by
  induction bytes generalizing text with
  | nil =>
    rw [List.append_nil]
    rfl
  | cons b bytes ih =>
    have hlt : text.length < (text ++ b :: bytes).length := by simp
    have hstep : recvByte tok (filling text, ready) b = some (filling (text ++ [b]), ready) :=
      recvByte_filling (hlt.trans_le hlen) hhead (h text (List.prefix_append _ _) hlt)
    have happend : text ++ b :: bytes = text ++ [b] ++ bytes := by simp
    rw [happend] at hlen h ⊢
    rw [List.foldlM_cons, hstep]
    refine ih hlen ?_ h
    rw [List.head?_append, hhead]
    rfl

/-- A buffer that holds a complete object is not changed by what follows. -/
theorem recvByte_holding (hobject : tok.requests.IsFrame object) (h : Holding object peer) :
    ∃ peer' ready', recvByte tok (peer, ready) b = some (peer', ready') ∧ Holding object peer' := by
  obtain ⟨state, recvBuf, bufEnd, bufPtr⟩ := peer
  obtain ⟨rfl, hend, rfl, hstate⟩ := h
  cases state with
  | initialAck => exact absurd rfl hstate
  | waitForMsg =>
    by_cases hb : b = openingBrace
    · refine ⟨_, ready, if_pos hb, ?_, hend.trans (Nat.lt_succ_self _), rfl, nofun⟩
      -- the brace that begins the next request is the brace the buffer begins with
      obtain ⟨rest, rfl⟩ := List.head?_eq_some_iff.mp hobject.1.2
      exact (congrArg (Function.update _ 0) hb).trans (Function.update_eq_self 0 _)
    · exact ⟨_, ready, if_neg hb, rfl, hend, rfl, nofun⟩
  | inMsg =>
    obtain ⟨string, hstring, hparse⟩ := exists_cString_written hobject.2 hobject.1.2
    have hsome := hparse.mpr ⟨object, hobject.1, List.prefix_refl _⟩
    refine ⟨{ state := .waitForMsg, recvBuf := written sendbufSize object, bufEnd, bufPtr := 0 },
      true, ?_, rfl, hend, rfl, nofun⟩
    simp only [recvByte, hstring, Option.bind_eq_bind, Option.bind_some, if_pos hsome]

theorem recvLoop_holding (hobject : tok.requests.IsFrame object) (h : Holding object peer) :
    ∃ peer' ready', bytes.foldlM (recvByte tok) (peer, ready) = some (peer', ready') ∧
      Holding object peer' := by
  induction bytes generalizing peer ready with
  | nil => exact ⟨peer, ready, rfl, h⟩
  | cons b bytes ih =>
    obtain ⟨peer', ready', hstep, h'⟩ : ∃ peer' ready',
        recvByte tok (peer, ready) b = some (peer', ready') ∧ Holding object peer' :=
      recvByte_holding hobject h
    rw [List.foldlM_cons, hstep]
    exact ih h'

/-- What follows the loop, when the buffer holds an object: the peer is ready. -/
theorem recvEnd_holding (hobject : tok.requests.IsFrame object) (h : Holding object peer) :
    recvEnd tok (peer, ready) = some ({ peer with state := .waitForMsg }, fdStatusW) := by
  obtain ⟨string, hstring, hparse⟩ := exists_cString_written hobject.2 hobject.1.2
  have hsome := hparse.mpr ⟨object, hobject.1, List.prefix_refl _⟩
  simp only [recvEnd, h.recvBuf, hstring, Option.bind_eq_bind, Option.bind_some, if_pos hsome]
  rfl

/-- A clean peer receives. -/
theorem onPeerReadyRecv_connected (hne : chunk ≠ []) :
    onPeerReadyRecv tok onPeerConnected.1 (.received chunk)
      = chunk.foldlM (recvByte tok) (onPeerConnected.1, false) >>= recvEnd tok := by
  rcases chunk with _ | ⟨b, chunk⟩
  · exact absurd rfl hne
  · rfl

/-- A chunk without a request is passed over. -/
theorem onPeerReadyRecv_of_separator (hne : chunk ≠ []) (h : openingBrace ∉ chunk) :
    onPeerReadyRecv tok onPeerConnected.1 (.received chunk)
      = some (onPeerConnected.1, fdStatusR) := by
  have hempty : cString (onPeerConnected.1.recvBuf) = some [] := cString_zero (Nat.succ_pos 1023)
  rw [onPeerReadyRecv_connected hne, recvLoop_separator rfl h]
  simp only [Option.bind_eq_bind, Option.bind_some, recvEnd, hempty, parse_nil]
  rfl

/-- A part of an object does not begin with an object. -/
theorem not_startsWithObject_of_prefix (hobject : tok.IsObject object) (hpre : text <+: object)
    (hlen : text.length < object.length) : ¬ tok.StartsWithObject text := by
  rintro ⟨object', hobject', hpre'⟩
  have heq := tok.object_prefix_free hobject'.1 hobject.1 hobject'.2 hobject.2 (hpre'.trans hpre)
  rw [heq] at hpre'
  exact absurd hpre'.length_le (not_le.mpr hlen)

/-- **A chunk that begins with a request**, after a separator, leaves the request in the buffer,
whatever follows it. -/
theorem onPeerReadyRecv_of_begins (h : tok.requests.Begins chunk object) :
    ∃ peer, onPeerReadyRecv tok onPeerConnected.1 (.received chunk) = some (peer, fdStatusW) ∧
      Holding object peer ∧ peer.state = .waitForMsg := by
  have hne : chunk ≠ [] := List.ne_nil_of_mem h.start_mem
  obtain ⟨hobject, s, t, hs, rfl⟩ := h
  obtain ⟨rest, rfl⟩ : ∃ rest, object = openingBrace :: rest := hobject.eq_cons
  -- the separator, the object byte by byte, and what follows
  have hfill : rest.foldlM (recvByte tok) (filling [openingBrace], false)
      = some (filling (openingBrace :: rest), false) :=
    recvLoop_filling hobject.2.le rfl fun p hpre hlen =>
      not_startsWithObject_of_prefix hobject.1 hpre hlen
  have hholding : Holding (openingBrace :: rest) (filling (openingBrace :: rest)) :=
    ⟨rfl, Nat.succ_pos _, rfl, nofun⟩
  obtain ⟨peer, ready, hloop, hpeer⟩ : ∃ peer ready,
      t.foldlM (recvByte tok) (filling (openingBrace :: rest), false) = some (peer, ready) ∧
        Holding (openingBrace :: rest) peer := recvLoop_holding hobject hholding
  refine ⟨{ peer with state := .waitForMsg }, ?_, ⟨hpeer.recvBuf, hpeer.bufEnd, hpeer.bufPtr,
    nofun⟩, rfl⟩
  have hbytes : (s ++ (openingBrace :: rest ++ t)).foldlM (recvByte tok)
      (onPeerConnected.1, false) = some (peer, ready) := by
    rw [List.foldlM_append, recvLoop_separator rfl hs, Option.bind_eq_bind, Option.bind_some,
      List.foldlM_append, List.foldlM_cons, recvByte_brace, Option.bind_eq_bind,
      Option.bind_some, hfill, Option.bind_some]
    exact hloop
  rw [onPeerReadyRecv_connected hne, hbytes, Option.bind_eq_bind, Option.bind_some]
  exact recvEnd_holding hobject hpeer

/-- The chunk fills the buffer to its last byte, which leaves no room for the NUL that
`json_tokener_parse` looks for. -/
structure FillsBuffer (tok : JsonTokener) (chunk : List UInt8) : Prop where
  length : chunk.length = sendbufSize
  head : chunk.head? = some openingBrace
  nul : 0 ∉ chunk
  unfinished : ∀ object, ¬ tok.requests.Begins chunk object

/-- **A chunk with an unfinished request** leaves the peer in a state in which it does not receive
the next chunk, or ends the server where it fills the buffer. -/
theorem onPeerReadyRecv_of_unfinished (hstart : openingBrace ∈ chunk)
    (hlen : chunk.length ≤ sendbufSize) (h : ∀ object, ¬ tok.requests.Begins chunk object) :
    (onPeerReadyRecv tok onPeerConnected.1 (.received chunk) = none ∧ FillsBuffer tok chunk) ∨
      ∃ peer, onPeerReadyRecv tok onPeerConnected.1 (.received chunk) = some (peer, fdStatusR) ∧
        peer.mustWait = true ∧ ¬ FillsBuffer tok chunk := by
  obtain ⟨s, t, rfl, hs⟩ := List.eq_append_cons_of_mem hstart
  have hlength : (s ++ openingBrace :: t).length = s.length + (openingBrace :: t).length :=
    List.length_append
  have htext : (openingBrace :: t).length ≤ sendbufSize := by omega
  -- no part of the text that leaves room in the buffer begins with an object
  have hnone : ∀ p, p <+: openingBrace :: t → p.length < sendbufSize →
      ¬ tok.StartsWithObject p := by
    rintro p hp hplen ⟨object, hobject, hpre⟩
    obtain ⟨u, hu⟩ := hpre.trans hp
    exact h object ⟨⟨hobject, hpre.length_le.trans_lt hplen⟩, s, u, hs, by rw [hu]⟩
  have hfill : t.foldlM (recvByte tok) (filling [openingBrace], false)
      = some (filling (openingBrace :: t), false) :=
    recvLoop_filling htext rfl fun p hp hplen => hnone p hp (hplen.trans_le htext)
  have hbytes : (s ++ openingBrace :: t).foldlM (recvByte tok) (onPeerConnected.1, false)
      = some (filling (openingBrace :: t), false) := by
    rw [List.foldlM_append, recvLoop_separator rfl hs, Option.bind_eq_bind, Option.bind_some,
      List.foldlM_cons, recvByte_brace, Option.bind_eq_bind, Option.bind_some]
    exact hfill
  have hnul := cString_written_eq_none_iff htext
  rw [onPeerReadyRecv_connected (List.ne_nil_of_mem hstart), hbytes]
  rcases hstring : cString (filling (openingBrace :: t)).recvBuf with _ | string
  · refine .inl ⟨?_, ?_⟩
    · simp only [Option.bind_eq_bind, Option.bind_some, recvEnd, hstring, Option.bind_none]
    · obtain ⟨hfull, h0⟩ := hnul.mp hstring
      obtain rfl : s = [] := List.length_eq_zero_iff.mp (by omega)
      exact ⟨hfull, rfl, h0, h⟩
  · have hpre : string <+: openingBrace :: t := cString_written_prefix htext hstring
    have hparse : ¬ (tok.jsonTokenerParse string).isSome = true := by
      rcases string with _ | ⟨a, string⟩
      · simp [parse_nil]
      · obtain ⟨u, hu⟩ := hpre
        obtain rfl := (List.cons.inj hu).1
        rw [parse_isSome_iff_startsWithObject rfl]
        exact hnone _ ⟨u, hu⟩ (length_lt_of_cString hstring)
    refine .inr ⟨filling (openingBrace :: t), ?_, by simp [PeerState.mustWait, filling], ?_⟩
    · simp only [Option.bind_eq_bind, Option.bind_some, recvEnd, hstring, if_neg hparse]
      rfl
    · intro hfills
      -- the brace is the first byte of the chunk, so the text is the chunk
      obtain rfl : s = [] := by
        rcases s with _ | ⟨a, s⟩
        · rfl
        · obtain rfl : a = openingBrace := Option.some.inj hfills.head
          exact absurd List.mem_cons_self hs
      have hsome := hnul.mpr ⟨hfills.length, hfills.nul⟩
      rw [filling, hsome] at hstring
      cases hstring

/-! ### Sending a response -/

/-- The request a text is, with what `json_handle_request` is asked for. -/
def JsonTokener.request (tok : JsonTokener) (text : List UInt8) :
    List UInt8 × MonitoringRequest :=
  (text, .ofInt (((tok.jsonTokenerParse text).map tok.requestCode).getD 0))

/-- The request in the buffer is handled, and the peer is clean again when the response is sent. -/
theorem onPeerReadySend_holding (hobject : tok.requests.IsFrame object) (h : Holding object peer)
    (hstate : peer.state = .waitForMsg) (ret : ℤ) :
    onPeerReadySend tok peer ret =
      some
        { peer := if ret = -1 then { peer with recvBuf := zeros sendbufSize } else onPeerConnected.1
          status := if ret = -1 then fdStatusW else fdStatusR
          handled := some (tok.request object) } := by
  have hstring := cString_written_object hobject.2 hobject.1
  obtain ⟨obj, hobj⟩ := Option.isSome_iff_exists.mp
    ((parse_isSome_iff_startsWithObject hobject.1.2).mpr
      ⟨object, hobject.1, List.prefix_refl _⟩)
  simp only [onPeerReadySend, h.recvBuf, hstring, Option.bind_eq_bind, Option.bind_some, hobj,
    JsonTokener.request, Option.map_some, Option.getD_some]
  split_ifs with hret hinitial
  · rfl
  · exact absurd hinitial (by rw [hstate]; nofun)
  · rw [hstate]
    rfl

/-- Without a request in the buffer there is nothing to send. -/
theorem onPeerReadySend_empty (h : peer.recvBuf = zeros sendbufSize) (ret : ℤ) :
    onPeerReadySend tok peer ret = some { peer, status := fdStatusW, handled := none } := by
  have hempty : cString (zeros sendbufSize) = some [] := cString_zero (Nat.succ_pos 1023)
  obtain ⟨state, recvBuf, bufEnd, bufPtr⟩ := peer
  obtain rfl : recvBuf = zeros sendbufSize := h
  simp only [onPeerReadySend, hempty, Option.bind_eq_bind, Option.bind_some, parse_nil]
  rfl

/-! ### The connection -/

/-- A peer, what the server waits for on its socket, the chunks that `recv` has yet to return, and
the history: the requests handled and how often `send` was called. -/
structure Connection where
  peer : PeerState
  interest : FdStatus
  incoming : List (List UInt8)
  handled : List (List UInt8 × MonitoringRequest)
  sent : ℕ
  aborted : Bool

/-- What `epoll_wait` reports about the socket. -/
inductive PeerEvent
  | readable
  | writable
  deriving Repr, DecidableEq

/-- What `recv` returns next. -/
def nextRecv : List (List UInt8) → RecvOutcome
  | [] => .wouldBlock
  | chunk :: _ => .received chunk

/-- The part of `monitoring_thread` that serves a peer. An event that was not asked for does not
occur; `sends k` is what the call `k` of `send` returns. -/
def connectionStep (tok : JsonTokener) (sends : ℕ → ℤ) (c : Connection) :
    PeerEvent → Connection
  | .readable =>
    if c.interest.wantRead && !c.aborted then
      match onPeerReadyRecv tok c.peer (nextRecv c.incoming) with
      | none => { c with aborted := true }
      | some (peer, interest) =>
        let incoming := if c.peer.mustWait then c.incoming else c.incoming.tail
        { c with peer, interest, incoming }
    else c
  | .writable =>
    if c.interest.wantWrite && !c.aborted then
      match onPeerReadySend tok c.peer (sends c.sent) with
      | none => { c with aborted := true }
      | some result =>
        { c with
          peer := result.peer
          interest := result.status
          handled := c.handled ++ result.handled.toList
          sent := if result.handled.isSome then c.sent + 1 else c.sent }
    else c

/-- The connection of a new peer that will send the chunks. -/
def connectionStart (chunks : List (List UInt8)) : Connection :=
  { peer := onPeerConnected.1, interest := onPeerConnected.2, incoming := chunks, handled := []
    sent := 0, aborted := false }

/-- A stream of requests that fit in the buffer, and the chunks `recv` returns of it. -/
structure RequestStream (tok : JsonTokener) where
  objects : List (List UInt8)
  chunks : List (List UInt8)
  framed : tok.requests.Framed objects chunks.flatten
  sizes : ∀ chunk ∈ chunks, 1 ≤ chunk.length ∧ chunk.length ≤ recvSize

/-- **Framing independent of chunking**: whatever the order of the events, the requests handled
come to be the objects of the stream, each once and in order, and stay so. -/
def FramingLaw (tok : JsonTokener) (sends : ℕ → ℤ) (stream : RequestStream tok) : Prop :=
  ∀ schedule, Fair schedule → ∃ n, ∀ m, n ≤ m →
    (orbit (connectionStep tok sends) (connectionStart stream.chunks) schedule m).handled
      = stream.objects.map tok.request

/-! ### One request a chunk -/

variable {sends : ℕ → ℤ} {total : List (List UInt8 × MonitoringRequest)} {c : Connection}

/-- The responses from the call `n` of `send` on that are sent. -/
def keptFrom (sends : ℕ → ℤ) (n k : ℕ) : Prop := sends (n + k) ≠ -1

theorem keptFrom_succ (sends : ℕ → ℤ) (n : ℕ) :
    (fun k => keptFrom sends n (k + 1)) = keptFrom sends (n + 1) := by
  funext k
  rw [keptFrom, keptFrom, Nat.add_assoc, Nat.add_comm 1 k]

/-- The requests a reader of one request a chunk handles from the call `n` of `send` on. -/
noncomputable def handledFrom (tok : JsonTokener) (sends : ℕ → ℤ) (n : ℕ)
    (chunks : List (List UInt8)) : List (List UInt8 × MonitoringRequest) :=
  (tok.requests.chunkwise (keptFrom sends n) chunks).map tok.request

theorem handledFrom_of_begins {n : ℕ} {chunks : List (List UInt8)}
    (h : tok.requests.Begins chunk object) :
    handledFrom tok sends n (chunk :: chunks) =
      tok.request object :: if sends n = -1 then [] else handledFrom tok sends (n + 1) chunks := by
  rw [handledFrom, FrameFormat.chunkwise_of_begins h, keptFrom_succ, List.map_cons]
  by_cases hret : sends n = -1
  · rw [if_neg (fun hkept => hkept hret), if_pos hret, List.map_nil]
  · have hkept : keptFrom sends n 0 := hret
    rw [if_pos hkept, if_neg hret, handledFrom]

/-- The invariant of a connection that comes to handle the requests `total`: the peer is clean, or
it holds a request to be handled, or nothing more happens. -/
inductive ConnectionInv (tok : JsonTokener) (sends : ℕ → ℤ)
    (total : List (List UInt8 × MonitoringRequest)) (c : Connection) : Prop
  | clean (hpeer : c.peer = onPeerConnected.1) (hinterest : c.interest = fdStatusR)
      (haborted : c.aborted = false)
      (hsizes : ∀ chunk ∈ c.incoming, 1 ≤ chunk.length ∧ chunk.length ≤ recvSize)
      (htotal : c.handled ++ handledFrom tok sends c.sent c.incoming = total)
  | ready (object : List UInt8) (hobject : tok.requests.IsFrame object)
      (hholding : Holding object c.peer) (hstate : c.peer.state = .waitForMsg)
      (hinterest : c.interest = fdStatusW) (haborted : c.aborted = false)
      (hsizes : ∀ chunk ∈ c.incoming, 1 ≤ chunk.length ∧ chunk.length ≤ recvSize)
      (htotal : c.handled ++ (tok.request object ::
        if sends c.sent = -1 then [] else handledFrom tok sends (c.sent + 1) c.incoming) = total)
  | halted (hfixed : Fixed (connectionStep tok sends) c) (htotal : c.handled = total)

/-- The chunks left, and the response. -/
def Connection.work (c : Connection) : ℕ :=
  2 * c.incoming.length + if c.interest.wantWrite then 1 else 0

/-- The end of the server is the end of the connection. -/
theorem fixed_of_aborted (h : c.aborted = true) : Fixed (connectionStep tok sends) c := by
  intro e
  cases e <;> simp [connectionStep, h]

/-- A peer that must not be read yet and has nothing to be sent stays as it is. -/
theorem fixed_of_mustWait (hwait : c.peer.mustWait = true) (hinterest : c.interest = fdStatusR) :
    Fixed (connectionStep tok sends) c := by
  intro e
  obtain ⟨peer, interest, incoming, handled, sent, aborted⟩ := c
  obtain rfl : interest = fdStatusR := hinterest
  cases e
  · cases aborted
    · simp only [connectionStep, onPeerReadyRecv, hwait, if_true]
      rfl
    · rfl
  · rfl

/-- A peer whose request was handled and whose response was not sent stays as it is. -/
theorem fixed_of_unsent (hbuf : c.peer.recvBuf = zeros sendbufSize)
    (hinterest : c.interest = fdStatusW) : Fixed (connectionStep tok sends) c := by
  intro e
  obtain ⟨peer, interest, incoming, handled, sent, aborted⟩ := c
  obtain rfl : interest = fdStatusW := hinterest
  cases e
  · rfl
  · cases aborted
    · simp only [connectionStep, onPeerReadySend_empty hbuf, Option.toList_none, List.append_nil]
      rfl
    · rfl

/-- One step of a connection, as far as the runs of it are concerned: the invariant is kept, and
the step changes nothing, or ends the connection, or does a part of the work. -/
def StepKept (tok : JsonTokener) (sends : ℕ → ℤ) (total : List (List UInt8 × MonitoringRequest))
    (c c' : Connection) : Prop :=
  ConnectionInv tok sends total c' ∧
    (c' = c ∨ Fixed (connectionStep tok sends) c' ∨ c'.work < c.work)

/-- A connection that nothing changes any more keeps the invariant and ends. -/
theorem stepKept_of_fixed {c' : Connection} (hfixed : Fixed (connectionStep tok sends) c')
    (htotal : c'.handled = total) : StepKept tok sends total c c' :=
  ⟨.halted hfixed htotal, .inr (.inl hfixed)⟩

/-- A clean peer receives a chunk: it passes over a separator, holds the request the chunk begins
with, or is not read again. -/
theorem stepKept_recv {chunks : List (List UInt8)} {handled : List (List UInt8 × MonitoringRequest)}
    {n : ℕ} (hsizes : ∀ d ∈ chunk :: chunks, 1 ≤ d.length ∧ d.length ≤ recvSize)
    (htotal : handled ++ handledFrom tok sends n (chunk :: chunks) = total) :
    let c : Connection := ⟨onPeerConnected.1, fdStatusR, chunk :: chunks, handled, n, false⟩
    StepKept tok sends total c (connectionStep tok sends c .readable) := by
  intro c
  obtain ⟨⟨hpos, hlen⟩, htail⟩ := List.forall_mem_cons.mp hsizes
  have hne : chunk ≠ [] := List.length_pos_iff.mp hpos
  -- a chunk that begins with a request, with part of one, or with none at all
  by_cases hbegins : ∃ object, tok.requests.Begins chunk object
  · obtain ⟨object, hbegins⟩ := hbegins
    obtain ⟨peer, hrecv, hholding, hstate⟩ := onPeerReadyRecv_of_begins hbegins
    have hstep : connectionStep tok sends c .readable
        = ⟨peer, fdStatusW, chunks, handled, n, false⟩ := by
      simp only [c, connectionStep, nextRecv, hrecv]
      rfl
    rw [hstep]
    rw [handledFrom_of_begins hbegins] at htotal
    refine ⟨.ready object hbegins.1 hholding hstate rfl rfl htail htotal, .inr (.inr ?_)⟩
    simp [Connection.work, c, fdStatusW, fdStatusR]
    omega
  · rw [not_exists] at hbegins
    by_cases hstart : openingBrace ∈ chunk
    · have hend : handled = total := by
        rw [handledFrom, FrameFormat.chunkwise_of_unfinished hstart hbegins, List.map_nil,
          List.append_nil] at htotal
        exact htotal
      rcases onPeerReadyRecv_of_unfinished hstart hlen hbegins with
        ⟨hrecv, -⟩ | ⟨peer, hrecv, hwait, -⟩
      · have hstep : (connectionStep tok sends c .readable) = { c with aborted := true } := by
          simp only [c, connectionStep, nextRecv, hrecv]
          rfl
        rw [hstep]
        exact stepKept_of_fixed (fixed_of_aborted rfl) hend
      · have hstep : connectionStep tok sends c .readable
            = ⟨peer, fdStatusR, chunks, handled, n, false⟩ := by
          simp only [c, connectionStep, nextRecv, hrecv]
          rfl
        rw [hstep]
        exact stepKept_of_fixed (fixed_of_mustWait hwait rfl) hend
    · have hrecv : onPeerReadyRecv tok onPeerConnected.1 (.received chunk)
          = some (onPeerConnected.1, fdStatusR) := onPeerReadyRecv_of_separator hne hstart
      have hstep : connectionStep tok sends c .readable
          = ⟨onPeerConnected.1, fdStatusR, chunks, handled, n, false⟩ := by
        simp only [c, connectionStep, nextRecv, hrecv]
        rfl
      rw [hstep]
      rw [handledFrom, FrameFormat.chunkwise_of_separator hstart] at htotal
      refine ⟨.clean rfl rfl rfl htail htotal, .inr (.inr ?_)⟩
      simp [Connection.work, c, fdStatusR]

/-- A peer that holds a request has it handled, and is clean again when the response is sent. -/
theorem stepKept_send {chunks : List (List UInt8)} {handled : List (List UInt8 × MonitoringRequest)}
    {n : ℕ} (hobject : tok.requests.IsFrame object) (hholding : Holding object peer)
    (hstate : peer.state = .waitForMsg)
    (hsizes : ∀ d ∈ chunks, 1 ≤ d.length ∧ d.length ≤ recvSize)
    (htotal : handled ++ (tok.request object ::
      if sends n = -1 then [] else handledFrom tok sends (n + 1) chunks) = total) :
    let c : Connection := ⟨peer, fdStatusW, chunks, handled, n, false⟩
    StepKept tok sends total c (connectionStep tok sends c .writable) := by
  intro c
  have hsend := onPeerReadySend_holding hobject hholding hstate (sends n)
  -- when the send fails the connection still waits for the socket, with nothing left to send
  by_cases hret : sends n = -1
  · have hstep : connectionStep tok sends c .writable =
        ⟨{ peer with recvBuf := zeros sendbufSize }, fdStatusW, chunks,
          handled ++ [tok.request object], n + 1, false⟩ := by
      simp only [if_pos hret] at hsend
      simp only [c, connectionStep, hsend]
      rfl
    rw [hstep]
    rw [if_pos hret] at htotal
    exact stepKept_of_fixed (fixed_of_unsent rfl rfl) htotal
  · have hstep : connectionStep tok sends c .writable =
        ⟨onPeerConnected.1, fdStatusR, chunks, handled ++ [tok.request object], n + 1, false⟩ := by
      simp only [if_neg hret] at hsend
      simp only [c, connectionStep, hsend]
      rfl
    rw [hstep]
    rw [if_neg hret, List.append_cons] at htotal
    refine ⟨.clean rfl rfl rfl hsizes htotal, .inr (.inr ?_)⟩
    simp [Connection.work, c, fdStatusW, fdStatusR]

/-- **One step of a connection.** -/
theorem connectionStep_kept (h : ConnectionInv tok sends total c) (e : PeerEvent) :
    StepKept tok sends total c (connectionStep tok sends c e) := by
  obtain ⟨peer, interest, incoming, handled, sent, aborted⟩ := c
  have hinv := h
  cases h with
  | clean hpeer hinterest haborted hsizes htotal =>
    obtain rfl : peer = onPeerConnected.1 := hpeer
    obtain rfl : interest = fdStatusR := hinterest
    obtain rfl : aborted = false := haborted
    cases e with
    | readable =>
      rcases incoming with _ | ⟨chunk, chunks⟩
      · exact ⟨hinv, .inl rfl⟩
      · exact stepKept_recv hsizes htotal
    | writable => exact ⟨hinv, .inl rfl⟩
  | ready object hobject hholding hstate hinterest haborted hsizes htotal =>
    obtain rfl : interest = fdStatusW := hinterest
    obtain rfl : aborted = false := haborted
    cases e with
    | readable => exact ⟨hinv, .inl rfl⟩
    | writable => exact stepKept_send hobject hholding hstate hsizes htotal
  | halted hfixed htotal =>
    rw [hfixed e]
    exact ⟨hinv, .inl rfl⟩

/-- A connection that nothing changes any more has handled its requests. -/
theorem handled_of_fixed (h : ConnectionInv tok sends total c)
    (hfixed : Fixed (connectionStep tok sends) c) : c.handled = total := by
  obtain ⟨peer, interest, incoming, handled, sent, aborted⟩ := c
  cases h with
  | clean hpeer hinterest haborted hsizes htotal =>
    obtain rfl : peer = onPeerConnected.1 := hpeer
    obtain rfl : interest = fdStatusR := hinterest
    obtain rfl : aborted = false := haborted
    rcases incoming with _ | ⟨chunk, chunks⟩
    · exact (List.append_nil handled).symm.trans htotal
    · -- a chunk that has not been received is received, or ends the server
      have hreadable := hfixed .readable
      simp only [connectionStep, nextRecv] at hreadable
      cases hrecv : onPeerReadyRecv tok onPeerConnected.1 (.received chunk) with
      | none =>
        rw [hrecv] at hreadable
        cases congrArg Connection.aborted hreadable
      | some result =>
        rw [hrecv] at hreadable
        have hlen := congrArg (fun c => c.incoming.length) hreadable
        simp [PeerState.mustWait, onPeerConnected, fdStatusR] at hlen
  | ready object hobject hholding hstate hinterest haborted hsizes htotal =>
    obtain rfl : interest = fdStatusW := hinterest
    obtain rfl : aborted = false := haborted
    have hwritable := congrArg (fun c => c.handled.length) (hfixed .writable)
    simp only [connectionStep, onPeerReadySend_holding hobject hholding hstate] at hwritable
    simp [fdStatusW] at hwritable
  | halted _ htotal => exact htotal

/-- **What a server handles.** Under every fair schedule the requests handled come to be those of
a reader of one request a chunk, and stay so. -/
theorem eventually_handled (stream : RequestStream tok) (sends : ℕ → ℤ) {schedule : ℕ → PeerEvent}
    (hfair : Fair schedule) :
    ∃ n, ∀ m, n ≤ m →
      (orbit (connectionStep tok sends) (connectionStart stream.chunks) schedule m).handled
        = handledFrom tok sends 0 stream.chunks := by
  have hstart : ConnectionInv tok sends (handledFrom tok sends 0 stream.chunks)
      (connectionStart stream.chunks) := .clean rfl rfl rfl stream.sizes rfl
  have hstep : ∀ c e, ConnectionInv tok sends (handledFrom tok sends 0 stream.chunks) c →
      ConnectionInv tok sends (handledFrom tok sends 0 stream.chunks)
        (connectionStep tok sends c e) := fun c e h => (connectionStep_kept h e).1
  obtain ⟨n, hfixed⟩ := exists_fixed_of_fair hstart hstep
    (fun c e h => (connectionStep_kept h e).2) hfair
  refine ⟨n, fun m hm => ?_⟩
  rw [hfixed.orbit_eq hm]
  exact handled_of_fixed (orbit_induction hstart hstep n) hfixed

/-- A schedule that lets the events take turns. -/
def takingTurns (n : ℕ) : PeerEvent := if n % 2 = 0 then .readable else .writable

theorem fair_takingTurns : Fair takingTurns := by
  intro e n
  cases e with
  | readable => exact ⟨2 * n, by omega, by simp [takingTurns]⟩
  | writable => exact ⟨2 * n + 1, by omega, by simp [takingTurns]⟩

/-- The server obeys the law exactly when one request a chunk is all there is. -/
theorem framingLaw_iff_chunkwise (stream : RequestStream tok) (sends : ℕ → ℤ) :
    FramingLaw tok sends stream ↔
      tok.requests.chunkwise (keptFrom sends 0) stream.chunks = stream.objects := by
  have hinjective : Function.Injective tok.request := fun text text' h => congrArg Prod.fst h
  constructor
  · intro h
    obtain ⟨n, hn⟩ := h takingTurns fair_takingTurns
    obtain ⟨n', hn'⟩ := eventually_handled stream sends fair_takingTurns
    have heq := (hn' (max n n') (le_max_right _ _)).symm.trans (hn (max n n') (le_max_left _ _))
    exact hinjective.list_map heq
  · intro h schedule hfair
    have hhandled : handledFrom tok sends 0 stream.chunks = stream.objects.map tok.request :=
      congrArg (List.map tok.request) h
    rw [← hhandled]
    exact eventually_handled stream sends hfair

/-- **When framing is independent of chunking.** For every stream of requests that fit in the
buffer, however it is cut into chunks and whatever `send` returns, the server handles the objects
of the stream, each once and in order, exactly when every chunk is made of one object at most,
which is not cut, and every response but the last is sent. -/
theorem framingLaw_iff (tok : JsonTokener) (sends : ℕ → ℤ) (stream : RequestStream tok) :
    FramingLaw tok sends stream ↔
      (∀ chunk ∈ stream.chunks, tok.requests.SingleFrame chunk) ∧
        ∀ k, k + 1 < stream.objects.length → sends k ≠ -1 := by
  rw [framingLaw_iff_chunkwise, FrameFormat.chunkwise_eq_iff stream.framed]
  simp only [keptFrom, Nat.zero_add]

/-! ### An object cut in two -/

theorem objectEmpty : JsonObject.IsObject [0x7B, 0x7D] := by decide

/-- The empty object, of which `recv` returns the two braces one after the other. -/
def streamCut : RequestStream jsonObjects where
  objects := [[0x7B, 0x7D]]
  chunks := [[0x7B], [0x7D]]
  framed := .frame (s := []) List.not_mem_nil ⟨⟨objectEmpty, rfl⟩, by decide⟩
    (.separator List.not_mem_nil)
  sizes := by decide

/-- The object is never handled. -/
theorem framingLaw_fails_object_cut : ¬ FramingLaw jsonObjects (fun _ => 1) streamCut := by
  rw [framingLaw_iff_chunkwise, FrameFormat.chunkwise_eq_iff streamCut.framed]
  rintro ⟨hsingle, -⟩
  rcases (hsingle [0x7B] List.mem_cons_self).cases with h | ⟨object, h⟩
  · exact h.start_notMem List.mem_cons_self
  · obtain ⟨hobject, s, t, hs, hchunk⟩ := h.begins
    obtain ⟨rest, rfl⟩ : ∃ rest, object = openingBrace :: rest := hobject.eq_cons
    have hlen := congrArg List.length hchunk
    simp only [List.length_append, List.length_cons, List.length_nil] at hlen
    -- nothing but the brace is in the chunk, and it is not an object
    obtain rfl : rest = [] := List.length_eq_zero_iff.mp (by omega)
    have hbrace : JsonObject.IsObject [0x7B] := hobject.1.1
    exact absurd hbrace (by decide)

end Oscillatord
