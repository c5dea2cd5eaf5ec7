import Oscillatord.Library.Frames
import Oscillatord.Library.JsonObject
import Oscillatord.Library.ObjectRep
import Oscillatord.Monitoring.Request

/-!
# A peer of the monitoring socket

The state kept for a connected peer and its two handlers. `onPeerReadyRecv` appends the bytes it
receives to `recv_buf` until they begin with a complete JSON value; `onPeerReadySend` handles the
request in the buffer and sends the response. `buf_end` is both where the next byte goes and, for
the test at the beginning of `onPeerReadyRecv`, the end of data waiting to be sent.

The JSON library is a parameter: which texts are values, which of them `json_tokener_parse`
accepts, and what it reads in them (`JsonTokener`).
-/

namespace Oscillatord

open ObjectRep

/-! ### The JSON library -/

/-- The brace every JSON object begins with. -/
def openingBrace : UInt8 := 0x7B

/-- The JSON library: the texts that are complete values, `json_tokener_parse`, which accepts the
texts that begin with one, and the integer found in the member `request` of what it returns. -/
structure JsonTokener where
  Json : Type
  IsValue : List UInt8 → Prop
  jsonTokenerParse : List UInt8 → Option Json
  requestCode : Json → ℤ
  parse_isSome_iff : ∀ text,
    (jsonTokenerParse text).isSome ↔ ∃ value, IsValue value ∧ value <+: text
  not_isValue_nil : ¬ IsValue []
  object_nul_notMem : ∀ {text}, IsValue text → text.head? = some openingBrace → 0 ∉ text
  object_prefix_free : ∀ {text text'}, IsValue text → IsValue text' →
    text.head? = some openingBrace → text'.head? = some openingBrace → text <+: text' →
      text = text'

/-- A JSON object: a value that begins with a brace. -/
def JsonTokener.IsObject (tok : JsonTokener) (text : List UInt8) : Prop :=
  tok.IsValue text ∧ text.head? = some openingBrace

/-- The objects are the only values, and an object has no member `request`. -/
def jsonObjects : JsonTokener where
  Json := List UInt8
  IsValue := JsonObject.IsObject
  jsonTokenerParse text := text.inits.find? fun value => JsonObject.IsObject value
  requestCode _ := 0
  parse_isSome_iff text := by
    simp only [List.find?_isSome, List.mem_inits, decide_eq_true_eq]
    exact ⟨fun ⟨v, hpre, hv⟩ => ⟨v, hv, hpre⟩, fun ⟨v, hv, hpre⟩ => ⟨v, hpre, hv⟩⟩
  not_isValue_nil := by decide
  object_nul_notMem h _ := h.nul_notMem
  object_prefix_free h h' _ _ hpre := h.prefix_free h' hpre

/-! ### The state of a peer -/

/-- `SENDBUF_SIZE`. -/
abbrev sendbufSize : ℕ := 1024

/-- `ProcessingState`. -/
inductive ProcessingState
  | initialAck
  | waitForMsg
  | inMsg
  deriving Repr, DecidableEq

/-- `peer_state_t`. -/
structure PeerState where
  state : ProcessingState
  recvBuf : Bytes sendbufSize
  bufEnd : ℕ
  bufPtr : ℕ

/-- `fd_status_t`: what the server waits for on the socket of a peer. -/
structure FdStatus where
  wantRead : Bool
  wantWrite : Bool
  deriving Repr, DecidableEq

/-- `fd_status_R`. -/
def fdStatusR : FdStatus := ⟨true, false⟩

/-- `fd_status_W`. -/
def fdStatusW : FdStatus := ⟨false, true⟩

/-- `fd_status_NORW`: the socket is closed. -/
def fdStatusNorw : FdStatus := ⟨false, false⟩

/-- `on_peer_connected`: nothing of an earlier peer on the same socket is kept. -/
def onPeerConnected : PeerState × FdStatus :=
  ({ state := .waitForMsg, recvBuf := zeros sendbufSize, bufPtr := 0, bufEnd := 0 }, fdStatusR)

/-! ### Receiving -/

/-- What `recv` returns: bytes, none of them when the peer has disconnected, or an error, which
may be that nothing has arrived. -/
inductive RecvOutcome
  | received (bytes : List UInt8)
  | wouldBlock
  | failed
  deriving Repr, DecidableEq

/-- The test that keeps `on_peer_ready_recv` from receiving. -/
def PeerState.mustWait (peer : PeerState) : Bool :=
  peer.state = .initialAck || peer.bufPtr < peer.bufEnd

variable (tok : JsonTokener)

/-- `sizeof buf`: how many bytes one call of `recv` returns at most. -/
abbrev recvSize : ℕ := 1024

/-- One turn of the loop over the bytes received, on the peer and `ready_to_send`. The turn does
not end (`none`) when an assertion fails or the buffer has no NUL. -/
def recvByte (s : PeerState × Bool) (b : UInt8) : Option (PeerState × Bool) :=
  match s.1.state with
  | .initialAck => none
  | .waitForMsg =>
    if b = openingBrace then
      some ({ s.1 with
        state := .inMsg
        recvBuf := Function.update s.1.recvBuf 0 b
        bufEnd := s.1.bufEnd + 1 }, s.2)
    else some s
  | .inMsg => do
    let text ← cString s.1.recvBuf
    if (tok.jsonTokenerParse text).isSome then some ({ s.1 with state := .waitForMsg }, true)
    else if h : s.1.bufEnd < sendbufSize then
      some ({ s.1 with
        recvBuf := Function.update s.1.recvBuf ⟨s.1.bufEnd, h⟩ b
        bufEnd := s.1.bufEnd + 1 }, s.2)
    else none

/-- The parse that follows the loop. -/
def recvEnd (s : PeerState × Bool) : Option (PeerState × FdStatus) := do
  let text ← cString s.1.recvBuf
  let s := if (tok.jsonTokenerParse text).isSome then ({ s.1 with state := .waitForMsg }, true)
    else s
  return (s.1, { wantRead := !s.2, wantWrite := s.2 })

/-- `on_peer_ready_recv`. -/
def onPeerReadyRecv (peer : PeerState) (outcome : RecvOutcome) : Option (PeerState × FdStatus) :=
  if peer.mustWait then some (peer, fdStatusR)
  else
    match outcome with
    | .received [] => some (peer, fdStatusNorw)
    | .wouldBlock => some (peer, fdStatusR)
    | .failed => some (peer, fdStatusNorw)
    | .received bytes => bytes.foldlM (recvByte tok) (peer, false) >>= recvEnd tok

/-! ### Sending -/

/-- What `on_peer_ready_send` returns, and the text and the number of the request it handled. -/
structure SendResult where
  peer : PeerState
  status : FdStatus
  handled : Option (List UInt8 × MonitoringRequest)

/-- `on_peer_ready_send`: the buffer is cleared, the request is handled and `send` returns `ret`.
The cursors are reset only when the response was sent. -/
def onPeerReadySend (peer : PeerState) (ret : ℤ) : Option SendResult := do
  let text ← cString peer.recvBuf
  let peer := { peer with recvBuf := zeros sendbufSize }
  match tok.jsonTokenerParse text with
  | none => return { peer, status := fdStatusW, handled := none }
  | some obj =>
    let handled := some (text, MonitoringRequest.ofInt (tok.requestCode obj))
    if ret = -1 then return { peer, status := fdStatusW, handled }
    else
      let state := if peer.state = .initialAck then .waitForMsg else peer.state
      return { peer := { peer with state, bufPtr := 0, bufEnd := 0 }, status := fdStatusR, handled }

/-! ### The buffer -/

variable {tok} {object text : List UInt8} {peer : PeerState} {b : UInt8} {ready : Bool}

/-- An object that a text begins with. -/
def JsonTokener.StartsWithObject (tok : JsonTokener) (text : List UInt8) : Prop :=
  ∃ object, tok.IsObject object ∧ object <+: text

/-- A string that begins with a brace is accepted exactly when it begins with an object. -/
theorem parse_isSome_iff_startsWithObject (h : text.head? = some openingBrace) :
    (tok.jsonTokenerParse text).isSome ↔ tok.StartsWithObject text := by
  rw [tok.parse_isSome_iff]
  constructor
  · rintro ⟨value, hvalue, hpre⟩
    rcases value with _ | ⟨a, value⟩
    · exact absurd hvalue tok.not_isValue_nil
    · obtain ⟨more, rfl⟩ := hpre
      exact ⟨a :: value, ⟨hvalue, h⟩, more, rfl⟩
  · rintro ⟨object, hobject, hpre⟩
    exact ⟨object, hobject.1, hpre⟩

/-- Nothing is not a request. -/
theorem parse_nil : tok.jsonTokenerParse [] = none := by
  rw [← Option.not_isSome_iff_eq_none, tok.parse_isSome_iff]
  rintro ⟨value, hvalue, hpre⟩
  rw [List.prefix_nil.mp hpre] at hvalue
  exact tok.not_isValue_nil hvalue

/-- The string in a buffer filled with an object is the object. -/
theorem cString_written_object (hlen : object.length < sendbufSize) (h : tok.IsObject object) :
    cString (written sendbufSize object) = some object := by
  have hall : ∀ a ∈ object, decide (a ≠ 0) = true := fun a ha => by
    rw [decide_eq_true_eq]
    rintro rfl
    exact tok.object_nul_notMem h.1 h.2 ha
  rw [cString_written hlen, List.takeWhile_eq_self_iff.mpr hall]

/-- The string in a buffer filled with a text is accepted exactly when the text begins with an
object. -/
theorem exists_cString_written (hlen : text.length < sendbufSize)
    (hhead : text.head? = some openingBrace) :
    ∃ string, cString (written sendbufSize text) = some string ∧
      ((tok.jsonTokenerParse string).isSome ↔ tok.StartsWithObject text) := by
  refine ⟨_, cString_written hlen, ?_⟩
  have hhead' : (text.takeWhile (· ≠ 0)).head? = some openingBrace := by
    obtain ⟨rest, rfl⟩ := List.head?_eq_some_iff.mp hhead
    rfl
  rw [parse_isSome_iff_startsWithObject hhead']
  constructor
  · rintro ⟨object, hobject, hpre⟩
    exact ⟨object, hobject, hpre.trans (List.takeWhile_prefix _)⟩
  · rintro ⟨object, hobject, more, rfl⟩
    -- an object has no NUL, so the string does not end before it
    have hall : ∀ a ∈ object, decide (a ≠ 0) = true := fun a ha => by
      rw [decide_eq_true_eq]
      rintro rfl
      exact tok.object_nul_notMem hobject.1 hobject.2 ha
    refine ⟨object, hobject, ?_⟩
    rw [List.takeWhile_append_of_pos hall]
    exact List.prefix_append _ _

end Oscillatord
