import FabricFs.Lib.Prog
import FabricFs.Core.Dispatcher

/-!
# The server side of the transport

How `server.rs` and `policy.rs` handle one message: decode it, check its deadline and that it
is no replay, dispatch it, encode the answer and deliver it. Between the handler that opens an
object and the reply that names its handle lie several exits; the handle has to be given back
at each of them.

What the outside contributes to the handling of one message is an `Exchange`: the message, the
answers of the authorizer, the service and the connection, and every reading of the clock.
Protocol buffers are a parameter of the server.

* `accepted_of_valid`, `dispatch_rejected`: what the dispatcher makes of a handler's answer.
* `deliver_opened`, `deliver_failure`: what a delivery leaves behind.
* `no_leak_iff`: a handle that the handler opened is given back exactly once if no reply goes
  out, and kept if one does, exactly if the answer can be encoded within the frame limit and
  the handler's payload is valid or the failure that replaces it is published.
* `oversized_answer_leaks`: an answer over the limit leaves the handle open.
-/

namespace FabricFs.Transport

open Lib Lib.Prog Protocol FabricFs.Core List Bool

/-! ## Errors, effects and inputs -/

/-- `RpcError`, without the texts. -/
inductive RpcError where
  | connectionClosed | frameTooLarge | timeout | malformed | transport
  deriving DecidableEq, Repr

/-- What the handling of a message does to the outside. -/
inductive Effect where
  | invalidated (invalidation : Invalidation)
  | replied (response : ResponseEnvelope)
  | released (handle : Nat)
  deriving DecidableEq, Repr

/-- The message and what the outside answers while it is handled. -/
structure Exchange where
  hasReply : Bool
  verified : Bool
  length : Nat
  /-- `decode_request` and the checks of the subject. -/
  decoded : Except RpcError RequestEnvelope
  arrivedAt : Nat
  /-- The answer of the replay cache. -/
  claimed : Except RpcError Bool
  /-- `NamespaceLocks::enter`. -/
  entered : Except RpcError Unit
  dispatchedAt : Nat
  authorized : Except FsError Unit
  handled : Except FsError ResponsePayload
  publishInvalidation : Invalidation → Except RpcError Unit
  checkedBefore : Nat
  publishReply : Except RpcError Unit
  checkedAfter : Nat
  /-- The answer of the service to a release. -/
  release : Except FsError Unit

structure FileSystemServer where
  maxFrameBytes : Nat
  maxAuthenticatedRequestTtlNanos : Nat
  limits : ResourceLimits
  encodeResponse : ResponseEnvelope → Except ProtocolError Text

/-- The dispatcher, and what was done to the outside so far. -/
structure Handling where
  dispatcher : Dispatcher
  effects : List Effect

abbrev ServerM (α : Type) : Type := Prog Exchange Handling RpcError α

def emit (effect : Effect) : ServerM Unit :=
  change fun s => { s with effects := s.effects ++ [effect] }

/-- Addition of 64-bit numbers that stops at the greatest one. -/
def saturatingAdd (a b : Nat) : Nat := min (a + b) (2 ^ 64 - 1)

/-! ## Handling -/

namespace FileSystemServer

variable (server : FileSystemServer)

def checkFrameLen (length : Nat) : ServerM Unit :=
  ensure (length ≤ server.maxFrameBytes) .frameTooLarge

def decodeRequestForSubject : ServerM RequestEnvelope := do
  let x ← ask
  server.checkFrameLen x.length
  result x.decoded

/-- `authenticated_replay_or_expiry_response`: the failure that answers the request, if any. -/
def authenticatedReplayOrExpiryResponse (request : RequestEnvelope) (now : Nat)
    (claimed : Except RpcError Bool) : Option ResponseEnvelope :=
  if request.deadlineUnixNanos = 0 then some (.failureFor request 22)
  else if request.deadlineUnixNanos ≤ now then some (.failureFor request 110)
  else if request.deadlineUnixNanos > saturatingAdd now server.maxAuthenticatedRequestTtlNanos then
    some (.failureFor request 22)
  else
    match claimed with
    | .ok true => none
    | .ok false => some (.failureFor request 13)
    | .error _ => some (.failureFor request 5)

end FileSystemServer

/-- The call of the dispatcher for a request of the exchange. -/
def Exchange.call (x : Exchange) (request : RequestEnvelope) : Call where
  request := request
  metadata := ⟨request.requestId, request.namespaceName, x.length⟩
  nowUnixNanos := x.dispatchedAt
  authorized := x.authorized
  handled := x.handled

structure PreparedMessageResponse where
  request : RequestEnvelope
  response : ResponseEnvelope
  responseBytes : Text
  /-- The response is the dispatcher's. -/
  dispatched : Bool

/-- The column `response_handle` of `OPERATION_SPECS`. -/
def opensObject : Operation → Bool
  | .openObject | .create => true
  | _ => false

def openedHandle : ResponsePayload → Option Nat
  | .openObject handle _ => some handle
  | .create _ handle => some handle
  | _ => none

structure ReleaseRequest where
  path : Option Text
  handle : Nat
  flags : Nat
  deriving DecidableEq, Repr

def releaseForHandleResponse (request : RequestEnvelope) (response : ResponseEnvelope) :
    Option ReleaseRequest :=
  if response.ok && opensObject request.operation then
    (response.payload.bind openedHandle).map fun handle =>
      ⟨request.payload.pathForRole .target, handle, 0⟩
  else none

/-- `Dispatch::abort_response_handles`. -/
def abortResponseHandles (request : RequestEnvelope) (response : ResponseEnvelope) :
    ServerM (Except FsError Unit) := do
  match releaseForHandleResponse request response with
  | none => pure (.ok ())
  | some release =>
    let x ← ask
    emit (.released release.handle)
    pure x.release

/-- `dispatch_cleanup_error`, by the error number of the service. -/
def dispatchCleanupError (error : FsError) : RpcError :=
  match error.errno with
  | 110 => .timeout
  | 90 => .frameTooLarge
  | 104 => .connectionClosed
  | 22 => .malformed
  | _ => .transport

namespace PreparedMessageResponse

variable (prepared : PreparedMessageResponse)

def abort (original : RpcError) : ServerM RpcError :=
  if prepared.dispatched then do
    match ← abortResponseHandles prepared.request prepared.response with
    | .ok () => pure original
    | .error _ => pure .transport
  else pure original

/-- `cleanup_expired_response_handles`. -/
def cleanupExpired : ServerM Unit :=
  if prepared.dispatched then do
    let released ← abortResponseHandles prepared.request prepared.response
    result (released.mapError dispatchCleanupError)
  else pure ()

def returnsBackendHandle : Bool :=
  prepared.response.ok && (prepared.response.payload.bind openedHandle).isSome

def failIfResponseDeadlineExpired (now : Nat) : ServerM Unit :=
  if prepared.returnsBackendHandle && prepared.request.deadlineUnixNanos != 0 &&
      prepared.request.deadlineUnixNanos ≤ now then do
    prepared.cleanupExpired
    throw .timeout
  else pure ()

/-- A publication; if it fails the handles of the response are given back. -/
def publish (published : Except RpcError Unit) (effect : Effect) : ServerM Unit :=
  match published with
  | .ok () => emit effect
  | .error original => do
    let error ← prepared.abort original
    throw error

end PreparedMessageResponse

open PreparedMessageResponse

/-- `deliver_prepared_response`. -/
def deliverPreparedResponse (prepared : PreparedMessageResponse) : ServerM Unit := do
  let x ← ask
  each (fun invalidation =>
    prepared.publish (x.publishInvalidation invalidation) (.invalidated invalidation))
    prepared.response.invalidations
  prepared.failIfResponseDeadlineExpired x.checkedBefore
  prepared.publish x.publishReply (.replied prepared.response)
  prepared.failIfResponseDeadlineExpired x.checkedAfter

namespace FileSystemServer

variable (server : FileSystemServer)

/-- Encode the response and check its length. -/
def encodeChecked (response : ResponseEnvelope) : ServerM Text := do
  let bytes ← result ((server.encodeResponse response).mapError fun _ => .malformed)
  server.checkFrameLen bytes.length
  pure bytes

def dispatch (request : RequestEnvelope) : ServerM ResponseEnvelope := fun x s =>
  let (response, dispatcher) := Core.dispatch server.limits (x.call request) s.dispatcher
  (.ok response, { s with dispatcher := dispatcher })

def dispatchRequest (request : RequestEnvelope) : ServerM PreparedMessageResponse := do
  let response ← server.dispatch request
  let bytes ← server.encodeChecked response
  pure ⟨request, response, bytes, true⟩

/-- Answer without the dispatcher. -/
def refuse (request : RequestEnvelope) (response : ResponseEnvelope) :
    ServerM PreparedMessageResponse := do
  let bytes ← server.encodeChecked response
  pure ⟨request, response, bytes, false⟩

def responseForMessage : ServerM PreparedMessageResponse := do
  let x ← ask
  ensure x.hasReply .malformed
  let request ← server.decodeRequestForSubject
  if x.verified then
    match server.authenticatedReplayOrExpiryResponse request x.arrivedAt x.claimed with
    | some response => server.refuse request response
    | none =>
      result x.entered
      server.dispatchRequest request
  else server.refuse request (.failureFor request 13)

def handleMessage : ServerM Unit := do
  let prepared ← server.responseForMessage
  deliverPreparedResponse prepared

end FileSystemServer

open FileSystemServer

/-! ## Answers of the dispatcher -/

section Dispatch

variable {limits : ResourceLimits} {call : Call} {payload : ResponsePayload} {d : Dispatcher}

/-- A valid payload of the handler is accepted. -/
theorem accepted_of_valid (hBefore : validateBeforeHandler limits call = .ok ())
    (hHandled : call.handled = .ok payload)
    (hValid : payload.validateForRequest call.request.payload = .ok ()) :
    acceptedPayload limits call = .ok payload := by
  unfold acceptedPayload
  refine check_bind_eq_ok.mpr ⟨hBefore, ?_⟩
  rw [hHandled]
  exact check_bind_eq_ok.mpr ⟨mapError_eq_ok.mpr hValid, rfl⟩

/-- A payload that does not fit the request is replaced by a failure. -/
theorem dispatch_rejected (hBefore : validateBeforeHandler limits call = .ok ())
    (hHandled : call.handled = .ok payload)
    (hInvalid : payload.validateForRequest call.request.payload ≠ .ok ()) :
    Core.dispatch limits call d = (.failureFor call.request 22, d) := by
  have hAccepted : acceptedPayload limits call = .error ⟨22⟩ := by
    unfold acceptedPayload
    rw [hBefore, hHandled]
    cases hCheck : payload.validateForRequest call.request.payload with
    | ok u => exact absurd hCheck hInvalid
    | error e => simp [bind, Except.bind, hCheck, Except.mapError]
  simp only [Core.dispatch, hAccepted]

end Dispatch

/-! ## Deliveries -/

/-- A reply went out. -/
def Handling.Replied (s : Handling) : Prop := ∃ response, .replied response ∈ s.effects

/-- How often the handle was given back. -/
def Handling.releases (s : Handling) (handle : Nat) : Nat := s.effects.count (.released handle)

section Effects

variable {s : Handling} {handle : Nat}

@[simp] theorem replied_append {effect : Effect} :
    Handling.Replied { s with effects := s.effects ++ [effect] } ↔
      s.Replied ∨ ∃ response, effect = .replied response := by
  simp [Handling.Replied, exists_or, eq_comm]

@[simp] theorem releases_append {effect : Effect} :
    Handling.releases { s with effects := s.effects ++ [effect] } handle =
      s.releases handle + if effect = .released handle then 1 else 0 := by
  simp [Handling.releases, count_append, count_singleton]

end Effects

/-- The reply names a handle that the handler opened. -/
structure Opened (prepared : PreparedMessageResponse) (handle : Nat) : Prop where
  dispatched : prepared.dispatched = true
  ok : prepared.response.ok = true
  names : prepared.response.payload.bind openedHandle = some handle
  operation : opensObject prepared.request.operation = true

/-- The request has run out of time. -/
def Expired (request : RequestEnvelope) (now : Nat) : Prop :=
  request.deadlineUnixNanos ≠ 0 ∧ request.deadlineUnixNanos ≤ now

instance (request : RequestEnvelope) (now : Nat) : Decidable (Expired request now) :=
  inferInstanceAs (Decidable (_ ∧ _))

section Deliver

variable {prepared : PreparedMessageResponse} {handle : Nat} {x : Exchange}

theorem Opened.abortResponseHandles_run (h : Opened prepared handle) (s : Handling) :
    abortResponseHandles prepared.request prepared.response x s =
      (.ok x.release, { s with effects := s.effects ++ [.released handle] }) := by
  simp only [abortResponseHandles, releaseForHandleResponse, h.ok, h.operation, h.names,
    Bool.and_self, if_true, Option.map_some]
  rfl

theorem Opened.abort_run (h : Opened prepared handle) (original : RpcError) (s : Handling) :
    ∃ error, prepared.abort original x s =
      (.ok error, { s with effects := s.effects ++ [.released handle] }) := by
  simp only [abort, h.dispatched, if_true, bind_run, h.abortResponseHandles_run]
  cases x.release with
  | ok u => exact ⟨original, rfl⟩
  | error e => exact ⟨.transport, rfl⟩

/-- Once the deadline has passed the handle is given back and the delivery fails. -/
theorem Opened.expired_run (h : Opened prepared handle) {now : Nat}
    (hExpired : Expired prepared.request now) (s : Handling) :
    ∃ error, prepared.failIfResponseDeadlineExpired now x s =
      (.error error, { s with effects := s.effects ++ [.released handle] }) := by
  have hReturns : prepared.returnsBackendHandle = true := by
    simp [returnsBackendHandle, h.ok, h.names]
  simp only [failIfResponseDeadlineExpired, hReturns, Bool.true_and,
    bne_iff_ne, Bool.and_eq_true, decide_eq_true_eq]
  rw [if_pos (show _ ∧ _ from hExpired)]
  simp only [cleanupExpired, h.dispatched, if_true, bind_run,
    h.abortResponseHandles_run, result_run]
  cases x.release with
  | ok u => exact ⟨.timeout, rfl⟩
  | error e => exact ⟨dispatchCleanupError e, rfl⟩

theorem unexpired_run {now : Nat} (hTime : ¬ Expired prepared.request now) (s : Handling) :
    prepared.failIfResponseDeadlineExpired now x s = (.ok (), s) := by
  simp only [failIfResponseDeadlineExpired, and_eq_true, bne_iff_ne, decide_eq_true_eq]
  rw [if_neg fun hAll => hTime ⟨hAll.1.2, hAll.2⟩]
  rfl

/-- The states on the way: no reply yet, the handle given back without one, the reply out, and
the handle given back after the reply. -/
def Fresh (handle : Nat) (s : Handling) : Prop := ¬ s.Replied ∧ s.releases handle = 0

def GivenBack (handle : Nat) (s : Handling) : Prop := ¬ s.Replied ∧ s.releases handle = 1

def Kept (handle : Nat) (s : Handling) : Prop := s.Replied ∧ s.releases handle = 0

def Withdrawn (handle : Nat) (s : Handling) : Prop := s.Replied ∧ s.releases handle = 1

theorem Opened.publish_spec (h : Opened prepared handle) {Q : Handling → Prop}
    (published : Except RpcError Unit) (effect : Effect)
    (hEffect : ∀ s, Fresh handle s → Q { s with effects := s.effects ++ [effect] }) :
    Triple x (Fresh handle) (prepared.publish published effect) (fun _ => Q)
      (GivenBack handle) := by
  intro s hs
  cases published with
  | ok u => exact hEffect s hs
  | error original =>
    obtain ⟨error, hAbort⟩ := h.abort_run (x := x) original s
    simp only [publish, bind_run, hAbort, throw_run]
    exact ⟨by simpa using hs.1, by simp [hs.2]⟩

/-- A delivery of a reply that names a handle. -/
theorem deliver_opened (h : Opened prepared handle) :
    Triple x (Fresh handle) (deliverPreparedResponse prepared)
      (fun _ s => Kept handle s ∧ ¬ Expired prepared.request x.checkedAfter)
      (fun s => GivenBack handle s ∨
        Withdrawn handle s ∧ Expired prepared.request x.checkedAfter) := by
  have hEach : ∀ invalidations : List Invalidation, Triple x (Fresh handle)
      (each (fun invalidation => prepared.publish (x.publishInvalidation invalidation)
        (.invalidated invalidation)) invalidations) (fun _ => Fresh handle)
      (GivenBack handle) := by
    intro invalidations
    induction invalidations with
    | nil => exact triple_done
    | cons invalidation rest ih =>
      refine triple_seq (h.publish_spec _ _ fun s hs => ?_) ih
      exact ⟨by simpa using hs.1, by simpa using hs.2⟩
  have hBefore : Triple x (Fresh handle)
      (prepared.failIfResponseDeadlineExpired x.checkedBefore) (fun _ => Fresh handle)
      (GivenBack handle) := by
    intro s hs
    by_cases hTime : Expired prepared.request x.checkedBefore
    · obtain ⟨error, hRun⟩ := h.expired_run hTime s
      rw [hRun]
      exact ⟨by simpa using hs.1, by simp [hs.2]⟩
    · rw [unexpired_run hTime]
      exact hs
  have hAfter : Triple x (Kept handle) (prepared.failIfResponseDeadlineExpired x.checkedAfter)
      (fun _ s => Kept handle s ∧ ¬ Expired prepared.request x.checkedAfter)
      (fun s => Withdrawn handle s ∧ Expired prepared.request x.checkedAfter) := by
    intro s hs
    by_cases hTime : Expired prepared.request x.checkedAfter
    · obtain ⟨error, hRun⟩ := h.expired_run hTime s
      rw [hRun]
      exact ⟨⟨by simpa using hs.1, by simp [hs.2]⟩, hTime⟩
    · rw [unexpired_run hTime]
      exact ⟨hs, hTime⟩
  have hReply : Triple x (Fresh handle)
      (prepared.publish x.publishReply (.replied prepared.response)) (fun _ => Kept handle)
      (GivenBack handle) :=
    h.publish_spec _ _ fun s hs => ⟨by simp, by simpa using hs.2⟩
  exact triple_ask (triple_seq ((hEach _).weaken fun s => .inl) <|
    triple_seq (hBefore.weaken fun s => .inl) <|
    triple_seq (hReply.weaken fun s => .inl) <| hAfter.weaken fun s => .inr)

/-- A failure is delivered without a release. -/
theorem deliver_failure (hOk : prepared.response.ok = false)
    (hNone : prepared.response.invalidations = []) (s : Handling) :
    (deliverPreparedResponse prepared x s).2 = match x.publishReply with
      | .ok () => { s with effects := s.effects ++ [.replied prepared.response] }
      | .error _ => s := by
  have hTime : ∀ now s, prepared.failIfResponseDeadlineExpired now x s = (.ok (), s) := by
    intro now s
    simp only [failIfResponseDeadlineExpired,
      returnsBackendHandle, hOk, Bool.false_and, Bool.false_eq_true,
      if_false, pure_run]
  have hRelease : ∀ s, abortResponseHandles prepared.request prepared.response x s =
      (.ok (.ok ()), s) := by
    intro s
    simp only [abortResponseHandles, releaseForHandleResponse, hOk, Bool.false_and,
      Bool.false_eq_true, if_false, pure_run]
  have hAbort : ∀ original s, prepared.abort original x s = (.ok original, s) := by
    intro original s
    unfold abort
    split
    · rw [bind_run, hRelease]
      rfl
    · rfl
  cases hReply : x.publishReply with
  | ok u =>
    simp only [deliverPreparedResponse, hNone, each, bind_run, ask_run, pure_run, hTime,
      publish, hReply, emit, change_run]
  | error e =>
    simp only [deliverPreparedResponse, hNone, each, bind_run, ask_run, pure_run, hTime,
      publish, hReply, hAbort, throw_run]

end Deliver

/-! ## Whole messages -/

/-- The handler was called for the request of the message and answered with the payload. -/
structure Answered (server : FileSystemServer) (x : Exchange) (request : RequestEnvelope)
    (payload : ResponsePayload) : Prop where
  hasReply : x.hasReply = true
  fits : x.length ≤ server.maxFrameBytes
  decoded : x.decoded = .ok request
  verified : x.verified = true
  claimed : server.authenticatedReplayOrExpiryResponse request x.arrivedAt x.claimed = none
  entered : x.entered = .ok ()
  checked : validateBeforeHandler server.limits (x.call request) = .ok ()
  handled : x.handled = .ok payload

/-- The response can be encoded and keeps within the frame limit. -/
def FileSystemServer.Fits (server : FileSystemServer) (response : ResponseEnvelope) : Prop :=
  ∃ bytes, server.encodeResponse response = .ok bytes ∧ bytes.length ≤ server.maxFrameBytes

section Messages

variable {server : FileSystemServer} {x : Exchange} {request : RequestEnvelope}
  {payload : ResponsePayload} {s : Handling}

theorem encodeChecked_run {response : ResponseEnvelope} (hFits : server.Fits response) :
    ∃ bytes, server.encodeChecked response x s = (.ok bytes, s) := by
  obtain ⟨bytes, hEncode, hLength⟩ := hFits
  refine ⟨bytes, ?_⟩
  simp [encodeChecked, hEncode, Except.mapError, bind_run, result_run,
    checkFrameLen, ensure, hLength]

theorem encodeChecked_fails {response : ResponseEnvelope} (hFits : ¬ server.Fits response) :
    ∃ error, server.encodeChecked response x s = (.error error, s) := by
  cases hEncode : server.encodeResponse response with
  | error e =>
    refine ⟨.malformed, ?_⟩
    simp [encodeChecked, hEncode, Except.mapError, bind_run, result_run]
  | ok bytes =>
    have hLength : ¬ bytes.length ≤ server.maxFrameBytes := fun h => hFits ⟨bytes, hEncode, h⟩
    refine ⟨.frameTooLarge, ?_⟩
    simp [encodeChecked, hEncode, Except.mapError, bind_run, result_run,
      checkFrameLen, ensure, hLength]

/-- An answered message gets as far as the encoding of the dispatcher's response. -/
theorem Answered.responseForMessage_run (h : Answered server x request payload) :
    server.responseForMessage x s = server.dispatchRequest request x s := by
  simp only [responseForMessage, bind_run, ask_run, h.hasReply, ensure, if_true,
    pure_run, decodeRequestForSubject, checkFrameLen, h.fits,
    decide_true, h.decoded, result_run, h.verified, h.claimed, h.entered]

/-- The response that the dispatcher gives to an answered message. -/
def FileSystemServer.answer (server : FileSystemServer) (x : Exchange) (request : RequestEnvelope)
    (s : Handling) : ResponseEnvelope :=
  (Core.dispatch server.limits (x.call request) s.dispatcher).1

theorem Answered.handleMessage_run (h : Answered server x request payload) :
    server.handleMessage x s = (server.encodeChecked (server.answer x request s) >>= fun bytes =>
      deliverPreparedResponse ⟨request, server.answer x request s, bytes, true⟩) x
        { s with
          dispatcher := (Core.dispatch server.limits (x.call request) s.dispatcher).2 } := by
  simp only [handleMessage, bind_run, h.responseForMessage_run,
    FileSystemServer.dispatchRequest, FileSystemServer.dispatch, FileSystemServer.answer]
  cases server.encodeChecked (Core.dispatch server.limits (x.call request) s.dispatcher).1 x _ with
  | mk res t => cases res <;> rfl

theorem Answered.handleMessage_fits (h : Answered server x request payload)
    (hFits : server.Fits (server.answer x request s)) :
    ∃ bytes d, d = (Core.dispatch server.limits (x.call request) s.dispatcher).2 ∧
      server.handleMessage x s = deliverPreparedResponse
        ⟨request, server.answer x request s, bytes, true⟩ x { s with dispatcher := d } := by
  obtain ⟨bytes, hEncode⟩ := encodeChecked_run hFits
  exact ⟨bytes, _, rfl, h.handleMessage_run.trans (bind_run_ok hEncode)⟩

theorem Answered.handleMessage_fails (h : Answered server x request payload)
    (hFits : ¬ server.Fits (server.answer x request s)) :
    ∃ error d, server.handleMessage x s = (.error error, { s with dispatcher := d }) := by
  obtain ⟨error, hEncode⟩ := encodeChecked_fails hFits
  exact ⟨error, _, h.handleMessage_run.trans (bind_run_error hEncode)⟩

/-- A handle whose reply was not sent is given back exactly once, and one whose reply was sent
by a handling that succeeds is kept. -/
def NoLeak (server : FileSystemServer) (x : Exchange) (s : Handling) (handle : Nat) : Prop :=
  (¬ (server.handleMessage x s).2.Replied → (server.handleMessage x s).2.releases handle = 1) ∧
    ((server.handleMessage x s).2.Replied → (server.handleMessage x s).1 = .ok () →
      (server.handleMessage x s).2.releases handle = 0)

/-- Only the operations that open objects are answered with a handle. -/
theorem opensObject_of_openedHandle {handle : Nat} (hOpened : openedHandle payload = some handle)
    (hRequest : request.validate = .ok ())
    (hValid : payload.validateForRequest request.payload = .ok ()) :
    opensObject request.operation = true := by
  have hPayload : opensObject payload.operation = true := by
    cases payload <;> first | rfl | cases hOpened
  have hIdentity := (check_bind_eq_ok.mp hRequest).1
  simp only [RequestEnvelope.validateIdentity, check_bind_eq_ok, require_eq_ok] at hIdentity
  have hSame := (check_bind_eq_ok.mp hValid).1
  rw [require_eq_ok, beq_iff_eq] at hSame
  rwa [eq_of_beq hIdentity.2.2.2, ← hSame]

/-- The dispatcher's response to an answered message names the handle. -/
theorem Answered.opened (h : Answered server x request payload) {handle : Nat}
    (hOpened : openedHandle payload = some handle)
    (hValid : payload.validateForRequest request.payload = .ok ()) (bytes : Text) :
    Opened ⟨request, server.answer x request s, bytes, true⟩ handle := by
  rw [answer, (dispatch_of_accepted (accepted_of_valid h.checked h.handled hValid) s.dispatcher).1]
  exact ⟨rfl, rfl, hOpened, opensObject_of_openedHandle hOpened
    (mapError_eq_ok.mp (check_bind_eq_ok.mp h.checked).1) hValid⟩

/-- The exact condition under which no handle leaks. -/
theorem no_leak_iff (server : FileSystemServer) (x : Exchange) (request : RequestEnvelope)
    (payload : ResponsePayload) (handle : Nat) (d : Dispatcher)
    (h : Answered server x request payload) (hOpened : openedHandle payload = some handle) :
    NoLeak server x ⟨d, []⟩ handle ↔
      server.Fits (server.answer x request ⟨d, []⟩) ∧
        (payload.validateForRequest request.payload = .ok () ∨ x.publishReply = .ok ()) := by
  by_cases hFits : server.Fits (server.answer x request ⟨d, []⟩)
  · obtain ⟨bytes, d', -, hRun⟩ := h.handleMessage_fits hFits
    unfold NoLeak
    rw [hRun]
    by_cases hValid : payload.validateForRequest request.payload = .ok ()
    · -- the reply names the handle, and the delivery takes care of it
      refine iff_of_true ?_ ⟨hFits, .inl hValid⟩
      have hSpec := deliver_opened (x := x) (h.opened (s := ⟨d, []⟩) hOpened hValid bytes)
        ⟨d', []⟩ ⟨fun ⟨_, hr⟩ => not_mem_nil hr, rfl⟩
      rcases hDeliver : deliverPreparedResponse
        ⟨request, server.answer x request ⟨d, []⟩, bytes, true⟩ x ⟨d', []⟩ with ⟨error | u, s'⟩
      · rw [hDeliver] at hSpec
        refine ⟨fun hNot => ?_, fun _ hOk => nomatch hOk⟩
        rcases hSpec with hBack | hLate
        · exact hBack.2
        · exact absurd hLate.1.1 hNot
      · rw [hDeliver] at hSpec
        exact ⟨fun hNot => absurd hSpec.1.1 hNot, fun _ _ => hSpec.1.2⟩
    · -- the answer is a failure, which names no handle
      have hAnswer : server.answer x request ⟨d, []⟩ = .failureFor request 22 := by
        rw [answer, dispatch_rejected h.checked h.handled hValid]
        rfl
      have hFailed : (server.answer x request ⟨d, []⟩).ok = false ∧
          (server.answer x request ⟨d, []⟩).invalidations = [] := by
        rw [hAnswer]
        exact ⟨rfl, rfl⟩
      have hDeliver : (deliverPreparedResponse
          ⟨request, server.answer x request ⟨d, []⟩, bytes, true⟩ x ⟨d', []⟩).2 = _ :=
        deliver_failure hFailed.1 hFailed.2 ⟨d', []⟩
      cases hReply : x.publishReply with
      | ok u =>
        rw [hReply] at hDeliver
        refine iff_of_true ⟨fun hNot => absurd ?_ hNot, fun _ _ => ?_⟩ ⟨hFits, .inr rfl⟩
        · rw [hDeliver]
          exact replied_append.mpr (.inr ⟨_, rfl⟩)
        · rw [hDeliver, releases_append]
          rfl
      | error e =>
        rw [hReply] at hDeliver
        refine iff_of_false (fun hNo => ?_) fun hAll => hAll.2.elim hValid nofun
        have hOnce := hNo.1 (by rw [hDeliver]; exact fun ⟨_, hr⟩ => not_mem_nil hr)
        rw [hDeliver] at hOnce
        cases hOnce
  · obtain ⟨error, d', hRun⟩ := h.handleMessage_fails hFits
    refine iff_of_false (fun hNo => ?_) fun hAll => hFits hAll.1
    unfold NoLeak at hNo
    rw [hRun] at hNo
    have hOnce := hNo.1 fun ⟨_, hr⟩ => not_mem_nil hr
    cases hOnce

end Messages

/-- A server that sends an answer with its request id, its namespace and 98 bytes more. -/
def sampleServer (maxFrameBytes : Nat) : FileSystemServer where
  maxFrameBytes := maxFrameBytes
  maxAuthenticatedRequestTtlNanos := 60000
  limits := {}
  encodeResponse := fun response =>
    .ok (response.requestId ++ response.namespaceName ++ List.replicate 98 0)

/-- Open `/f`, with the deadline 1000. -/
def sampleOpen : RequestEnvelope :=
  ⟨currentVersion, [114], .openObject, [110], 1000, .openObject (some [slash, 102]) 0 1⟩

/-- The request is handled at the time 10, the handler opens the handle 7 and everything that
is published goes out; the deadline is checked again at the given time. -/
def sampleExchange (checkedAfter : Nat) : Exchange where
  hasReply := true
  verified := true
  length := 64
  decoded := .ok sampleOpen
  arrivedAt := 10
  claimed := .ok true
  entered := .ok ()
  dispatchedAt := 10
  authorized := .ok ()
  handled := .ok (.openObject 7 0)
  publishInvalidation := fun _ => .ok ()
  checkedBefore := 10
  publishReply := .ok ()
  checkedAfter := checkedAfter
  release := .ok ()

/-- The answer to an open fits its frame. -/
theorem no_leak_iff_fitting : NoLeak (sampleServer 4096) (sampleExchange 10) ⟨.new, []⟩ 7 :=
  (no_leak_iff (sampleServer 4096) (sampleExchange 10) sampleOpen (.openObject 7 0) 7 .new
    ⟨rfl, by decide, rfl, rfl, by decide +kernel, rfl, by decide +kernel, rfl⟩ rfl).2
    ⟨⟨_, rfl, by decide +kernel⟩, .inl (by decide +kernel)⟩

/-- The request fits a frame of 64 bytes, the answer does not: the message ends with an error,
and nobody gives the handle back. -/
theorem oversized_answer_leaks :
    Answered (sampleServer 64) (sampleExchange 10) sampleOpen (.openObject 7 0) ∧
    ((sampleServer 64).handleMessage (sampleExchange 10) ⟨.new, []⟩).1 = .error .frameTooLarge ∧
    ((sampleServer 64).handleMessage (sampleExchange 10) ⟨.new, []⟩).2.effects = [] ∧
    ¬ NoLeak (sampleServer 64) (sampleExchange 10) ⟨.new, []⟩ 7 := by
  have hNone : ((sampleServer 64).handleMessage (sampleExchange 10) ⟨.new, []⟩).2.effects = [] := by
    decide +kernel
  refine ⟨⟨rfl, le_rfl, rfl, rfl, by decide +kernel, rfl, by decide +kernel, rfl⟩,
    by decide +kernel, hNone, fun hNo => ?_⟩
  have hOnce := hNo.1 fun ⟨_, hr⟩ => by
    rw [hNone] at hr
    exact not_mem_nil hr
  rw [Handling.releases, hNone] at hOnce
  cases hOnce

/-! ## Where a reply comes from -/

variable {d : Dispatcher} {x : Exchange} {server : FileSystemServer} {request : RequestEnvelope}
  {response : ResponseEnvelope}

theorem dispatch_ok {limits : ResourceLimits} {call : Call}
    (hOk : (Core.dispatch limits call d).1.ok = true) :
    ∃ payload, acceptedPayload limits call = .ok payload ∧
      (Core.dispatch limits call d).1.payload = some payload := by
  cases hAccepted : acceptedPayload limits call with
  | error e =>
    rw [Core.dispatch, hAccepted] at hOk
    cases hOk
  | ok payload => exact ⟨payload, rfl, by rw [(dispatch_of_accepted hAccepted d).1]; rfl⟩

theorem encodeChecked_keeps (server : FileSystemServer) (P : Handling → Prop)
    (response : ResponseEnvelope) : Keeps x P (server.encodeChecked response) :=
  keeps_seq (keeps_result _) <| keeps_ensured <| keeps_pure _

theorem dispatchRequest_spec (server : FileSystemServer) (d : Dispatcher)
    (request : RequestEnvelope) :
    Triple x (fun s => s = ⟨d, []⟩) (server.dispatchRequest request)
      (fun prepared s => s.effects = [] ∧ prepared.request = request ∧
        prepared.dispatched = true ∧ prepared.response = server.answer x request ⟨d, []⟩)
      (fun s => s.effects = []) := by
  have hDispatch : Triple x (fun s => s = ⟨d, []⟩) (server.dispatch request)
      (fun response s => s.effects = [] ∧ response = server.answer x request ⟨d, []⟩)
      (fun s => s.effects = []) := by
    rintro s rfl
    exact ⟨rfl, rfl⟩
  refine triple_learn hDispatch fun response hResponse => ?_
  exact triple_seq (encodeChecked_keeps server _ response) <|
    triple_pure fun s hs => ⟨hs, rfl, rfl, hResponse⟩

/-- The response is a failure, or what the dispatcher answers. -/
def Prepares (server : FileSystemServer) (x : Exchange) (request : RequestEnvelope) (d : Dispatcher)
    (prepared : PreparedMessageResponse) (s : Handling) : Prop :=
  s.effects = [] ∧ prepared.request = request ∧
    (prepared.response.ok = false ∨ prepared.dispatched = true ∧
      prepared.response = server.answer x request ⟨d, []⟩ ∧
      server.authenticatedReplayOrExpiryResponse request x.arrivedAt x.claimed = none)

/-- A message is answered by the dispatcher or refused with a failure. -/
theorem responseForMessage_spec (server : FileSystemServer) (hDecoded : x.decoded = .ok request)
    (d : Dispatcher) :
    Triple x (fun s => s = ⟨d, []⟩) server.responseForMessage (Prepares server x request d)
      (fun s => s.effects = []) := by
  have hEmpty : ∀ s : Handling, s = ⟨d, []⟩ → s.effects = [] := by
    rintro s rfl
    rfl
  have hDecode : Triple x (fun s => s = ⟨d, []⟩) server.decodeRequestForSubject
      (fun r s => s = ⟨d, []⟩ ∧ r = request) (fun s => s.effects = []) := by
    refine triple_ask (triple_then (triple_ensure hEmpty) ?_)
    refine triple_conseq (triple_result (P := fun s => s = ⟨d, []⟩) hEmpty) (fun s hs => hs.1)
      (fun r s hs => ⟨hs.1, ?_⟩) fun s hs => hs
    rw [hDecoded] at hs
    exact (Except.ok.inj hs.2).symm
  have hRefuse : ∀ response : ResponseEnvelope, response.ok = false →
      Triple x (fun s => s = ⟨d, []⟩) (server.refuse request response)
        (Prepares server x request d) (fun s => s.effects = []) := fun response hOk =>
    triple_seq ((encodeChecked_keeps server _ response).weaken hEmpty) <|
      triple_pure fun s hs => ⟨hEmpty s hs, rfl, .inl hOk⟩
  refine triple_ask (triple_then (triple_ensure hEmpty) ?_)
  refine triple_learn (triple_conseq hDecode (fun s hs => hs.1) (fun _ _ hs => hs) fun _ hs => hs)
    fun r hr => ?_
  subst hr
  refine triple_if ?_ <| hRefuse _ rfl
  split
  · rename_i response hRefused
    refine hRefuse response ?_
    unfold authenticatedReplayOrExpiryResponse at hRefused
    repeat' split at hRefused
    all_goals cases hRefused <;> rfl
  · rename_i hClaimed
    refine triple_bind (Q := fun _ s => s = ⟨d, []⟩) ?_ fun _ => ?_
    · exact (keeps_result x.entered).weaken hEmpty
    · exact triple_conseq (dispatchRequest_spec server d r) (fun s hs => hs)
        (fun prepared s hs => ⟨hs.1, hs.2.1, .inr ⟨hs.2.2.1, hs.2.2.2, hClaimed⟩⟩) fun s hs => hs

/-- No other reply went out. -/
def OnlyReply (response : ResponseEnvelope) (s : Handling) : Prop :=
  ∀ r, .replied r ∈ s.effects → r = response

section Delivery

variable {prepared : PreparedMessageResponse} {I Q : Handling → Prop}
  (hRelease : ∀ s handle, I s → I { s with effects := s.effects ++ [.released handle] })

include hRelease

theorem keeps_abortResponseHandles :
    Keeps x I (abortResponseHandles prepared.request prepared.response) := by
  unfold abortResponseHandles
  split
  · exact keeps_pure _
  · exact triple_ask <| keeps_map (keeps_change fun s hs => hRelease s _ hs)

/-- A publication that fails leaves at most a release behind. -/
theorem triple_publish (published : Except RpcError Unit) (effect : Effect)
    (hEffect : published = .ok () → ∀ s, I s → Q { s with effects := s.effects ++ [effect] }) :
    Triple x I (prepared.publish published effect) (fun _ => Q) I := by
  cases published with
  | ok u => exact hEffect rfl
  | error original =>
    refine triple_bind (Q := fun _ => I) ?_ fun _ => triple_thrown
    refine keeps_if (keeps_bind (keeps_abortResponseHandles hRelease) fun released => ?_)
      <| keeps_pure _
    cases released with
    | ok u => exact keeps_pure _
    | error e => exact keeps_pure _

theorem keeps_failIfResponseDeadlineExpired (now : Nat) :
    Keeps x I (prepared.failIfResponseDeadlineExpired now) := by
  refine keeps_if (keeps_seq ?_ <| keeps_throw _) <| keeps_pure _
  exact keeps_if (keeps_seq (keeps_abortResponseHandles hRelease) <|
    keeps_result _) <| keeps_pure _

/-- What releases and the publications keep is kept by a delivery. -/
theorem keeps_deliver
    (hPublish : ∀ i s, I s → I { s with effects := s.effects ++ [.invalidated i] })
    (hReply : ∀ s, I s → I { s with effects := s.effects ++ [.replied prepared.response] }) :
    Keeps x I (deliverPreparedResponse prepared) :=
  triple_ask <| keeps_seq (keeps_each fun i _ =>
      triple_publish hRelease _ _ fun _ => hPublish i) <|
    keeps_seq (keeps_failIfResponseDeadlineExpired hRelease _) <|
    keeps_seq (triple_publish hRelease _ _ fun _ => hReply) <|
    keeps_failIfResponseDeadlineExpired hRelease _

end Delivery

/-- A delivery publishes no reply but its own. -/
theorem deliver_replied (prepared : PreparedMessageResponse) (x : Exchange) :
    Keeps x (OnlyReply prepared.response) (deliverPreparedResponse prepared) := by
  have hOther : ∀ effect, (∀ r, effect = .replied r → r = prepared.response) → ∀ s : Handling,
      OnlyReply prepared.response s →
      OnlyReply prepared.response { s with effects := s.effects ++ [effect] } := by
    intro effect hEffect s hs r hr
    rcases mem_append.1 hr with hr | hr
    · exact hs r hr
    · exact hEffect r (mem_singleton.1 hr).symm
  exact keeps_deliver (fun s handle => hOther (.released handle) (by simp) s)
    (fun i => hOther (.invalidated i) (by simp))
    (hOther _ fun r hr => (Effect.replied.inj hr).symm)

/-- A reply that is no failure is the dispatcher's answer, and its delivery is the rest of the
handling. -/
theorem reply_origin (hDecoded : x.decoded = .ok request)
    (hReply : .replied response ∈ (server.handleMessage x ⟨d, []⟩).2.effects)
    (hOk : response.ok = true) :
    response = server.answer x request ⟨d, []⟩ ∧
      server.authenticatedReplayOrExpiryResponse request x.arrivedAt x.claimed = none ∧
      ∃ bytes s', s'.effects = [] ∧ server.handleMessage x ⟨d, []⟩ =
        deliverPreparedResponse ⟨request, response, bytes, true⟩ x s' := by
  have hPrepare := responseForMessage_spec server hDecoded d ⟨d, []⟩ rfl
  rcases hRun : server.responseForMessage x ⟨d, []⟩ with ⟨e | prepared, s'⟩
  · -- nothing was published
    rw [hRun] at hPrepare
    rw [handleMessage, bind_run_error hRun, hPrepare] at hReply
    exact (not_mem_nil hReply).elim
  · rw [hRun] at hPrepare
    obtain ⟨hEmpty, hRequest, hAnswer⟩ := hPrepare
    rw [handleMessage, bind_run_ok hRun] at hReply ⊢
    have hOwn := keeps_iff.1 (deliver_replied prepared x) s'
      (fun r hr => by rw [hEmpty] at hr; exact (not_mem_nil hr).elim) response hReply
    subst hOwn
    rcases hAnswer with hFailed | ⟨hDispatched, hAnswer, hClaimed⟩
    · rw [hOk] at hFailed
      cases hFailed
    · refine ⟨hAnswer, hClaimed, prepared.responseBytes, s', hEmpty, ?_⟩
      rw [← hRequest, ← hDispatched]

/-- After a reply that names a handle the server gives the handle back exactly if the deadline
has passed by then. -/
theorem releases_after_reply {handle : Nat} (hDecoded : x.decoded = .ok request)
    (hReply : .replied response ∈ (server.handleMessage x ⟨d, []⟩).2.effects)
    (hOk : response.ok = true) (hHandle : response.payload.bind openedHandle = some handle) :
    (server.handleMessage x ⟨d, []⟩).2.releases handle = 0 ↔ ¬ Expired request x.checkedAfter := by
  obtain ⟨hAnswer, -, bytes, s', hEmpty, hRun⟩ := reply_origin hDecoded hReply hOk
  have hOpened : Opened ⟨request, response, bytes, true⟩ handle := by
    obtain ⟨payload, hAccepted, hPayload⟩ :=
      dispatch_ok (show (server.answer x request ⟨d, []⟩).ok = true from hAnswer ▸ hOk)
    obtain ⟨hRequest, hValid⟩ := acceptedPayload_eq_ok hAccepted
    have hName := hHandle
    rw [hAnswer, answer, hPayload] at hName
    exact ⟨rfl, hOk, hHandle, opensObject_of_openedHandle hName hRequest hValid⟩
  have hFresh : Fresh handle s' := by
    rw [Fresh, Handling.Replied, Handling.releases, hEmpty]
    exact ⟨fun ⟨_, hr⟩ => not_mem_nil hr, rfl⟩
  have hSpec := deliver_opened (x := x) hOpened s' hFresh
  rw [hRun] at hReply ⊢
  rcases hDeliver : deliverPreparedResponse ⟨request, response, bytes, true⟩ x s' with ⟨e | u, s''⟩
  · rw [hDeliver] at hSpec hReply
    rcases hSpec with hBack | ⟨hLate, hExpired⟩
    · exact absurd ⟨_, hReply⟩ hBack.1
    · exact iff_of_false (by rw [hLate.2]; decide) fun hTime => hTime hExpired
  · rw [hDeliver] at hSpec
    exact iff_of_true hSpec.1.2 hSpec.2

end FabricFs.Transport
