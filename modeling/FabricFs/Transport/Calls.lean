import FabricFs.Transport.Server

/-!
# Calls of the client

`round_trip_registered` of `client.rs` with its retries, and how long a call may take. The
deadline of a request is fixed before the first attempt; every attempt waits for the full
timeout after it was published; the server compares the deadline with its clock when the
message arrives, before the handler runs, and, for a reply that names a handle, once before
and once after the reply is published.

* `published_once`: a call that may not be repeated is published at most once.
* `handle_alive_iff`: the server leaves a handle that the client was given alone exactly if
  the deadline has not passed when it looks at the clock after the reply.
* `retry_answered_iff`: a retry that reaches the server gets the handler's result exactly if
  the handler is due before the deadline of the whole call, which it never is after an
  attempt that has waited for its reply.
-/

namespace FabricFs.Transport

open Lib Lib.Prog Protocol FabricFs.Core

/-! ## Attempts -/

structure ClientConfig where
  timeout : Nat
  maxRetries : Nat
  retryBackoff : Nat
  maxFrameBytes : Nat

def requestHasAmbiguousPostPublishEffects (request : RequestEnvelope) : Bool :=
  request.operation != .release && request.operation.effect != .readOnly

def canRetryAfterPublish (request : RequestEnvelope) : Bool :=
  !requestHasAmbiguousPostPublishEffects request

def canRetryAfterPublishError (request : RequestEnvelope) (attempt attempts : Nat) : Bool :=
  canRetryAfterPublish request && decide (attempt + 1 < attempts)

def effectiveTransportDeadline (existing timeout now : Nat) : Nat :=
  let timeoutDeadline := saturatingAdd now (min timeout (2 ^ 64 - 1))
  if existing = 0 then timeoutDeadline else min existing timeoutDeadline

/-- The end of a wait: a message with its length and what it decodes to, or none. -/
inductive Waited where
  | message (length : Nat) (response : Option ResponseEnvelope)
  | timedOut
  | failed (error : RpcError)

/-- What the connection answers in one attempt. -/
structure Attempt where
  connected : Bool
  subscribed : Except RpcError Unit
  published : Except RpcError Unit
  waited : Waited

namespace ClientConfig

variable (config : ClientConfig) (request : RequestEnvelope)

/-- The checks of a message that came in time. -/
def accept (length : Nat) (response : Option ResponseEnvelope) :
    Except RpcError ResponseEnvelope :=
  if length = 0 then .error .connectionClosed
  else if length ≤ config.maxFrameBytes then
    match response with
    | none => .error .malformed
    | some response =>
      match response.validateForRequest request with
      | .ok () => .ok response
      | .error _ => .error .malformed
  else .error .frameTooLarge

/-- The loop of `round_trip_registered` from an attempt on, with the attempts that were handed
to the connection for publication. -/
def attemptsFrom (script : Nat → Attempt) : (left attempt : Nat) →
    Except RpcError ResponseEnvelope × List Nat
  | 0, _ => (.error .timeout, [])
  | left + 1, attempt =>
    let again := attemptsFrom script left (attempt + 1)
    if (script attempt).connected then
      match (script attempt).subscribed with
      | .error e => (.error e, [])
      | .ok () =>
        match (script attempt).published with
        | .error e =>
          if canRetryAfterPublishError request attempt (config.maxRetries + 1) then
            (again.1, attempt :: again.2)
          else (.error e, [attempt])
        | .ok () =>
          match (script attempt).waited with
          | .message length response => (config.accept request length response, [attempt])
          | .timedOut =>
            if canRetryAfterPublish request && decide (attempt + 1 < config.maxRetries + 1) then
              (again.1, attempt :: again.2)
            else (.error .timeout, [attempt])
          | .failed e =>
            if !canRetryAfterPublish request || attempt + 1 == config.maxRetries + 1 then
              (.error e, [attempt])
            else (again.1, attempt :: again.2)
    else (.error .connectionClosed, [])

def roundTripRegistered (script : Nat → Attempt) : Except RpcError ResponseEnvelope × List Nat :=
  config.attemptsFrom request script (config.maxRetries + 1) 0

end ClientConfig

section Attempts

variable {config : ClientConfig} {request : RequestEnvelope} {script : Nat → Attempt}

/-- A request that may have had effects is not published again. -/
theorem published_once (hEffects : canRetryAfterPublish request = false) (left attempt : Nat) :
    (config.attemptsFrom request script left attempt).2.length ≤ 1 := by
  cases left with
  | zero => exact Nat.zero_le 1
  | succ left =>
    simp only [ClientConfig.attemptsFrom, canRetryAfterPublishError, hEffects, Bool.false_and,
      Bool.false_eq_true, if_false, Bool.not_false, Bool.true_or, if_true]
    split
    · split
      · exact Nat.zero_le 1
      · split
        · exact le_rfl
        · split <;> exact le_rfl
    · exact Nat.zero_le 1

/-- An attempt that gets no reply and may be repeated. -/
structure NoReply (attempt : Attempt) : Prop where
  connected : attempt.connected = true
  subscribed : attempt.subscribed = .ok ()
  silent : (∃ e, attempt.published = .error e) ∨
    attempt.published = .ok () ∧ attempt.waited = .timedOut

/-- A call that may be repeated goes on after an attempt without a reply. -/
theorem attemptsFrom_noReply (hRetry : canRetryAfterPublish request = true) {attempt left : Nat}
    (hNone : NoReply (script attempt)) (hMore : attempt < config.maxRetries) :
    (config.attemptsFrom request script (left + 1) attempt).1 =
      (config.attemptsFrom request script left (attempt + 1)).1 := by
  have hNext : attempt + 1 < config.maxRetries + 1 := by omega
  simp only [ClientConfig.attemptsFrom, hNone.connected, if_true, hNone.subscribed]
  rcases hNone.silent with ⟨e, hError⟩ | ⟨hPublished, hWaited⟩
  · simp [hError, canRetryAfterPublishError, hRetry, hNext]
  · simp [hPublished, hWaited, hRetry, hNext]

/-- The call comes down to the first attempt that may have a reply. -/
theorem roundTrip_noReply (hRetry : canRetryAfterPublish request = true) {k : Nat}
    (hk : k ≤ config.maxRetries) (hNone : ∀ j < k, NoReply (script j)) :
    (config.roundTripRegistered request script).1 =
      (config.attemptsFrom request script (config.maxRetries + 1 - k) k).1 := by
  induction k with
  | zero => rfl
  | succ k ih =>
    rw [ih (by omega) fun j hj => hNone j (by omega)]
    obtain ⟨left, hLeft⟩ : ∃ left, config.maxRetries + 1 - k = left + 1 :=
      ⟨config.maxRetries - k, by omega⟩
    rw [hLeft, attemptsFrom_noReply hRetry (hNone k (by omega)) (by omega),
      show config.maxRetries + 1 - (k + 1) = left by omega]

end Attempts

/-! ## Handles -/

/-- The moments of one attempt, by the clock that client and server share. -/
structure Moments where
  stamped : Nat
  published : Nat
  waitStarted : Nat
  replied : Nat
  returned : Nat

/-- The moments follow each other as the code does, and the reply comes before the wait ends. -/
structure Moments.Ordered (t : Moments) (config : ClientConfig) (x : Exchange) : Prop where
  publish : t.stamped ≤ t.published
  wait : t.published ≤ t.waitStarted
  arrive : t.published ≤ x.arrivedAt
  dispatch : x.arrivedAt ≤ x.dispatchedAt
  check : x.dispatchedAt ≤ x.checkedBefore
  reply : x.checkedBefore ≤ t.replied
  checkAgain : t.replied ≤ x.checkedAfter
  deliver : t.replied ≤ t.returned
  inTime : t.returned ≤ t.waitStarted + config.timeout

/-- A call of `open` or `create` that returns the reply of the server. -/
structure OpenCall (server : FileSystemServer) (config : ClientConfig) (existing : Nat)
    (request : RequestEnvelope) (script : Nat → Attempt) (t : Moments) (x : Exchange)
    (d : Dispatcher) (response : ResponseEnvelope) (handle : Nat) : Prop where
  operation : opensObject request.operation = true
  deadline : request.deadlineUnixNanos =
    effectiveTransportDeadline existing config.timeout t.stamped
  ordered : t.Ordered config x
  decoded : x.decoded = .ok request
  replied : .replied response ∈ (server.handleMessage x ⟨d, []⟩).2.effects
  success : (config.roundTripRegistered request script).1 = .ok response
  ok : response.ok = true
  named : response.payload.bind openedHandle = some handle

/-- The server leaves the handle alone exactly if the deadline of the call, fixed when the
client stamped the request, has not passed when it looks at the clock after the reply. -/
theorem handle_alive_iff (server : FileSystemServer) (config : ClientConfig) (existing : Nat)
    (request : RequestEnvelope) (script : Nat → Attempt) (t : Moments) (x : Exchange)
    (d : Dispatcher) (response : ResponseEnvelope) (handle : Nat)
    (h : OpenCall server config existing request script t x d response handle) :
    (server.handleMessage x ⟨d, []⟩).2.releases handle = 0 ↔
      (effectiveTransportDeadline existing config.timeout t.stamped = 0 ∨
        x.checkedAfter < effectiveTransportDeadline existing config.timeout t.stamped) := by
  rw [releases_after_reply h.decoded h.replied h.ok h.named, Expired, h.deadline]
  omega

def sampleConfig : ClientConfig := ⟨1000, 0, 0, 4096⟩

def sampleResponse : ResponseEnvelope :=
  ⟨currentVersion, [114], .openObject, [110], 1000, true, none, some (.openObject 7 0), []⟩

def sampleScript : Nat → Attempt := fun _ =>
  ⟨true, .ok (), .ok (), .message 100 (some sampleResponse)⟩

/-- The request is stamped at the time 0 and the reply is back at the time 20. -/
def sampleMoments : Moments := ⟨0, 5, 6, 10, 20⟩

/-- The server looks at the clock in time. -/
theorem handle_alive_in_time :
    ((sampleServer 4096).handleMessage (sampleExchange 11) ⟨.new, []⟩).2.releases 7 = 0 := by
  refine (handle_alive_iff (sampleServer 4096) sampleConfig 0 sampleOpen sampleScript sampleMoments
    (sampleExchange 11) .new sampleResponse 7 ⟨rfl, by decide +kernel, ?_, rfl, by decide +kernel,
      by decide +kernel, rfl, rfl⟩).2 (.inr (by decide +kernel))
  constructor <;> decide

/-- The reply goes out at the time 10 and the client has it at the time 20. The server is held up
after the publication, looks at the clock at the time 1000 and gives the handle back. -/
theorem handle_withdrawn_after_reply :
    OpenCall (sampleServer 4096) sampleConfig 0 sampleOpen sampleScript sampleMoments
      (sampleExchange 1000) .new sampleResponse 7 ∧
    ((sampleServer 4096).handleMessage (sampleExchange 1000) ⟨.new, []⟩).2.releases 7 = 1 := by
  refine ⟨⟨rfl, by decide +kernel, ?_, rfl, by decide +kernel, by decide +kernel, rfl, rfl⟩,
    by decide +kernel⟩
  constructor <;> decide

/-! ## Retries -/

/-- A server that has no reason but the time to refuse the message, and whose handler answers
with the payload. -/
structure Willing (server : FileSystemServer) (x : Exchange) (request : RequestEnvelope)
    (payload : ResponsePayload) : Prop where
  hasReply : x.hasReply = true
  fits : x.length ≤ server.maxFrameBytes
  decoded : x.decoded = .ok request
  verified : x.verified = true
  claimed : x.claimed = .ok true
  entered : x.entered = .ok ()
  valid : request.validate = .ok ()
  limits : checkLimits server.limits request.payload (x.call request).metadata = .ok ()
  authorized : x.authorized = .ok ()
  handled : x.handled = .ok payload
  answer : payload.validateForRequest request.payload = .ok ()

/-- The message arrives and is due for the handler within its time. -/
def InTime (server : FileSystemServer) (x : Exchange) (request : RequestEnvelope) : Prop :=
  x.dispatchedAt < request.deadlineUnixNanos ∧
    request.deadlineUnixNanos ≤ saturatingAdd x.arrivedAt server.maxAuthenticatedRequestTtlNanos

theorem authenticatedReplayOrExpiryResponse_eq_none {server : FileSystemServer}
    {request : RequestEnvelope} {now : Nat} {claimed : Except RpcError Bool} :
    server.authenticatedReplayOrExpiryResponse request now claimed = none ↔
      now < request.deadlineUnixNanos ∧ request.deadlineUnixNanos ≤
        saturatingAdd now server.maxAuthenticatedRequestTtlNanos ∧ claimed = .ok true := by
  unfold FileSystemServer.authenticatedReplayOrExpiryResponse
  split
  · rename_i hZero
    simp [hZero]
  · split
    · rename_i hLate
      simp only [reduceCtorEq, false_iff]
      omega
    · split
      · rename_i hLong
        simp only [reduceCtorEq, false_iff]
        omega
      · rename_i hTime hShort
        have hTime : now < request.deadlineUnixNanos := by omega
        have hShort := Nat.le_of_not_gt hShort
        split <;> simp [hTime, hShort]

theorem validateBeforeHandler_eq_ok {limits : ResourceLimits} {x : Exchange}
    {request : RequestEnvelope} :
    validateBeforeHandler limits (x.call request) = .ok () ↔ request.validate = .ok () ∧
      (request.deadlineUnixNanos = 0 ∨ x.dispatchedAt < request.deadlineUnixNanos) ∧
      checkLimits limits request.payload (x.call request).metadata = .ok () ∧
      x.authorized = .ok () := by
  simp only [validateBeforeHandler, check_bind_eq_ok, mapError_eq_ok, require_eq_ok,
    Exchange.call, beq_self_eq_true, true_and, Bool.or_eq_true, beq_iff_eq]
  exact and_congr_right fun _ => and_congr_left fun _ =>
    or_congr_right ⟨of_decide_eq_true, decide_eq_true⟩

section Retries

variable {server : FileSystemServer} {config : ClientConfig} {x : Exchange}
  {request : RequestEnvelope} {payload : ResponsePayload} {d : Dispatcher}
  {response : ResponseEnvelope}

theorem Willing.answered (h : Willing server x request payload) (hTime : InTime server x request)
    (hOrder : x.arrivedAt ≤ x.dispatchedAt) : Answered server x request payload where
  hasReply := h.hasReply
  fits := h.fits
  decoded := h.decoded
  verified := h.verified
  claimed := authenticatedReplayOrExpiryResponse_eq_none.2
    ⟨Nat.lt_of_le_of_lt hOrder hTime.1, hTime.2, h.claimed⟩
  entered := h.entered
  checked := validateBeforeHandler_eq_ok.2 ⟨h.valid, .inr hTime.1, h.limits, h.authorized⟩
  handled := h.handled

/-- In time the reply is the handler's answer. -/
theorem Willing.reply_in_time (h : Willing server x request payload)
    (hTime : InTime server x request) (hOrder : x.arrivedAt ≤ x.dispatchedAt)
    (hReply : .replied response ∈ (server.handleMessage x ⟨d, []⟩).2.effects) :
    response.payload = some payload ∧ response.validateForRequest request = .ok () := by
  have hAnswered := h.answered hTime hOrder
  by_cases hFits : server.Fits (server.answer x request ⟨d, []⟩)
  · obtain ⟨bytes, d', -, hRun⟩ := hAnswered.handleMessage_fits hFits
    rw [hRun] at hReply
    have hOwn := keeps_iff.1 (deliver_replied _ x) ⟨d', []⟩
      (fun r hr => (List.not_mem_nil hr).elim) response hReply
    have hSuccess := dispatch_of_accepted
      (accepted_of_valid hAnswered.checked hAnswered.handled h.answer) d
    rw [hOwn]
    exact ⟨by rw [FileSystemServer.answer, hSuccess.1]; rfl, hSuccess.2⟩
  · obtain ⟨error, d', hRun⟩ := hAnswered.handleMessage_fails hFits
    rw [hRun] at hReply
    exact (List.not_mem_nil hReply).elim

/-- An answer that the client accepts is a success if it has a payload. -/
theorem ok_of_accept {length : Nat} {r : ResponseEnvelope}
    (h : config.accept request length (some response) = .ok r) (hPayload : r.payload.isSome) :
    r = response ∧ r.ok = true := by
  unfold ClientConfig.accept at h
  split at h
  · cases h
  · split at h
    · dsimp only at h
      split at h
      · rename_i hValid
        cases h
        refine ⟨rfl, ?_⟩
        by_contra hOk
        simp [ResponseEnvelope.validateForRequest,
          ResponseEnvelope.validateIdentityAndPayloadForRequest,
          ResponseEnvelope.validateIdentityAndPayload, check_bind_eq_ok, hOk,
          require_eq_ok] at hValid
        simp [hValid] at hPayload
      · cases h
    · cases h

/-- The attempts of a call that may be repeated, up to the first one that reaches the server. -/
structure RetryRun (server : FileSystemServer) (config : ClientConfig) (existing stamped : Nat)
    (request : RequestEnvelope) (script : Nat → Attempt) (sent : Nat → Nat) (k : Nat)
    (x : Exchange) (d : Dispatcher) (length : Nat) (response : ResponseEnvelope)
    (payload : ResponsePayload) : Prop where
  operation : request.operation = .release ∨ request.operation.effect = .readOnly
  retries : 1 ≤ config.maxRetries
  attempt : k ≤ config.maxRetries
  deadline : request.deadlineUnixNanos = effectiveTransportDeadline existing config.timeout stamped
  /-- The attempts before it get no reply and take their time. -/
  noReply : ∀ j < k, NoReply (script j)
  first : stamped ≤ sent 0
  failed : ∀ j < k, ∀ e, (script j).published = .error e →
    sent j + config.retryBackoff ≤ sent (j + 1)
  waited : ∀ j < k, (script j).published = .ok () → (script j).waited = .timedOut →
    sent j + config.timeout + config.retryBackoff ≤ sent (j + 1)
  /-- The server receives it at once. -/
  arrived : x.arrivedAt = sent k
  dispatched : x.arrivedAt ≤ x.dispatchedAt
  willing : Willing server x request payload
  /-- Its reply comes before the wait ends. -/
  connected : (script k).connected = true
  subscribed : (script k).subscribed = .ok ()
  published : (script k).published = .ok ()
  replied : .replied response ∈ (server.handleMessage x ⟨d, []⟩).2.effects
  received : (script k).waited = .message length (some response)
  frame : length ≠ 0 ∧ length ≤ config.maxFrameBytes

namespace RetryRun

variable {existing stamped : Nat} {script : Nat → Attempt} {sent : Nat → Nat} {k length : Nat}

theorem result (h : RetryRun server config existing stamped request script sent k x d length
    response payload) :
    (config.roundTripRegistered request script).1 =
      config.accept request length (some response) := by
  have hRetry : canRetryAfterPublish request = true := by
    rcases h.operation with hOp | hOp
    · simp [canRetryAfterPublish, requestHasAmbiguousPostPublishEffects, hOp]
    · simp [canRetryAfterPublish, requestHasAmbiguousPostPublishEffects, hOp]
  obtain ⟨left, hLeft⟩ : ∃ left, config.maxRetries + 1 - k = left + 1 := by
    have := h.attempt
    exact ⟨config.maxRetries - k, by omega⟩
  rw [roundTrip_noReply hRetry h.attempt h.noReply, hLeft]
  simp [ClientConfig.attemptsFrom, h.connected, h.subscribed, h.published, h.received]

theorem sent_mono (h : RetryRun server config existing stamped request script sent k x d length
    response payload) {i j : Nat} (hij : i ≤ j) (hj : j ≤ k) : sent i ≤ sent j := by
  induction j with
  | zero => rw [Nat.le_zero.1 hij]
  | succ j ih =>
    rcases Nat.lt_or_ge i (j + 1) with hLt | hGe
    · have hStep : sent j ≤ sent (j + 1) := by
        rcases (h.noReply j (by omega)).silent with ⟨e, hError⟩ | ⟨hPublished, hWaited⟩
        · have := h.failed j (by omega) e hError
          omega
        · have := h.waited j (by omega) hPublished hWaited
          omega
      exact Nat.le_trans (ih (by omega) (by omega)) hStep
    · rw [Nat.le_antisymm hij hGe]

end RetryRun

theorem effectiveTransportDeadline_le (existing timeout now : Nat) :
    effectiveTransportDeadline existing timeout now ≤ now + timeout := by
  simp only [effectiveTransportDeadline, saturatingAdd]
  split <;> omega

/-- A retry that reaches the server gets the handler's result exactly if the handler is due
before the deadline of the whole call. After an attempt that has waited out its timeout the
deadline is over. -/
theorem retry_answered_iff (server : FileSystemServer) (config : ClientConfig)
    (existing stamped : Nat) (request : RequestEnvelope) (script : Nat → Attempt)
    (sent : Nat → Nat) (k : Nat) (x : Exchange) (d : Dispatcher) (length : Nat)
    (response : ResponseEnvelope) (payload : ResponsePayload)
    (h : RetryRun server config existing stamped request script sent k x d length response
      payload) :
    ((∃ r, (config.roundTripRegistered request script).1 = .ok r ∧ r.payload = some payload) ↔
      x.dispatchedAt < effectiveTransportDeadline existing config.timeout stamped ∧
        effectiveTransportDeadline existing config.timeout stamped ≤
          saturatingAdd (sent k) server.maxAuthenticatedRequestTtlNanos) ∧
    ∀ j < k, (script j).published = .ok () → (script j).waited = .timedOut →
      effectiveTransportDeadline existing config.timeout stamped ≤ x.dispatchedAt := by
  rw [← h.deadline, ← h.arrived, h.result]
  refine ⟨⟨?_, fun hTime => ?_⟩, fun j hj hPublished hWaited => ?_⟩
  · rintro ⟨r, hAccept, hPayload⟩
    obtain ⟨rfl, hOk⟩ := ok_of_accept hAccept (by rw [hPayload]; rfl)
    obtain ⟨hAnswer, hClaimed, -⟩ := reply_origin h.willing.decoded h.replied hOk
    have hClaimed := authenticatedReplayOrExpiryResponse_eq_none.1 hClaimed
    obtain ⟨p, hAccepted, -⟩ :=
      dispatch_ok (show (server.answer x request ⟨d, []⟩).ok = true from hAnswer ▸ hOk)
    have hChecked := validateBeforeHandler_eq_ok.1 (check_bind_eq_ok.1 hAccepted).1
    refine ⟨?_, hClaimed.2.1⟩
    rcases hChecked.2.1 with hZero | hDue
    · omega
    · exact hDue
  · obtain ⟨hPayload, hValid⟩ := h.willing.reply_in_time hTime h.dispatched h.replied
    refine ⟨response, ?_, hPayload⟩
    simp [ClientConfig.accept, h.frame.1, h.frame.2, hValid]
  · have hBound := effectiveTransportDeadline_le existing config.timeout stamped
    have hFirst := h.sent_mono (Nat.zero_le j) (by omega)
    have hWait := h.waited j hj hPublished hWaited
    have hLast := h.sent_mono (show j + 1 ≤ k from hj) le_rfl
    have hDispatched := h.dispatched
    have hStamped := h.first
    rw [h.arrived] at hDispatched
    rw [h.deadline]
    omega

end Retries

/-- Read the link `/f`, stamped at the time 0. -/
def sampleReadlink : RequestEnvelope :=
  ⟨currentVersion, [114], .readlink, [110], 1000, .readlink (some [slash, 102])⟩

def retryConfig : ClientConfig := ⟨1000, 1, 10, 4096⟩

/-- The message arrives and is dispatched at the given time. -/
def retryExchange (now : Nat) : Exchange :=
  { sampleExchange now with
    decoded := .ok sampleReadlink
    arrivedAt := now
    dispatchedAt := now
    handled := .ok (.readlink [103]) }

/-- An attempt without a reply, and one with the given reply. -/
def retryScript (first : Attempt) (response : ResponseEnvelope) : Nat → Attempt
  | 0 => first
  | _ => ⟨true, .ok (), .ok (), .message 100 (some response)⟩

def readlinkResponse : ResponseEnvelope :=
  ⟨currentVersion, [114], .readlink, [110], 1000, true, none, some (.readlink [103]), []⟩

/-- The first attempt could not be published; the second comes in time. -/
theorem retry_after_failed_publish :
    ∃ r, (retryConfig.roundTripRegistered sampleReadlink
      (retryScript ⟨true, .ok (), .error .transport, .timedOut⟩ readlinkResponse)).1 = .ok r ∧
      r.payload = some (.readlink [103]) := by
  refine (retry_answered_iff (sampleServer 4096) retryConfig 0 0 sampleReadlink
    (retryScript ⟨true, .ok (), .error .transport, .timedOut⟩ readlinkResponse) (fun j => 10 * j) 1
    (retryExchange 10) .new 100 readlinkResponse (.readlink [103]) ?_).1.2 (by decide +kernel)
  have hFirst : ∀ j < 1, j = 0 := fun j hj => Nat.lt_one_iff.1 hj
  constructor
  case willing => constructor <;> decide +kernel
  case noReply =>
    intro j hj
    rw [hFirst j hj]
    exact ⟨rfl, rfl, .inl ⟨_, rfl⟩⟩
  case failed =>
    intro j hj
    rw [hFirst j hj]
    exact fun _ _ => by decide
  case waited =>
    intro j hj hPublished
    rw [hFirst j hj] at hPublished
    cases hPublished
  case received => rfl
  all_goals decide +kernel

/-- The first attempt waits for 1000; the second reaches the server at the time 1010 and is
refused, although the handler would have answered at once. -/
theorem retry_refused_after_timeout :
    RetryRun (sampleServer 4096) retryConfig 0 0 sampleReadlink
      (retryScript ⟨true, .ok (), .ok (), .timedOut⟩ (.failureFor sampleReadlink 110))
      (fun j => 1010 * j) 1 (retryExchange 1010) .new 100 (.failureFor sampleReadlink 110)
      (.readlink [103]) ∧
    (retryConfig.roundTripRegistered sampleReadlink
      (retryScript ⟨true, .ok (), .ok (), .timedOut⟩ (.failureFor sampleReadlink 110))).1 =
      .ok (.failureFor sampleReadlink 110) := by
  refine ⟨?_, by decide +kernel⟩
  have hFirst : ∀ j < 1, j = 0 := fun j hj => Nat.lt_one_iff.1 hj
  constructor
  case willing => constructor <;> decide +kernel
  case noReply =>
    intro j hj
    rw [hFirst j hj]
    exact ⟨rfl, rfl, .inr ⟨rfl, rfl⟩⟩
  case failed =>
    intro j hj e hError
    rw [hFirst j hj] at hError
    cases hError
  case waited =>
    intro j hj
    rw [hFirst j hj]
    exact fun _ _ => by decide
  case received => rfl
  all_goals decide +kernel

end FabricFs.Transport
