import FabricFs.Lib.Runs
import FabricFs.Protocol.Messages

/-!
# The dispatcher and its invalidation streams

`fs-core/src/lib.rs`. The dispatcher checks a request, calls the service and answers. A
successful request that changes a path takes the next sequence number of its namespace
and issues an invalidation. The numbers are kept in one map behind one lock; a caller
that finds the lock poisoned clears the map, and answers with a full resync.

Taking a number is the only step on shared state, so the calls of any number of threads
are the sequence of their allocations, together with the panics that poison the lock.

* `successFor_eq_ok`: once a number has been taken the answer is a success.
* `gapFree_run`: in every run whose steps are all `Calm` the stream of every namespace is
  free of gaps, and a request answered with a failure takes no number.
* `recovery_restarts_other_namespace`: a recovery that another namespace runs into makes
  the numbers of a namespace start again without a full resync.
-/

namespace FabricFs.Core

open Lib Protocol ResponseEnvelope InvalidationKind

/-! ## The dispatcher -/

variable {payload : ResponsePayload} {kind : InvalidationKind} {request : RequestEnvelope}
  {name : Text} {invalidation : Invalidation} {d : Dispatcher} {limits : ResourceLimits}
  {call : Call}

structure ResourceLimits where
  maxEnvelopeBytes : Nat := 4 * 1024 * 1024
  maxReadBytes : Nat := 1024 * 1024
  maxWriteBytes : Nat := 1024 * 1024
  maxDirectoryEntries : Nat := 4096
  maxXattrBytes : Nat := 64 * 1024
  maxSymlinkTargetBytes : Nat := 4096

/-- What accompanies a request. -/
structure RpcMetadata where
  requestId : Text
  namespaceName : Text
  payloadLen : Nat

/-- A failure of the service, by its error number. -/
structure FsError where
  errno : Nat
  deriving DecidableEq, Repr

/-- The state behind the lock, and the invalidations issued so far in the order in which
they took their numbers. -/
structure Dispatcher where
  sequences : Dict Text Nat
  poisoned : Bool
  issued : List Invalidation

open Dispatcher

def Dispatcher.new : Dispatcher := ⟨∅, false, []⟩

/-- One call of `dispatch`: the request, what accompanies it, the time, and the answers of
the authorizer and the service. -/
structure Call where
  request : RequestEnvelope
  metadata : RpcMetadata
  nowUnixNanos : Nat
  authorized : Except FsError Unit
  handled : Except FsError ResponsePayload

/-- Sizes that are asked for fail with 105, sizes that are sent with 90. -/
def checkLimits (limits : ResourceLimits) (payload : RequestPayload) (metadata : RpcMetadata) :
    Except FsError Unit := do
  require (metadata.payloadLen ≤ limits.maxEnvelopeBytes) ⟨90⟩
  match payload with
  | .read _ _ _ size => require (size ≤ limits.maxReadBytes) ⟨105⟩
  | .write _ _ _ data => require (data.length ≤ limits.maxWriteBytes) ⟨90⟩
  | .readdir _ _ maxEntries => require (maxEntries ≤ limits.maxDirectoryEntries) ⟨105⟩
  | .getxattr _ _ size => require (size ≤ limits.maxXattrBytes) ⟨105⟩
  | .listxattr _ size => require (size ≤ limits.maxXattrBytes) ⟨105⟩
  | .setxattr _ _ value _ => require (value.length ≤ limits.maxXattrBytes) ⟨90⟩
  | .symlink _ target => require (target.length ≤ limits.maxSymlinkTargetBytes) ⟨90⟩
  | _ => .ok ()

/-- Payload, identity, deadline, limits and authorization, in this order. -/
def validateBeforeHandler (limits : ResourceLimits) (call : Call) : Except FsError Unit := do
  let request := call.request
  request.validate.mapError (fun _ => ⟨22⟩)
  require (call.metadata.requestId == request.requestId) ⟨22⟩
  require (call.metadata.namespaceName == request.namespaceName) ⟨22⟩
  require (request.deadlineUnixNanos == 0 || call.nowUnixNanos < request.deadlineUnixNanos) ⟨110⟩
  checkLimits limits request.payload call.metadata
  call.authorized

/-- The payload of the service, once all checks before the answer have passed. -/
def acceptedPayload (limits : ResourceLimits) (call : Call) : Except FsError ResponsePayload := do
  validateBeforeHandler limits call
  let payload ← call.handled
  (payload.validateForRequest call.request.payload).mapError (fun _ => ⟨22⟩)
  pure payload

/-- The counter of a namespace starts at 1; a release build lets it wrap. -/
def nextInvalidationSequence (name : Text) (d : Dispatcher) : Except Unit Nat × Dispatcher :=
  if d.poisoned then (.error (), { d with sequences := ∅, poisoned := false })
  else
    let current := (d.sequences.lookup name).getD 1
    (.ok current, { d with sequences := d.sequences.insert name ((current + 1) % 2 ^ 64) })

/-- The fields `path`, `old_path` and `new_path` of the invalidation. -/
def invalidationPaths : RequestPayload → Text × Text × Text
  | .rename oldPath newPath => ([], oldPath.getD [], newPath.getD [])
  | payload => (payload.primaryPath.getD [], [], [])

/-- The invalidation of a successful request. -/
def invalidationFor (request : RequestEnvelope) (payload : ResponsePayload)
    (kind : InvalidationKind) (sequence : Nat) : Invalidation where
  namespaceName := request.namespaceName
  sequence := sequence
  kind := kind.wireValue
  path := (invalidationPaths request.payload).1
  oldPath := (invalidationPaths request.payload).2.1
  newPath := (invalidationPaths request.payload).2.2
  inode := payload.createdInode.getD 0
  requestId := request.requestId

def Dispatcher.record (d : Dispatcher) (invalidation : Invalidation) : Dispatcher :=
  { d with issued := d.issued ++ [invalidation] }

/-- The invalidation of a request that changes paths in the given way. -/
def issueInvalidation (request : RequestEnvelope) (payload : ResponsePayload)
    (kind : InvalidationKind) (d : Dispatcher) : Invalidation × Dispatcher :=
  match nextInvalidationSequence request.namespaceName d with
  | (.error (), d) => (fullResyncInvalidation request.namespaceName request.requestId 0, d)
  | (.ok sequence, d) => (invalidationFor request payload kind sequence, d)

/-- A change gets one invalidation, which joins those already issued. -/
def invalidationsForSuccess (request : RequestEnvelope) (payload : ResponsePayload)
    (d : Dispatcher) : List Invalidation × Dispatcher :=
  match invalidationKindForRequest request.payload with
  | none => ([], d)
  | some kind =>
    let (invalidation, d) := issueInvalidation request payload kind d
    ([invalidation], d.record invalidation)

/-- A request that is refused leaves the dispatcher as it was. -/
def dispatch (limits : ResourceLimits) (call : Call) (d : Dispatcher) :
    ResponseEnvelope × Dispatcher :=
  match acceptedPayload limits call with
  | .error error => (.failureFor call.request error.errno, d)
  | .ok payload =>
    let (invalidations, d) := invalidationsForSuccess call.request payload d
    match successFor call.request payload invalidations with
    | .ok response => (response, d)
    | .error _ => (.failureFor call.request 22, d)

/-- `Dispatcher::full_resync_invalidation`. -/
def issueFullResync (name requestId : Text) (d : Dispatcher) : Invalidation × Dispatcher :=
  match nextInvalidationSequence name d with
  | (.error (), d) =>
    let invalidation := fullResyncInvalidation name requestId 0
    (invalidation, d.record invalidation)
  | (.ok sequence, d) =>
    let invalidation := fullResyncInvalidation name requestId sequence
    (invalidation, d.record invalidation)

/-! ## Answers after a number has been taken -/

theorem invalidationPaths_eq {payload : RequestPayload}
    (hKind : invalidationKindForRequest payload = some kind) (hRename : kind ≠ .rename) :
    invalidationPaths payload = (payload.primaryPath.getD [], [], []) := by
  cases payload with
  | rename oldPath newPath => exact absurd (Option.some.inj hKind).symm hRename
  | _ => rfl

theorem validateInvalidation_invalidationFor {sequence : Nat} (hRequest : request.validate = .ok ())
    (hKind : invalidationKindForRequest request.payload = some kind) :
    validateInvalidation (invalidationFor request payload kind sequence) = .ok () := by
  obtain ⟨hIdentity, hPayload⟩ := check_bind_eq_ok.mp hRequest
  simp only [RequestEnvelope.validateIdentity, check_bind_eq_ok, require_eq_ok] at hIdentity
  by_cases hRename : kind = .rename
  · subst hRename
    obtain ⟨oldPath, newPath, hEq, hPaths⟩ := renamePaths_valid hPayload hKind
    refine validateInvalidation_rename (by simpa [invalidationFor] using hIdentity.2.2.1) rfl ?_ ?_
    · simp [invalidationFor, hEq, invalidationPaths]
    · simpa [invalidationFor, hEq, invalidationPaths] using hPaths
  · obtain ⟨path, hPrimary, hPath, hRoot⟩ := primaryPath_valid hPayload hKind hRename
    have hEq := invalidationPaths_eq hKind hRename
    rw [hPrimary, Option.getD_some] at hEq
    have hPaths : validateInvalidationPaths (invalidationFor request payload kind sequence) kind =
        .ok () := by
      cases kind <;>
        simp_all [validateInvalidationPaths, invalidationFor, validateRequiredInvalidationPath_ok,
          validateRequiredNonRootInvalidationPath_ok]
    unfold validateInvalidation
    refine check_bind_eq_ok.mpr ⟨require_eq_ok.mpr hIdentity.2.2.1, ?_⟩
    simp only [invalidationFor, ofWire_wireValue, hEq] at hPaths ⊢
    change (validateInvalidationPaths _ kind >>= _) = _
    simp [hPaths, validateOptionalPath_ok hPath]

theorem validateInvalidation_fullResync {requestId : Text} {sequence : Nat}
    (hName : name.isEmpty = false) :
    validateInvalidation (fullResyncInvalidation name requestId sequence) = .ok () := by
  simp only [validateInvalidation, fullResyncInvalidation, ofWire_wireValue]
  rw [check_bind_eq_ok, require_eq_ok, hName]
  exact ⟨rfl, rfl⟩

/-- A checked request and a checked payload with valid invalidations give an answer. -/
theorem successFor_eq_ok {invalidations : List Invalidation} (hRequest : request.validate = .ok ())
    (hPayload : payload.validateForRequest request.payload = .ok ())
    (hInvalidations : invalidations.forM validateInvalidation = .ok ()) :
    ∃ response, successFor request payload invalidations = .ok response ∧ response.ok = true := by
  have hIdentity := (check_bind_eq_ok.mp hRequest).1
  simp only [RequestEnvelope.validateIdentity, check_bind_eq_ok, require_eq_ok] at hIdentity
  obtain ⟨-, hId, hName, hOperation⟩ := hIdentity
  have hParts := hPayload
  simp only [ResponsePayload.validateForRequest, check_bind_eq_ok, require_eq_ok] at hParts
  have hSame : request.operation = payload.operation := by
    rw [eq_of_beq hOperation, eq_of_beq hParts.1]
  refine ⟨⟨currentVersion, request.requestId, request.operation, request.namespaceName,
    request.deadlineUnixNanos, true, none, some payload, invalidations⟩, ?_, rfl⟩
  unfold successFor
  simp [hRequest, hSame, hPayload, validateForRequest, validateIdentityAndPayloadForRequest,
    validateIdentityAndPayload, hInvalidations, hId, hName, hParts.2.1]

/-! ## The streams -/

/-- The invalidations that were issued for a namespace, in order. -/
def Dispatcher.stream (d : Dispatcher) (name : Text) : List Invalidation :=
  d.issued.filter (fun invalidation => invalidation.namespaceName == name)

/-- The sequence number of the last invalidation, or the given one. -/
def lastSequence (start : Nat) (stream : List Invalidation) : Nat :=
  (stream.getLast?.map Invalidation.sequence).getD start

/-- Each invalidation is a full resync or one above the number before it. -/
def GapFree : Nat → List Invalidation → Prop
  | _, [] => True
  | last, invalidation :: rest =>
    (invalidation.kind = fullResync.wireValue ∨
      invalidation.sequence = last + 1) ∧ GapFree invalidation.sequence rest

instance decidableGapFree : ∀ last stream, Decidable (GapFree last stream)
  | _, [] => isTrue trivial
  | last, invalidation :: rest =>
    have := decidableGapFree invalidation.sequence rest
    inferInstanceAs (Decidable ((invalidation.kind = fullResync.wireValue ∨
      invalidation.sequence = last + 1) ∧ GapFree invalidation.sequence rest))

theorem gapFree_concat {start : Nat} {stream : List Invalidation} (hStream : GapFree start stream)
    (hNext : invalidation.kind = fullResync.wireValue ∨ invalidation.sequence =
      lastSequence start stream + 1) :
    GapFree start (stream ++ [invalidation]) := by
  induction stream generalizing start with
  | nil => exact ⟨hNext, trivial⟩
  | cons first rest ih =>
    refine ⟨hStream.1, ih hStream.2 ?_⟩
    refine hNext.imp_right fun h => ?_
    cases rest with
    | nil => exact h
    | cons second rest => simpa [lastSequence, List.getLast?_cons] using h

/-- One event at the dispatcher: a call, a full resync asked for by the watcher or at
start, or a panic of a thread that holds the lock. -/
inductive Event where
  | dispatch (call : Call)
  | fullResync (name requestId : Text)
  | panic

def step (limits : ResourceLimits) (event : Event) (d : Dispatcher) : Dispatcher :=
  match event with
  | .dispatch call => (dispatch limits call d).2
  | .fullResync name requestId => (issueFullResync name requestId d).2
  | .panic => { d with poisoned := true }

/-- A number can be taken for the namespace without harm to a stream: a recovery finds no
counter of another namespace, and the counter has not wrapped. -/
def Undisturbed (name : Text) (d : Dispatcher) : Prop :=
  if d.poisoned then ∀ other, other ≠ name → d.sequences.lookup other = none
  else d.sequences.lookup name ≠ some 0

/-- The condition on one event. -/
def Calm (limits : ResourceLimits) (event : Event) (d : Dispatcher) : Prop :=
  match event with
  | .dispatch call =>
    (∃ payload, acceptedPayload limits call = .ok payload) →
      call.request.payload.requiresPathInvalidation = true →
        Undisturbed call.request.namespaceName d
  | .fullResync name _ => Undisturbed name d
  | .panic => True

/-- The counter of every namespace is one above its last number, and all streams are free
of gaps. -/
structure Sequenced (d : Dispatcher) : Prop where
  gapFree : ∀ name, GapFree 0 (d.stream name)
  bounded : ∀ name, lastSequence 0 (d.stream name) < 2 ^ 64
  counter : ∀ name, (d.sequences.lookup name).getD 1 = (lastSequence 0 (d.stream name) + 1) % 2 ^ 64

theorem sequenced_new : Sequenced new where
  gapFree _ := trivial
  bounded _ := Nat.two_pow_pos 64
  counter _ := rfl

@[simp] theorem lastSequence_concat (start : Nat) (stream : List Invalidation)
    (invalidation : Invalidation) :
    lastSequence start (stream ++ [invalidation]) = invalidation.sequence := by
  simp [lastSequence]

theorem stream_record (d : Dispatcher) (invalidation : Invalidation) (name : Text) :
    (d.record invalidation).stream name =
      if invalidation.namespaceName = name then d.stream name ++ [invalidation]
      else d.stream name := by
  by_cases hName : invalidation.namespaceName = name
  · simp [stream, record, hName]
  · simp [stream, record, hName]

theorem Sequenced.next (h : Sequenced d) (hCalm : Undisturbed name d) (hLock : d.poisoned = false) :
    (d.sequences.lookup name).getD 1 = lastSequence 0 (d.stream name) + 1 := by
  have hBound := h.bounded name
  have hCounter := h.counter name
  simp only [Undisturbed, hLock, Bool.false_eq_true, if_false] at hCalm
  cases hc : d.sequences.lookup name with
  | none =>
    rw [hc] at hCounter
    simp only [Option.getD_none] at hCounter ⊢
    omega
  | some current =>
    rw [hc] at hCounter hCalm
    simp only [Option.getD_some] at hCounter ⊢
    have hNe : current ≠ 0 := fun h => hCalm (by rw [h])
    omega

/-- An invalidation is added to one stream and the counters follow. -/
theorem sequenced_record {d' : Dispatcher} (h : Sequenced d) (hIssued : d'.issued = d.issued)
    (hNext : invalidation.kind = fullResync.wireValue ∨ invalidation.sequence =
      lastSequence 0 (d.stream invalidation.namespaceName) + 1)
    (hBound : invalidation.sequence < 2 ^ 64)
    (hCounter : (d'.sequences.lookup invalidation.namespaceName).getD 1 = (invalidation.sequence +
      1) % 2 ^ 64)
    (hOthers : ∀ other, other ≠ invalidation.namespaceName → (d'.sequences.lookup other).getD 1 =
      (d.sequences.lookup other).getD 1) :
    Sequenced (d'.record invalidation) := by
  have hStream : ∀ name, d'.stream name = d.stream name := fun name => by
    rw [stream, hIssued, stream]
  constructor <;> intro name <;> rw [stream_record, hStream] <;> split
  · rename_i hName
    exact gapFree_concat (h.gapFree name) (hName ▸ hNext)
  · exact h.gapFree name
  · rw [lastSequence_concat]
    exact hBound
  · exact h.bounded name
  · rename_i hName
    rw [lastSequence_concat, ← hName]
    exact hCounter
  · rename_i hName
    exact (hOthers name fun hEq => hName hEq.symm).trans (h.counter name)

/-- Taking a number and recording the invalidation it is for. -/
theorem sequenced_take {d' : Dispatcher} {taken : Except Unit Nat} (h : Sequenced d)
    (hCalm : Undisturbed invalidation.namespaceName d)
    (hTake : nextInvalidationSequence invalidation.namespaceName d = (taken, d'))
    (hTaken : taken = .ok invalidation.sequence ∨ taken = .error () ∧ invalidation.sequence = 0 ∧
      invalidation.kind = fullResync.wireValue) :
    Sequenced (d'.record invalidation) := by
  unfold nextInvalidationSequence at hTake
  split at hTake
  · rename_i hLock
    cases hTake
    simp only [Undisturbed, hLock, if_true] at hCalm
    rcases hTaken with hOk | ⟨-, hZero, hKind⟩
    · cases hOk
    · refine sequenced_record h rfl (.inl hKind) (by omega) (by rw [hZero]; rfl) ?_
      intro other hOther
      rw [hCalm other hOther]
      rfl
  · rename_i hLock
    rw [Bool.not_eq_true] at hLock
    have hNext := h.next hCalm hLock
    have hCounter := h.counter invalidation.namespaceName
    cases hTake
    rcases hTaken with hOk | ⟨hError, -⟩
    · have hSequence : (d.sequences.lookup invalidation.namespaceName).getD 1 =
          invalidation.sequence := by simpa using hOk
      refine sequenced_record h rfl (.inr (hSequence ▸ hNext)) (by omega) ?_ ?_
      · simp [AList.lookup_insert, hSequence]
      · intro other hOther
        rw [AList.lookup_insert_ne hOther]
    · cases hError

theorem sequenced_issueInvalidation (h : Sequenced d)
    (hCalm : Undisturbed request.namespaceName d) :
    Sequenced ((issueInvalidation request payload kind d).2.record
      (issueInvalidation request payload kind d).1) := by
  unfold issueInvalidation
  split
  · rename_i d' hTake
    exact sequenced_take h hCalm hTake (.inr ⟨rfl, rfl, rfl⟩)
  · rename_i sequence d' hTake
    exact sequenced_take h hCalm hTake (.inl rfl)

theorem sequenced_issueFullResync {requestId : Text} (h : Sequenced d)
    (hCalm : Undisturbed name d) : Sequenced (issueFullResync name requestId d).2 := by
  unfold issueFullResync
  split
  · rename_i d' hTake
    exact sequenced_take h hCalm hTake (.inr ⟨rfl, rfl, rfl⟩)
  · rename_i sequence d' hTake
    exact sequenced_take h hCalm hTake (.inl rfl)

theorem sequenced_dispatch (h : Sequenced d) (hCalm : Calm limits (.dispatch call) d) :
    Sequenced (dispatch limits call d).2 := by
  unfold dispatch
  split
  · exact h
  · rename_i payload hAccepted
    have hKeep : Sequenced (invalidationsForSuccess call.request payload d).2 := by
      unfold invalidationsForSuccess
      split
      · exact h
      · rename_i kind hKind
        refine sequenced_issueInvalidation h (hCalm ⟨payload, hAccepted⟩ ?_)
        rw [requiresPathInvalidation_iff, hKind]
        rfl
    simp only
    split <;> exact hKeep

theorem sequenced_step (limits : ResourceLimits) (event : Event) (d : Dispatcher)
    (h : Sequenced d) (hCalm : Calm limits event d) : Sequenced (step limits event d) := by
  cases event with
  | dispatch call => exact sequenced_dispatch h hCalm
  | fullResync name requestId => exact sequenced_issueFullResync h hCalm
  | panic => exact ⟨h.gapFree, h.bounded, h.counter⟩

/-! ## Failures -/

theorem acceptedPayload_eq_ok (h : acceptedPayload limits call = .ok payload) :
    call.request.validate = .ok () ∧ payload.validateForRequest call.request.payload = .ok () := by
  unfold acceptedPayload at h
  obtain ⟨hBefore, h⟩ := check_bind_eq_ok.mp h
  refine ⟨mapError_eq_ok.mp (check_bind_eq_ok.mp hBefore).1, ?_⟩
  cases hHandled : call.handled with
  | error e =>
    rw [hHandled] at h
    cases h
  | ok handled =>
    rw [hHandled] at h
    obtain ⟨hCheck, hEq⟩ := check_bind_eq_ok.mp h
    cases hEq
    exact mapError_eq_ok.mp hCheck

/-- The invalidations of an accepted request pass their check. -/
theorem invalidationsForSuccess_valid (payload : ResponsePayload) (d : Dispatcher)
    (hRequest : request.validate = .ok ()) :
    (invalidationsForSuccess request payload d).1.forM validateInvalidation = .ok () := by
  have hName : request.namespaceName.isEmpty = false := by
    have hIdentity := (check_bind_eq_ok.mp hRequest).1
    simp only [RequestEnvelope.validateIdentity, check_bind_eq_ok, require_eq_ok] at hIdentity
    simpa using hIdentity.2.2.1
  unfold invalidationsForSuccess
  split
  · rfl
  · rename_i kind hKind
    refine check_bind_eq_ok.mpr ⟨?_, rfl⟩
    split
    · exact validateInvalidation_fullResync hName
    · exact validateInvalidation_invalidationFor hRequest hKind

/-- The answer to a request whose payload is accepted. -/
def successResponse (request : RequestEnvelope) (payload : ResponsePayload)
    (invalidations : List Invalidation) : ResponseEnvelope :=
  ⟨currentVersion, request.requestId, request.operation, request.namespaceName,
    request.deadlineUnixNanos, true, none, some payload, invalidations⟩

theorem dispatch_of_accepted (hAccepted : acceptedPayload limits call = .ok payload)
    (d : Dispatcher) :
    dispatch limits call d = (successResponse call.request payload
        (invalidationsForSuccess call.request payload d).1,
        (invalidationsForSuccess call.request payload d).2) ∧
      (dispatch limits call d).1.validateForRequest call.request = .ok () := by
  obtain ⟨hRequest, hPayload⟩ := acceptedPayload_eq_ok hAccepted
  obtain ⟨response, hSuccess, -⟩ := successFor_eq_ok hRequest hPayload
    (invalidationsForSuccess_valid payload d hRequest)
  have hParts := hSuccess
  simp only [successFor, check_bind_eq_ok] at hParts
  obtain ⟨-, -, -, hValid, hEq⟩ := hParts
  obtain rfl := Except.ok.inj hEq
  simp only [dispatch, hAccepted, hSuccess]
  exact ⟨rfl, hValid⟩

/-- A request answered with a failure has taken no number. -/
theorem dispatch_failure (h : (dispatch limits call d).1.ok = false) :
    (dispatch limits call d).2 = d := by
  cases hAccepted : acceptedPayload limits call with
  | error e => rw [dispatch, hAccepted]
  | ok payload =>
    rw [(dispatch_of_accepted hAccepted d).1] at h
    cases h

/-! ## Runs -/

/-- Every stream is free of gaps, and a failed request takes no number, in every state that
a run of calm events reaches. -/
theorem gapFree_run (limits : ResourceLimits) (events : List Event)
    (hCalm : Runs.Along (step limits) (Calm limits) events new) :
    let d := Runs.run (step limits) events new
    (∀ name, GapFree 0 (d.stream name)) ∧
      ∀ call, (dispatch limits call d).1.ok = false → (dispatch limits call d).2 = d :=
  ⟨(Runs.run_invariant (sequenced_step limits) sequenced_new hCalm).gapFree,
    fun _ => dispatch_failure⟩

/-- A write of one byte to `/f`, which the service carries out. -/
def writeCall (name requestId : Text) : Call where
  request := ⟨currentVersion, requestId, .write, name, 0, .write (some [slash, 102]) 1 0 [0]⟩
  metadata := ⟨requestId, name, 64⟩
  nowUnixNanos := 0
  authorized := .ok ()
  handled := .ok (.write 1)

/-- Two writes get the sequence numbers 1 and 2. -/
theorem gapFree_run_two_writes :
    let events := [Event.dispatch (writeCall [98] [1]), Event.dispatch (writeCall [98] [2])]
    let d := Runs.run (step {}) events new
    (d.stream [98]).map Invalidation.sequence = [1, 2] ∧ (∀ name, GapFree 0 (d.stream name)) ∧
      ∀ call, (dispatch {} call d).1.ok = false → (dispatch {} call d).2 = d := by
  refine ⟨by decide +kernel, gapFree_run {} _ ⟨fun _ _ => ?_, fun _ _ => ?_, trivial⟩⟩
  · change AList.lookup _ _ ≠ some 0
    decide +kernel
  · change AList.lookup _ _ ≠ some 0
    decide +kernel

/-- The lock is poisoned after two writes in `b`. The next write in `a` recovers it, and the
stream of `b` goes on with the number 1. -/
theorem recovery_restarts_other_namespace :
    let events := [Event.dispatch (writeCall [98] [1]), .dispatch (writeCall [98] [2]), .panic,
      .dispatch (writeCall [97] [3]), .dispatch (writeCall [98] [4])]
    let d := Runs.run (step {}) events new
    (d.stream [98]).map Invalidation.sequence = [1, 2, 1] ∧ ¬ GapFree 0 (d.stream [98]) := by
  decide +kernel

end FabricFs.Core
