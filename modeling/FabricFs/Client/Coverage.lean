import FabricFs.Client.FailClosed
import FabricFs.Core.Dispatcher

/-!
# What the server announces and what the client expects

The dispatcher issues an invalidation for a successful mutation, and the adapter of the
client refuses a success that does not carry it. Between them the transport client puts a
scope before the request id and takes it away again.

* `exists_covering`: what the dispatcher issues is what the adapter expects.
* `success_satisfies_adapter`: every success of the dispatcher passes the adapter, also by
  way of the transport client, and the two agree on which operations change paths.
-/

namespace FabricFs.Client

open Lib Protocol FabricFs.Core RequiredPathInvalidation CacheKernel Bool

/-! ## The transport client -/

variable {request : RequestEnvelope} {payload : ResponsePayload} {invalidations : List Invalidation}
  {response : ResponseEnvelope} {limits : ResourceLimits} {call : Call}
  {required : RequiredPathInvalidation}

/-- The byte `:`. -/
def colon : UInt8 := 58

def scopeRequestId (scope requestId : Text) : Text := scope ++ colon :: requestId

/-- The deadline is the caller's or that of the transport's timeout. -/
def requestWithTransportScope (scope : Text) (deadline : Nat) (request : RequestEnvelope) :
    RequestEnvelope :=
  { request with
    requestId := scopeRequestId scope request.requestId, deadlineUnixNanos := deadline }

/-- The caller's request id for the scoped one. -/
def restoredId (callerId scopedId requestId : Text) : Text :=
  if requestId = scopedId then callerId else requestId

def restoreCallerRequestId (callerId scopedId : Text) (response : ResponseEnvelope) :
    ResponseEnvelope :=
  { response with
    requestId := restoredId callerId scopedId response.requestId
    invalidations := response.invalidations.map fun invalidation =>
      { invalidation with requestId := restoredId callerId scopedId invalidation.requestId } }

/-! ## Coverage -/

/-- What is issued for a request tells of its change, under the id of that request. -/
theorem covers_invalidationFor {kind : InvalidationKind}
    (hKind : invalidationKindForRequest request.payload = some kind)
    (hRequired : forRequestAndResponse request.payload payload = some required) (sequence : Nat) :
    required.matchesKind (invalidationFor request payload kind sequence) kind = true := by
  rw [forRequestAndResponse_eq, hKind] at hRequired
  by_cases hRename : kind = .rename
  · subst hRename
    simp only [Option.bind_eq_some_iff, Option.map_eq_some_iff] at hRequired
    obtain ⟨oldPath, hOld, newPath, hNew, rfl⟩ := hRequired
    cases hPayload : request.payload with
    | rename old new =>
      rw [hPayload] at hOld hNew
      simp [matchesKind, invalidationFor, invalidationPaths, hPayload,
        show old = some oldPath from hOld, show new = some newPath from hNew]
    | openObject path flags openKind =>
      rw [hPayload, invalidationKindForRequest] at hKind
      split at hKind <;> cases hKind
    | _ =>
      rw [hPayload] at hKind
      cases hKind
  · have hPaths := invalidationPaths_eq hKind hRename
    cases kind with
    | create =>
      simp only [Option.bind_eq_some_iff, Option.map_eq_some_iff] at hRequired
      obtain ⟨path, hPath, inode, hInode, rfl⟩ := hRequired
      simp [matchesKind, invalidationFor, hPaths, hPath, hInode]
    | rename => exact absurd rfl hRename
    | fullResync => rfl
    | modify | delete | metadata | xattr =>
      simp only [Option.map_eq_some_iff] at hRequired
      obtain ⟨path, hPath, rfl⟩ := hRequired
      simp [matchesKind, invalidationFor, hPaths, hPath]

/-- The dispatcher issues what the adapter expects, if the adapter expects anything. -/
theorem exists_covering
    (hRequired : forRequestAndResponse request.payload payload = some required) (d : Dispatcher) :
    ∃ invalidation ∈ (invalidationsForSuccess request payload d).1,
      required.covers request invalidation = true := by
  have hSome : ∃ kind, invalidationKindForRequest request.payload = some kind := by
    rw [forRequestAndResponse_eq] at hRequired
    cases hKind : invalidationKindForRequest request.payload with
    | none =>
      rw [hKind] at hRequired
      cases hRequired
    | some kind => exact ⟨kind, rfl⟩
  obtain ⟨kind, hKind⟩ := hSome
  unfold invalidationsForSuccess
  simp only [hKind]
  refine ⟨_, List.mem_singleton_self _, ?_⟩
  unfold issueInvalidation
  split
  · simp [covers, fullResyncInvalidation, matchesKind]
  · rename_i sequence d' hTake
    have hMatch := covers_invalidationFor hKind hRequired sequence
    simp only [covers, invalidationFor, beq_self_eq_true, Bool.true_and,
      InvalidationKind.ofWire_wireValue] at hMatch ⊢
    exact hMatch

/-- Coverage asks for the same payload, name and id only. -/
theorem covers_restored {other : RequestEnvelope} {invalidation : Invalidation}
    (hName : other.namespaceName = request.namespaceName)
    (hCovers : required.covers other invalidation = true) :
    required.covers request { invalidation with
      requestId := restoredId request.requestId other.requestId invalidation.requestId } =
        true := by
  simp only [covers, and_eq_true, beq_iff_eq] at hCovers ⊢
  obtain ⟨⟨hOther, hId⟩, hMatch⟩ := hCovers
  refine ⟨⟨hOther.trans hName, if_pos hId⟩, ?_⟩
  cases hWire : InvalidationKind.ofWire invalidation.kind with
  | error e => simp [hWire] at hMatch
  | ok kind =>
    rw [hWire] at hMatch
    cases kind <;> exact hMatch

/-! ## The adapter -/

/-- A checked invalidation is refused at most as stale. -/
theorem apply_of_valid {invalidation : Invalidation}
    (hValid : validateInvalidation invalidation = .ok ()) (name : Text) (baseline : Bool)
    (k : CacheKernel) :
    (∃ resync, (k.applyInvalidation name invalidation baseline).1 = .ok resync) ∨
      (k.applyInvalidation name invalidation baseline).1 = .error .staleCache := by
  have hNonempty : invalidation.namespaceName.isEmpty = false := by
    simpa using (check_bind_eq_ok.mp hValid).1
  obtain ⟨kind, hKind⟩ := ofWire_of_valid hValid
  have hChange : ∀ k : CacheKernel, (k.applyChange kind invalidation).1 = .ok false := by
    intro k
    cases kind with
    | rename =>
      have hRename := rename_ok (c := k.cache) (renamePaths_of_valid hValid hKind)
      simp only [applyChange]
      rcases hr : k.cache.rename invalidation.oldPath invalidation.newPath with ⟨_ | u, c⟩
      · rw [hr] at hRename
        cases hRename
      · rfl
    | _ => rfl
  have hSequenced : (k.applySequenced kind invalidation baseline).1 = .ok false ∨
      (k.applySequenced kind invalidation baseline).1 = .error .staleCache := by
    simp only [applySequenced]
    split
    · exact .inl (hChange k)
    · split
      · exact .inr rfl
      · exact .inl (hChange _)
  unfold applyInvalidation
  rw [hNonempty, hValid, hKind]
  by_cases hName : invalidation.namespaceName = name
  · rw [if_neg Bool.false_ne_true, if_neg (not_not.mpr hName)]
    cases kind with
    | fullResync => exact .inl ⟨true, rfl⟩
    | _ => exact hSequenced.imp (fun h => ⟨false, h⟩) id
  · rw [if_neg Bool.false_ne_true, if_pos hName]
    exact .inl ⟨false, rfl⟩

theorem applyResponse_of_valid
    (hValid : ∀ invalidation ∈ invalidations, validateInvalidation invalidation = .ok ())
    (name : Text) (k : CacheKernel) : (applyResponse name invalidations k).1 = .ok () := by
  induction invalidations generalizing k with
  | nil => rfl
  | cons invalidation rest ih =>
    obtain ⟨hFirst, hRest⟩ := List.forall_mem_cons.mp hValid
    have hApply : (k.applySuccessResponseInvalidation name invalidation).1 = .ok () := by
      have hCases := apply_of_valid hFirst name false k
      unfold applySuccessResponseInvalidation
      rcases hResult : k.applyInvalidation name invalidation false with ⟨result, k'⟩
      rw [hResult] at hCases
      rcases hCases with ⟨resync, hOk⟩ | hStale
      · obtain rfl : result = .ok resync := hOk
        rfl
      · obtain rfl : result = .error .staleCache := hStale
        rfl
    rw [applyResponse]
    rcases hSuccess : k.applySuccessResponseInvalidation name invalidation with ⟨result, k'⟩
    rw [hSuccess] at hApply
    obtain rfl : result = .ok () := hApply
    exact ih hRest k'

/-- The adapter accepts the response: it passes the checks, its invalidations are applied,
and nothing it must carry is missing. -/
def Satisfied (request : RequestEnvelope) (response : ResponseEnvelope) : Prop :=
  isCovered request response = true ∧
    ∀ (name : Text) (requireHealthyCache : Bool) (k : CacheKernel),
      (requireHealthyCache = true → k.cache.poisoned = false) →
      (callWithCachePolicy name request requireHealthyCache (.ok response) k).1 = .ok response

theorem satisfied_of_covered (hOk : response.ok = true)
    (hValid : response.validateIdentityAndPayloadForRequest request = .ok ())
    (hInvalidations : ∀ i ∈ response.invalidations, validateInvalidation i = .ok ())
    (hCovered : isCovered request response = true) : Satisfied request response := by
  refine ⟨hCovered, fun name requireHealthyCache k hHealthy => ?_⟩
  have hPolicy : (requireHealthyCache && k.cache.poisoned) = false := by
    cases requireHealthyCache with
    | false => rfl
    | true => exact hHealthy rfl
  have hApplied := applyResponse_of_valid hInvalidations name k
  simp only [callWithCachePolicy, hPolicy, hOk, hValid, false_eq_true, if_false, if_true]
  rcases hResult : applyResponse name response.invalidations k with ⟨result, k'⟩
  rw [hResult] at hApplied
  obtain rfl : result = .ok () := hApplied
  simp only [requireCoveringPathInvalidation, hCovered, if_true]

theorem isCovered_of (hPayload : response.payload = some payload)
    (hCovering : ∀ required, forRequestAndResponse request.payload payload
      = some required → ∃ i ∈ response.invalidations, required.covers request i = true) :
    isCovered request response = true := by
  unfold isCovered
  rw [hPayload]
  simp only
  split
  · rfl
  · rename_i required hRequired
    exact List.any_eq_true.mpr (hCovering required hRequired)

theorem mem_of_forM_ok (h : invalidations.forM validateInvalidation = .ok ()) :
    ∀ i ∈ invalidations, validateInvalidation i = .ok () := by
  induction invalidations with
  | nil => exact fun _ hMem => (List.not_mem_nil hMem).elim
  | cons invalidation rest ih =>
    obtain ⟨hFirst, hRest⟩ := check_bind_eq_ok.mp h
    exact List.forall_mem_cons.mpr ⟨hFirst, ih hRest⟩

theorem satisfied_dispatch (hAccepted : acceptedPayload limits call = .ok payload)
    (d : Dispatcher) :
    Satisfied call.request (dispatch limits call d).1 := by
  obtain ⟨hRun, hValid⟩ := dispatch_of_accepted hAccepted d
  have hEq := congrArg Prod.fst hRun
  obtain ⟨hIdentity, hInvalidations⟩ := check_bind_eq_ok.mp hValid
  refine satisfied_of_covered (by rw [hEq]; rfl) hIdentity (mem_of_forM_ok hInvalidations) ?_
  rw [hEq]
  exact isCovered_of rfl fun required hRequired => exists_covering hRequired d

theorem satisfied_restored {scope : Text} {deadline : Nat} (hRequest : request.validate = .ok ())
    (hScoped : call.request = requestWithTransportScope scope deadline request)
    (hAccepted : acceptedPayload limits call = .ok payload) (d : Dispatcher) :
    Satisfied request (restoreCallerRequestId request.requestId call.request.requestId
      (dispatch limits call d).1) := by
  obtain ⟨hRun, hValid⟩ := dispatch_of_accepted hAccepted d
  have hEq := congrArg Prod.fst hRun
  obtain ⟨hIdentity, hInvalidations⟩ := check_bind_eq_ok.mp hValid
  have hName : call.request.namespaceName = request.namespaceName := by rw [hScoped]; rfl
  have hPayload : call.request.payload = request.payload := by rw [hScoped]; rfl
  have hOperation : call.request.operation = request.operation := by rw [hScoped]; rfl
  rw [hEq] at hIdentity hInvalidations ⊢
  refine satisfied_of_covered rfl ?_ ?_ (isCovered_of rfl fun required hRequired => ?_)
  · -- the identity is the caller's again
    simp only [ResponseEnvelope.validateIdentityAndPayloadForRequest,
      ResponseEnvelope.validateIdentityAndPayload, successResponse, restoreCallerRequestId,
      restoredId, check_bind_eq_ok, require_eq_ok, hName, hPayload, hOperation, if_true,
      and_eq_true, not_eq_true', beq_iff_eq] at hIdentity ⊢
    have hId := (check_bind_eq_ok.mp hRequest).1
    simp only [RequestEnvelope.validateIdentity, check_bind_eq_ok, require_eq_ok,
      not_eq_true'] at hId
    obtain ⟨-, ⟨hVersion, ⟨-, hSpace⟩, hBody⟩, -, -, -, hLimit⟩ := hIdentity
    exact ⟨hRequest, ⟨hVersion, ⟨hId.2.1, hSpace⟩, hBody⟩, trivial, trivial, trivial, hLimit⟩
  · intro invalidation hMem
    obtain ⟨original, hOriginal, rfl⟩ := List.mem_map.mp hMem
    exact mem_of_forM_ok hInvalidations original hOriginal
  · rw [← hPayload] at hRequired
    obtain ⟨original, hOriginal, hCovers⟩ := exists_covering hRequired d
    exact ⟨_, List.mem_map_of_mem hOriginal, covers_restored hName hCovers⟩

/-- Every success of the dispatcher satisfies the adapter, also when the transport client
has scoped the request id and restored it, and the adapter takes an operation for an
uncertain path mutation exactly when the dispatcher issues an invalidation for it. -/
theorem success_satisfies_adapter :
    (∀ (limits : ResourceLimits) (call : Call) (payload : ResponsePayload) (d : Dispatcher),
      acceptedPayload limits call = .ok payload →
      Satisfied call.request (dispatch limits call d).1) ∧
    (∀ (limits : ResourceLimits) (call : Call) (payload : ResponsePayload) (d : Dispatcher)
      (request : RequestEnvelope) (scope : Text) (deadline : Nat),
      request.validate = .ok () →
      call.request = requestWithTransportScope scope deadline request →
      acceptedPayload limits call = .ok payload →
      Satisfied request (restoreCallerRequestId request.requestId call.request.requestId
        (dispatch limits call d).1)) ∧
    (∀ (request : RequestEnvelope) (payload : ResponsePayload) (d : Dispatcher),
      request.payload.requiresPathInvalidation = true ↔
        (invalidationsForSuccess request payload d).1 ≠ []) := by
  refine ⟨fun limits call payload d hAccepted => satisfied_dispatch hAccepted d,
    fun limits call payload d request scope deadline hRequest hScoped hAccepted =>
      satisfied_restored hRequest hScoped hAccepted d, fun request payload d => ?_⟩
  rw [requiresPathInvalidation_iff]
  unfold invalidationsForSuccess
  cases invalidationKindForRequest request.payload <;> simp

/-- Remove the file `/f`. -/
def removeFile : RequestEnvelope :=
  ⟨currentVersion, [114], .unlink, [110], 0, .unlink (some [slash, 102])⟩

/-- The request as the transport client sends it, and as the service answers it. -/
def scopedRemoval : Call :=
  let request := requestWithTransportScope [115] 1000 removeFile
  ⟨request, ⟨request.requestId, [110], 64⟩, 10, .ok (), .ok .unlink⟩

/-- The removal of a file under a scoped request id. -/
theorem success_satisfies_adapter_scoped :
    Satisfied removeFile (restoreCallerRequestId [114] scopedRemoval.request.requestId
      (dispatch {} scopedRemoval .new).1) ∧
    (invalidationsForSuccess removeFile .unlink .new).1 ≠ [] :=
  ⟨success_satisfies_adapter.2.1 {} scopedRemoval .unlink .new removeFile [115] 1000
      (by decide +kernel) rfl (by decide +kernel),
    (success_satisfies_adapter.2.2 removeFile .unlink .new).mp rfl⟩

end FabricFs.Client
