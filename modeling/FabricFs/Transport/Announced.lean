import FabricFs.Transport.Server

/-!
# What a message announces

A handler that returns has committed its change. The invalidation of the change takes its
number afterwards, and it goes to the publisher when the answer is delivered; an answer that
is refused or cannot be sent takes the invalidation with it.

* `announced_iff`: the change of a message is announced exactly if the handler's payload is
  valid and the answer that carries the invalidation fits into a frame.
* `oversized_answer_silent`: an answer over the limit leaves the clients without notice.
-/

namespace FabricFs.Transport

open Lib Lib.Prog Protocol FabricFs.Core FileSystemServer

/-- The invalidation has the kind and the paths of the request, or asks for a full resync. -/
def Tells (request : RequestEnvelope) (invalidation : Invalidation) : Prop :=
  invalidation.namespaceName = request.namespaceName ∧
    (invalidation.kind = InvalidationKind.fullResync.wireValue ∨
      ∃ kind, invalidationKindForRequest request.payload = some kind ∧
        invalidation.kind = kind.wireValue ∧
        (invalidation.path, invalidation.oldPath, invalidation.newPath) =
          invalidationPaths request.payload)

/-- The invalidation was published before anything else. -/
def Leads (invalidation : Invalidation) (s : Handling) : Prop :=
  ∃ rest, s.effects = .invalidated invalidation :: rest

/-- The dispatcher issues an invalidation of the change, and whatever the publisher answers, it
is the first thing that the handling hands out; if it is refused no reply follows. -/
def Announced (server : FileSystemServer) (x : Exchange) (request : RequestEnvelope)
    (d : Dispatcher) : Prop :=
  ∃ invalidation, Tells request invalidation ∧ ∀ publisher : Invalidation → Except RpcError Unit,
    let ended := (server.handleMessage { x with publishInvalidation := publisher } ⟨d, []⟩).2
    ended.dispatcher.issued = d.issued ++ [invalidation] ∧
      (publisher invalidation = .ok () → Leads invalidation ended) ∧
      (publisher invalidation ≠ .ok () → ¬ ended.Replied)

variable {server : FileSystemServer} {x : Exchange} {request : RequestEnvelope}
  {payload : ResponsePayload} {d : Dispatcher}

/-- A request that changes paths has one invalidation. -/
theorem exists_issued (hChanges : request.payload.requiresPathInvalidation = true)
    (payload : ResponsePayload) (d : Dispatcher) :
    ∃ invalidation, Tells request invalidation ∧
      (invalidationsForSuccess request payload d).1 = [invalidation] ∧
      (invalidationsForSuccess request payload d).2.issued = d.issued ++ [invalidation] := by
  rw [requiresPathInvalidation_iff, Option.isSome_iff_exists] at hChanges
  obtain ⟨kind, hKind⟩ := hChanges
  simp only [invalidationsForSuccess, hKind, issueInvalidation, nextInvalidationSequence]
  by_cases hPoisoned : d.poisoned = true
  · simp only [hPoisoned, if_true]
    exact ⟨_, ⟨rfl, .inl rfl⟩, rfl, rfl⟩
  · simp only [hPoisoned]
    exact ⟨_, ⟨rfl, .inr ⟨kind, hKind, rfl, rfl⟩⟩, rfl, rfl⟩

/-- A delivery hands its invalidation out first. -/
theorem deliver_announces {prepared : PreparedMessageResponse} {invalidation : Invalidation}
    (hOne : prepared.response.invalidations = [invalidation]) (x : Exchange) (d : Dispatcher) :
    let ended := (deliverPreparedResponse prepared x ⟨d, []⟩).2
    ended.dispatcher = d ∧
      (x.publishInvalidation invalidation = .ok () → Leads invalidation ended) ∧
      (x.publishInvalidation invalidation ≠ .ok () → ¬ ended.Replied) := by
  have hAppend : ∀ (effect : Effect) (s : Handling), Leads invalidation s →
      Leads invalidation { s with effects := s.effects ++ [effect] } := by
    rintro effect s ⟨rest, hRest⟩
    exact ⟨rest ++ [effect], by rw [hRest]; rfl⟩
  have hRelease := fun s handle => hAppend (.released handle) s
  have hSame : Keeps x (fun s => s.dispatcher = d) (deliverPreparedResponse prepared) :=
    keeps_deliver (fun _ _ hs => hs) (fun _ _ hs => hs) fun _ hs => hs
  refine ⟨keeps_iff.1 hSame _ rfl, fun hAccepted => ?_, fun hRefused => ?_⟩
  · have hFirst : Triple x (fun s => s.effects = []) (deliverPreparedResponse prepared)
        (fun _ => Leads invalidation) (Leads invalidation) := by
      refine triple_ask (triple_seq ?_ <|
        keeps_seq (keeps_failIfResponseDeadlineExpired hRelease _) <|
        keeps_seq (triple_publish hRelease _ _ fun _ => hAppend (.replied prepared.response))
          <| keeps_failIfResponseDeadlineExpired hRelease _)
      rw [hOne, each, hAccepted]
      refine triple_bind (Q := fun _ => Leads invalidation) (fun s hs => ⟨[], ?_⟩)
        fun _ => triple_done
      change s.effects ++ _ = _
      rw [hs]
      rfl
    exact hFirst.after rfl
  · have hFails : Triple x (fun s => ¬ s.Replied) (deliverPreparedResponse prepared)
        (fun _ s => ¬ s.Replied) (fun s => ¬ s.Replied) := by
      refine triple_ask (triple_bind (Q := fun _ _ => False) ?_ fun _ _ hs => hs.elim)
      rw [hOne]
      exact triple_bind (Q := fun _ _ => False) (triple_publish
        (fun s handle hs => by simpa using hs) _ _ fun hOk => absurd hOk hRefused)
        fun _ _ hs => hs.elim
    refine hFails.after ?_
    rintro ⟨_, hr⟩
    exact List.not_mem_nil hr

/-- The exact condition under which the change of a message is announced. -/
theorem announced_iff (server : FileSystemServer) (x : Exchange) (request : RequestEnvelope)
    (payload : ResponsePayload) (d : Dispatcher) (h : Answered server x request payload)
    (hChanges : request.payload.requiresPathInvalidation = true) :
    Announced server x request d ↔
      payload.validateForRequest request.payload = .ok () ∧
        server.Fits (successResponse request payload
          (invalidationsForSuccess request payload d).1) := by
  have hAnswered : ∀ publisher, Answered server { x with publishInvalidation := publisher }
      request payload := fun _ => ⟨h.1, h.2, h.3, h.4, h.5, h.6, h.7, h.8⟩
  -- with a publisher that accepts everything the invalidation would be the first effect
  have hSilent : (∀ invalidation, ¬ Leads invalidation (server.handleMessage
      { x with publishInvalidation := fun _ => .ok () } ⟨d, []⟩).2) →
      ¬ Announced server x request d := by
    rintro hNone ⟨invalidation, -, hAll⟩
    exact hNone invalidation ((hAll fun _ => .ok ()).2.1 rfl)
  by_cases hValid : payload.validateForRequest request.payload = .ok ()
  · have hDispatch : ∀ publisher, Core.dispatch server.limits
        (({ x with publishInvalidation := publisher } : Exchange).call request) d = _ := fun _ =>
      (dispatch_of_accepted (accepted_of_valid h.checked h.handled hValid) d).1
    by_cases hFits : server.Fits (successResponse request payload
      (invalidationsForSuccess request payload d).1)
    · refine iff_of_true ?_ ⟨hValid, hFits⟩
      obtain ⟨invalidation, hTells, hOne, hIssued⟩ := exists_issued hChanges payload d
      refine ⟨invalidation, hTells, fun publisher => ?_⟩
      obtain ⟨bytes, d', rfl, hRun⟩ := (hAnswered publisher).handleMessage_fits (s := ⟨d, []⟩)
        (by rw [answer, hDispatch]; exact hFits)
      simp only [answer, hDispatch] at hRun
      have hDeliver := @deliver_announces ⟨request, successResponse request payload _, bytes, true⟩
        invalidation hOne { x with publishInvalidation := publisher }
        (invalidationsForSuccess request payload d).2
      rw [hRun]
      exact ⟨(congrArg Dispatcher.issued hDeliver.1).trans hIssued, hDeliver.2⟩
    · refine iff_of_false (hSilent ?_) fun hAll => hFits hAll.2
      rintro invalidation ⟨rest, hFirst⟩
      obtain ⟨error, d', hRun⟩ := (hAnswered fun _ => .ok ()).handleMessage_fails (s := ⟨d, []⟩)
        (by rw [answer, hDispatch]; exact hFits)
      rw [hRun] at hFirst
      cases hFirst
  · refine iff_of_false (hSilent ?_) fun hAll => hValid hAll.1
    rintro invalidation ⟨rest, hFirst⟩
    have hAnswer := hAnswered fun _ => .ok ()
    by_cases hFits : server.Fits (server.answer { x with publishInvalidation := fun _ => .ok () }
      request ⟨d, []⟩)
    · obtain ⟨bytes, d', -, hRun⟩ := hAnswer.handleMessage_fits hFits
      rw [hRun, answer, dispatch_rejected hAnswer.checked hAnswer.handled hValid,
        deliver_failure rfl rfl] at hFirst
      revert hFirst
      cases x.publishReply <;> simp
    · obtain ⟨error, d', hRun⟩ := hAnswer.handleMessage_fails hFits
      rw [hRun] at hFirst
      cases hFirst

section Samples

/-- Unlink `/f`, with the deadline 1000; the service does so. -/
def sampleUnlink : RequestEnvelope :=
  ⟨currentVersion, [114], .unlink, [110], 1000, .unlink (some [slash, 102])⟩

def unlinkExchange : Exchange :=
  { sampleExchange 10 with decoded := .ok sampleUnlink, handled := .ok .unlink }

/-- The removal of a file is announced. -/
theorem announced_iff_unlink : Announced (sampleServer 4096) unlinkExchange sampleUnlink .new :=
  (announced_iff (sampleServer 4096) unlinkExchange sampleUnlink .unlink .new
    ⟨rfl, by decide, rfl, rfl, by decide +kernel, rfl, by decide +kernel, rfl⟩ rfl).2
    ⟨by decide +kernel, _, rfl, by decide +kernel⟩

/-- The request fits a frame of 64 bytes, the answer does not: the object is gone, and neither
an invalidation nor a reply goes out. -/
theorem oversized_answer_silent : Answered (sampleServer 64) unlinkExchange sampleUnlink .unlink ∧
    sampleUnlink.payload.requiresPathInvalidation = true ∧
    ((sampleServer 64).handleMessage unlinkExchange ⟨.new, []⟩).2.effects = [] ∧
    ¬ Announced (sampleServer 64) unlinkExchange sampleUnlink .new := by
  have hNone : ((sampleServer 64).handleMessage unlinkExchange ⟨.new, []⟩).2.effects = [] := by
    decide +kernel
  refine ⟨⟨rfl, le_rfl, rfl, rfl, by decide +kernel, rfl, by decide +kernel, rfl⟩, rfl, hNone, ?_⟩
  rintro ⟨invalidation, -, hAll⟩
  obtain ⟨rest, hRest⟩ := (hAll fun _ => .ok ()).2.1 rfl
  exact absurd (hNone.symm.trans hRest) nofun

end Samples

end FabricFs.Transport
