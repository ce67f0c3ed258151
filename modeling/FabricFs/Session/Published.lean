import FabricFs.Session.Imports

/-!
# Published checkpoints

`published_store.rs`: any number of publishers and readers share one bucket. A publisher
claims the key of its remote identifier and, when the claim fails, reads the key to classify
the failure; both are repeated under the retry policy. Each call on the bucket is one step,
and the steps of the callers interleave in any order. The bucket creates a key if it is
absent and never deletes one. A claim can fail without an effect, it can fail after its
effect, and a claim that was given up can still arrive later.

* `bucket_run`: what a key holds, it holds in every later state.
* `bound_run`: a publish that has returned success finds its payload under its key, in every
  state reached.
* `published_payload_unique`: all successful publishes of a key carried one payload, it is
  what every later fetch returns, and `Stored` is reported only by the caller whose claim
  created the key.
-/

namespace FabricFs.Session.Published

open Lib Option

abbrev Payload : Type := List UInt8

abbrev Key : Type := List Char

/-! ## Errors and the retry policy -/

inductive PublishedOutcome where
  | stored
  | unchanged
  deriving DecidableEq, Repr

inductive PublishedError where
  | invalidKey
  | jetStream (err : String)
  | notFound (remoteId : List Char)
  | idempotencyConflict (remoteId : List Char)
  | corrupt (remoteId : List Char)
  | codec (err : String)
  | timeout (op : String) (message : String)
  deriving DecidableEq, Repr

def PublishedError.toString : PublishedError → String
  | .invalidKey => "invalid remote checkpoint id"
  | .jetStream err => "jetstream error: " ++ err
  | .notFound remoteId => "checkpoint " ++ String.ofList remoteId ++ " not found"
  | .idempotencyConflict remoteId =>
    "checkpoint " ++ String.ofList remoteId ++ " conflicts with existing payload"
  | .corrupt remoteId => "checkpoint " ++ String.ofList remoteId ++ " payload is corrupt"
  | .codec err => "encode/decode error: " ++ err
  | .timeout op message => "operation " ++ op ++ " timed out after retries: " ++ message

def PublishedError.retryable : PublishedError → Bool
  | .jetStream _ => true
  | _ => false

inductive MetricOp where
  | publish
  | fetch
  deriving DecidableEq, Repr

def MetricOp.name : MetricOp → String
  | .publish => "publish"
  | .fetch => "fetch"

structure RetryPolicy where
  timeout : Nat
  maxAttempts : Nat
  deriving DecidableEq, Repr

/-- `From<PublishedStoreConfig>`: at least one attempt is made. -/
def RetryPolicy.ofConfig (timeout maxAttempts : Nat) : RetryPolicy :=
  { timeout, maxAttempts := max maxAttempts 1 }

/-- What the loop of `with_retry` does after an attempt. -/
inductive Verdict (α : Type) where
  | finish (result : Except PublishedError α)
  | again

/-- The body of the loop of `with_retry`. The time since the call began is read only after a
retryable error. -/
def withRetry {α : Type} (policy : RetryPolicy) (op : MetricOp) (attempt elapsed : Nat) :
    Except PublishedError α → Verdict α
  | .ok value => .finish (.ok value)
  | .error err =>
    if err.retryable = false then .finish (.error err)
    else if attempt = policy.maxAttempts ∨ policy.timeout ≤ elapsed then
      .finish (.error (.timeout op.name err.toString))
    else .again

/-! ## The bucket -/

abbrev Bucket : Type := Key → Option Payload

/-- The atomic effect of a claim that reaches the bucket. -/
def create (key : Key) (payload : Payload) (bucket : Bucket) : Bucket :=
  fun k => if k = key then some ((bucket key).getD payload) else bucket k

/-- What happens to one claim on its way. -/
structure ClaimFate where
  /-- The claim reaches the bucket before the call returns. -/
  delivered : Bool
  /-- The acknowledgement reaches the caller. -/
  acked : Bool
  /-- The error the caller sees when there is no acknowledgement or the key exists. -/
  err : String
  deriving DecidableEq, Repr

/-- `PublishedBucket::claim`: the expected last sequence of the subject is zero. -/
def claim (fate : ClaimFate) (key : Key) (payload : Payload) (bucket : Bucket) :
    Except String Unit × Bucket :=
  if fate.delivered then
    (if (bucket key).isNone && fate.acked then .ok () else .error fate.err,
      create key payload bucket)
  else (.error fate.err, bucket)

/-- `PublishedBucket::get`, with the error of a call that fails. -/
def get (failure : Option String) (key : Key) (bucket : Bucket) :
    Except String (Option Payload) :=
  match failure with
  | some err => .error err
  | none => .ok (bucket key)

/-! ## Callers -/

section Callers

variable {κ : Type} (encodeMessage : κ → Except String Payload)
  (decodeMessage : Payload → Except String κ) (policy : RetryPolicy)

/-- `key_for` with the constant in front of the key. -/
def publishedKey (remoteId : List Char) : Except PublishedError Key :=
  match keyFor remoteId with
  | none => .error .invalidKey
  | some trimmed => .ok ("checkpoint/".toList ++ trimmed)

/-- The two calls of `publish_claim` on the bucket are two steps. -/
inductive PublishPhase where
  | claiming (attempt : Nat)
  | classifying (attempt : Nat) (claimErr : String)
  | done (result : Except PublishedError PublishedOutcome)

inductive FetchPhase (κ : Type) where
  | getting (attempt : Nat)
  | done (result : Except PublishedError κ)

/-- A caller of `publish` or `fetch`; `refused` are those that end before the first attempt. -/
inductive Caller (κ : Type) where
  | publisher (remoteId : List Char) (checkpoint : κ) (key : Key) (payload : Payload)
      (phase : PublishPhase)
  | fetcher (remoteId : List Char) (key : Key) (phase : FetchPhase κ)
  | refused (err : PublishedError)

/-- `publish` up to its first attempt. -/
def publish (remoteId : List Char) (checkpoint : κ) : Caller κ :=
  match publishedKey remoteId with
  | .error err => .refused err
  | .ok key =>
    match encodeMessage checkpoint with
    | .error err => .refused (.codec err)
    | .ok payload => .publisher remoteId checkpoint key payload (.claiming 1)

/-- `fetch` up to its first attempt. -/
def fetch (remoteId : List Char) : Caller κ :=
  match publishedKey remoteId with
  | .error err => .refused err
  | .ok key => .fetcher remoteId key (.getting 1)

/-- `publish_claim` after the claim has failed. -/
def classify (remoteId : List Char) (payload : Payload) (claimErr : String) :
    Except String (Option Payload) → Except PublishedError PublishedOutcome
  | .ok (some existing) =>
    if existing = payload then .ok .unchanged else .error (.idempotencyConflict remoteId)
  | .ok none => .error (.jetStream claimErr)
  | .error _ => .error (.jetStream claimErr)

/-- The closure of `fetch` after the call on the bucket. -/
def decodeFetched (remoteId : List Char) :
    Except String (Option Payload) → Except PublishedError κ
  | .error err => .error (.jetStream err)
  | .ok none => .error (.notFound remoteId)
  | .ok (some bytes) =>
    match decodeMessage bytes with
    | .ok checkpoint => .ok checkpoint
    | .error _ => .error (.corrupt remoteId)

def PublishPhase.next (attempt elapsed : Nat) (result : Except PublishedError PublishedOutcome) :
    PublishPhase :=
  match withRetry policy .publish attempt elapsed result with
  | .finish result => .done result
  | .again => .claiming (attempt + 1)

def FetchPhase.next (attempt elapsed : Nat) (result : Except PublishedError κ) : FetchPhase κ :=
  match withRetry policy .fetch attempt elapsed result with
  | .finish result => .done result
  | .again => .getting (attempt + 1)

/-! ## The system -/

structure State (κ : Type) where
  bucket : Bucket
  callers : Nat → Option (Caller κ)
  /-- Claims that were given up and have not arrived. -/
  late : List (Key × Payload)

inductive Event (κ : Type) where
  | publish (id : Nat) (remoteId : List Char) (checkpoint : κ)
  | fetch (id : Nat) (remoteId : List Char)
  | claim (id : Nat) (fate : ClaimFate) (elapsed : Nat)
  | get (id : Nat) (failure : Option String) (elapsed : Nat)
  | arrive (index : Nat)

def State.set (s : State κ) (id : Nat) (caller : Caller κ) : State κ :=
  { s with callers := fun i => if i = id then some caller else s.callers i }

/-- A new call; an identifier is used for one call only. -/
def State.enter (s : State κ) (id : Nat) (caller : Caller κ) : State κ :=
  match s.callers id with
  | none => s.set id caller
  | some _ => s

/-- `bucket.claim(key, payload)` of one publisher. -/
def stepClaim (id : Nat) (fate : ClaimFate) (elapsed : Nat) (s : State κ) : State κ :=
  match s.callers id with
  | some (.publisher remoteId checkpoint key payload (.claiming attempt)) =>
    let (reply, bucket) := claim fate key payload s.bucket
    let phase := match reply with
      | .ok _ => PublishPhase.next policy attempt elapsed (.ok .stored)
      | .error err => .classifying attempt err
    { s with
      bucket
      late := if fate.delivered then s.late else (key, payload) :: s.late }.set id
        (.publisher remoteId checkpoint key payload phase)
  | _ => s

/-- `bucket.get(key)` of one publisher or reader. -/
def stepGet (id : Nat) (failure : Option String) (elapsed : Nat) (s : State κ) : State κ :=
  match s.callers id with
  | some (.publisher remoteId checkpoint key payload (.classifying attempt claimErr)) =>
    s.set id (.publisher remoteId checkpoint key payload
      (PublishPhase.next policy attempt elapsed
        (classify remoteId payload claimErr (get failure key s.bucket))))
  | some (.fetcher remoteId key (.getting attempt)) =>
    s.set id (.fetcher remoteId key
      (FetchPhase.next policy attempt elapsed
        (decodeFetched decodeMessage remoteId (get failure key s.bucket))))
  | _ => s

def stepArrive (index : Nat) (s : State κ) : State κ :=
  match s.late[index]? with
  | none => s
  | some (key, payload) =>
    { s with bucket := create key payload s.bucket, late := s.late.eraseIdx index }

def step : Event κ → State κ → State κ
  | .publish id remoteId checkpoint, s => s.enter id (publish encodeMessage remoteId checkpoint)
  | .fetch id remoteId, s => s.enter id (fetch remoteId)
  | .claim id fate elapsed, s => stepClaim policy id fate elapsed s
  | .get id failure elapsed, s => stepGet decodeMessage policy id failure elapsed s
  | .arrive index, s => stepArrive index s

/-- No call has been made; the bucket may hold earlier checkpoints. -/
def initial (bucket : Bucket) : State κ :=
  { bucket, callers := fun _ => none, late := [] }

/-- The caller is a publish of the payload that has returned success. -/
def Succeeded (s : State κ) (id : Nat) (checkpoint : κ) (key : Key) (payload : Payload)
    (outcome : PublishedOutcome) : Prop :=
  ∃ remoteId, s.callers id = some (.publisher remoteId checkpoint key payload (.done (.ok outcome)))

/-- The caller is a fetch of the key that has returned. -/
def Fetched (s : State κ) (id : Nat) (key : Key) (result : Except PublishedError κ) : Prop :=
  ∃ remoteId, s.callers id = some (.fetcher remoteId key (.done result))

end Callers

/-! ## What one step does -/

/-- Every key keeps what it holds. -/
def Extends (before after : Bucket) : Prop :=
  ∀ key payload, before key = some payload → after key = some payload

theorem extends_refl (bucket : Bucket) : Extends bucket bucket := fun _ _ h => h

theorem create_extends (key : Key) (payload : Payload) (bucket : Bucket) :
    Extends bucket (create key payload bucket) := by
  intro k p hHeld
  unfold create
  by_cases hk : k = key
  · subst hk
    simp [hHeld]
  · simp [hk, hHeld]

theorem claim_extends (fate : ClaimFate) (key : Key) (payload : Payload) (bucket : Bucket) :
    Extends bucket (claim fate key payload bucket).2 := by
  unfold claim
  split
  · exact create_extends key payload bucket
  · exact extends_refl bucket

theorem claim_eq_ok {fate : ClaimFate} {key : Key} {payload : Payload} {bucket : Bucket} {u : Unit}
    (hOk : (claim fate key payload bucket).1 = .ok u) :
    bucket key = none ∧ (claim fate key payload bucket).2 key = some payload := by
  unfold claim at hOk ⊢
  split at hOk
  next hDelivered =>
    simp only [hDelivered, if_true]
    split at hOk
    next hCreated =>
      have hAbsent : bucket key = none := by
        cases hKey : bucket key <;> simp_all
      exact ⟨hAbsent, by simp [create, hAbsent]⟩
    · cases hOk
  · cases hOk

section Steps

variable {κ : Type} {encodeMessage : κ → Except String Payload}
  {decodeMessage : Payload → Except String κ} {policy : RetryPolicy}

variable {attempt elapsed id : Nat} {result : Except PublishedError κ} {payload : Payload}
  {key : Key} {bucket : Bucket} {events : List (Event κ)} {s : State κ} {caller : Caller κ}
  {checkpoint : κ}

theorem withRetry_eq_finish_ok {α : Type} {op : MetricOp} {result : Except PublishedError α}
    {value : α} (hFinish : withRetry policy op attempt elapsed result = .finish (.ok value)) :
    result = .ok value := by
  cases result with
  | ok found =>
    simp only [withRetry, Verdict.finish.injEq, Except.ok.injEq] at hFinish
    rw [hFinish]
  | error err =>
    simp only [withRetry] at hFinish
    split at hFinish
    · cases hFinish
    · split at hFinish <;> cases hFinish

/-- A retried operation ends with what an attempt returned, or with a timeout. -/
theorem withRetry_eq_finish {α : Type} {op : MetricOp} {result final : Except PublishedError α}
    (hFinish : withRetry policy op attempt elapsed result = .finish final) :
    final = result ∨ ∃ message, final = .error (.timeout op.name message) := by
  cases result with
  | ok found =>
    simp only [withRetry, Verdict.finish.injEq] at hFinish
    exact .inl hFinish.symm
  | error err =>
    simp only [withRetry] at hFinish
    split at hFinish
    · simp only [Verdict.finish.injEq] at hFinish
      exact .inl hFinish.symm
    · split at hFinish
      · simp only [Verdict.finish.injEq] at hFinish
        exact .inr ⟨_, hFinish.symm⟩
      · cases hFinish

theorem publish_next_eq_done {result : Except PublishedError PublishedOutcome}
    {outcome : PublishedOutcome}
    (hDone : PublishPhase.next policy attempt elapsed result = .done (.ok outcome)) :
    result = .ok outcome := by
  unfold PublishPhase.next at hDone
  split at hDone
  next final hFinish =>
    cases hDone
    exact withRetry_eq_finish_ok hFinish
  · cases hDone

theorem fetch_next_eq_done {final : Except PublishedError κ}
    (hDone : FetchPhase.next policy attempt elapsed result = .done final) :
    final = result ∨ ∃ message, final = .error (.timeout "fetch" message) := by
  unfold FetchPhase.next at hDone
  split at hDone
  next found hFinish =>
    cases hDone
    exact withRetry_eq_finish hFinish
  · cases hDone

/-- A failed claim is classified as a success only if the key holds the payload. -/
theorem classify_eq_ok {remoteId : List Char} {claimErr : String} {failure : Option String}
    {outcome : PublishedOutcome}
    (hOk : classify remoteId payload claimErr (get failure key bucket) = .ok outcome) :
    outcome = .unchanged ∧ bucket key = some payload := by
  unfold get at hOk
  split at hOk
  · cases hOk
  · cases hKey : bucket key with
    | none =>
      rw [hKey] at hOk
      cases hOk
    | some existing =>
      rw [hKey] at hOk
      simp only [classify] at hOk
      split at hOk
      next hSame =>
        cases hOk
        exact ⟨rfl, by rw [hSame]⟩
      · cases hOk

theorem step_extends (event : Event κ) (s : State κ) :
    Extends s.bucket (step encodeMessage decodeMessage policy event s).bucket := by
  have hEnter : ∀ id caller, (s.enter id caller).bucket = s.bucket := by
    intro id caller
    unfold State.enter
    split <;> rfl
  cases event with
  | publish id remoteId checkpoint =>
    rw [step, hEnter]
    exact extends_refl _
  | fetch id remoteId =>
    rw [step, hEnter]
    exact extends_refl _
  | claim id fate elapsed =>
    simp only [step, stepClaim]
    split
    · exact claim_extends _ _ _ _
    · exact extends_refl _
  | get id failure elapsed =>
    simp only [step, stepGet]
    split <;> exact extends_refl _
  | arrive index =>
    simp only [step, stepArrive]
    split
    · exact extends_refl _
    · exact create_extends _ _ _

theorem bucket_run :
    Extends s.bucket (Runs.run (step encodeMessage decodeMessage policy) events s).bucket := by
  induction events generalizing s with
  | nil => exact extends_refl _
  | cons event events ih => exact fun key payload h => ih key payload (step_extends event s _ _ h)

/-! ## What a caller has established -/

/-- A publisher holds the encoding of its checkpoint, and if it has returned success, the key
holds it too. -/
def Settled (encodeMessage : κ → Except String Payload) (bucket : Bucket) : Caller κ → Prop
  | .publisher _ checkpoint key payload phase =>
    encodeMessage checkpoint = .ok payload ∧
      ∀ outcome, phase = .done (.ok outcome) → bucket key = some payload
  | .fetcher .. => True
  | .refused _ => True

theorem Settled.mono {before after : Bucket} (h : Settled encodeMessage before caller)
    (hExtends : Extends before after) :
    Settled encodeMessage after caller := by
  cases caller with
  | publisher remoteId checkpoint key payload phase =>
    exact ⟨h.1, fun outcome hDone => hExtends _ _ (h.2 outcome hDone)⟩
  | fetcher => trivial
  | refused => trivial

def Bound (encodeMessage : κ → Except String Payload) (s : State κ) : Prop :=
  ∀ id caller, s.callers id = some caller → Settled encodeMessage s.bucket caller

theorem Bound.set {late : List (Key × Payload)} (h : Bound encodeMessage s)
    (hExtends : Extends s.bucket bucket) (hCaller : Settled encodeMessage bucket caller) :
    Bound encodeMessage ({ s with bucket, late }.set id caller) := by
  intro i found hFound
  by_cases hi : i = id
  · simp only [State.set, hi, if_true, some.injEq] at hFound
    rw [← hFound]
    exact hCaller
  · simp only [State.set, hi, if_false] at hFound
    exact (h i found hFound).mono hExtends

theorem Bound.enter (h : Bound encodeMessage s) (hCaller : Settled encodeMessage s.bucket caller) :
    Bound encodeMessage (s.enter id caller) := by
  unfold State.enter
  split
  · exact h.set (extends_refl _) hCaller
  · exact h

theorem Bound.step (h : Bound encodeMessage s) (event : Event κ) :
    Bound encodeMessage (step encodeMessage decodeMessage policy event s) := by
  cases event with
  | publish id remoteId checkpoint =>
    refine h.enter ?_
    unfold publish
    split
    · trivial
    · split
      · trivial
      next payload hPayload => exact ⟨hPayload, fun outcome hDone => nomatch hDone⟩
  | fetch id remoteId =>
    refine h.enter ?_
    unfold fetch
    split <;> trivial
  | claim id fate elapsed =>
    simp only [Published.step, stepClaim]
    split
    next remoteId checkpoint key payload attempt hCaller =>
      refine h.set (claim_extends _ _ _ _) ⟨(h id _ hCaller).1, ?_⟩
      intro outcome hDone
      split at hDone
      next hReply => exact (claim_eq_ok hReply).2
      · cases hDone
    · exact h
  | get id failure elapsed =>
    simp only [Published.step, stepGet]
    split
    next remoteId checkpoint key payload attempt claimErr hCaller =>
      refine h.set (extends_refl _) ⟨(h id _ hCaller).1, ?_⟩
      intro outcome hDone
      exact (classify_eq_ok (publish_next_eq_done hDone)).2
    · exact h.set (extends_refl _) trivial
    · exact h
  | arrive index =>
    simp only [Published.step, stepArrive]
    split
    · exact h
    · intro id caller hCaller
      exact (h id caller hCaller).mono (create_extends _ _ _)

/-- A publish that has returned success finds its payload under its key, in every state
reached. -/
theorem bound_run :
    Bound encodeMessage
      (Runs.run (Published.step encodeMessage decodeMessage policy) events (initial bucket)) := by
  have hInitial : Bound encodeMessage (initial bucket : State κ) := by
    intro id caller hCaller
    cases hCaller
  exact Runs.run_invariant (C := fun _ _ => True) (fun event s hs _ => hs.step event) hInitial
    (Runs.along_of_forall (D := fun _ => True) fun _ _ => trivial)

/-! ## Reports -/

theorem enter_callers {i : Nat} {found : Caller κ}
    (hFound : (s.enter id caller).callers i = some found) :
    s.callers i = some found ∨ found = caller := by
  unfold State.enter at hFound
  split at hFound
  · by_cases hi : i = id
    · simp only [State.set, hi, if_true, some.injEq] at hFound
      exact .inr hFound.symm
    · simp only [State.set, hi, if_false] at hFound
      exact .inl hFound
  · exact .inl hFound

/-- `Stored` is reported by the step that creates the key with the payload. -/
theorem step_stored {event : Event κ}
    (hAfter : Succeeded (step encodeMessage decodeMessage policy event s) id checkpoint key payload
      .stored) :
    Succeeded s id checkpoint key payload .stored ∨
      s.bucket key = none ∧
        (step encodeMessage decodeMessage policy event s).bucket key = some payload := by
  obtain ⟨remoteId, hAfter⟩ := hAfter
  cases event with
  | publish i remote found =>
    refine (enter_callers hAfter).imp (fun h => ⟨remoteId, h⟩) fun h => ?_
    unfold publish at h
    split at h
    · cases h
    · split at h <;> cases h
  | fetch i remote =>
    refine (enter_callers hAfter).imp (fun h => ⟨remoteId, h⟩) fun h => ?_
    unfold fetch at h
    split at h <;> cases h
  | claim i fate elapsed =>
    simp only [step, stepClaim] at hAfter ⊢
    split at hAfter
    next remote found k p attempt hCaller =>
      by_cases hi : id = i
      · simp only [State.set, hi, if_true, some.injEq, Caller.publisher.injEq] at hAfter
        obtain ⟨-, -, rfl, rfl, hDone⟩ := hAfter
        split at hDone
        next hReply => exact .inr (by simpa [hCaller, State.set] using claim_eq_ok hReply)
        · cases hDone
      · simp only [State.set, hi, if_false] at hAfter
        exact .inl ⟨remoteId, hAfter⟩
    · exact .inl ⟨remoteId, hAfter⟩
  | get i failure elapsed =>
    simp only [step, stepGet] at hAfter ⊢
    split at hAfter
    next remote found k p attempt claimErr hCaller =>
      by_cases hi : id = i
      · simp only [State.set, hi, if_true, some.injEq, Caller.publisher.injEq] at hAfter
        obtain ⟨-, -, -, -, hDone⟩ := hAfter
        cases (classify_eq_ok (publish_next_eq_done hDone)).1
      · simp only [State.set, hi, if_false] at hAfter
        exact .inl ⟨remoteId, hAfter⟩
    next remote k attempt hCaller =>
      by_cases hi : id = i
      · simp [State.set, hi] at hAfter
      · simp only [State.set, hi, if_false] at hAfter
        exact .inl ⟨remoteId, hAfter⟩
    · exact .inl ⟨remoteId, hAfter⟩
  | arrive index =>
    refine .inl ⟨remoteId, ?_⟩
    simp only [step, stepArrive] at hAfter
    split at hAfter <;> exact hAfter

/-- What a fetch can return once the key holds the encoding of a checkpoint. -/
def Answer (checkpoint : κ) (result : Except PublishedError κ) : Prop :=
  result = .ok checkpoint ∨ ∃ message, result = .error (.timeout "fetch" message)

theorem answer_of_getting {remoteId : List Char} {failure : Option String}
    (hHeld : bucket key = some payload) (hDecode : decodeMessage payload = .ok checkpoint)
    (hDone : FetchPhase.next policy attempt elapsed (decodeFetched decodeMessage remoteId (get
      failure key bucket)) = .done result) :
    Answer checkpoint result := by
  cases failure with
  | none =>
    simp only [get, hHeld, decodeFetched, hDecode] at hDone
    exact fetch_next_eq_done hDone
  | some err =>
    simp only [get, decodeFetched, FetchPhase.next, withRetry, PublishedError.retryable] at hDone
    simp only [Bool.true_eq_false, if_false] at hDone
    split at hDone
    next final hFinish =>
      split at hFinish
      · cases hFinish
        cases hDone
        exact .inr ⟨_, rfl⟩
      · cases hFinish
    · cases hDone

theorem step_fetched {event : Event κ} (hHeld : s.bucket key = some payload)
    (hDecode : decodeMessage payload = .ok checkpoint)
    (hAfter : Fetched (step encodeMessage decodeMessage policy event s) id key result) :
    Fetched s id key result ∨ Answer checkpoint result := by
  obtain ⟨remoteId, hAfter⟩ := hAfter
  cases event with
  | publish i remote found =>
    refine (enter_callers hAfter).imp (fun h => ⟨remoteId, h⟩) fun h => ?_
    unfold publish at h
    split at h
    · cases h
    · split at h <;> cases h
  | fetch i remote =>
    refine (enter_callers hAfter).imp (fun h => ⟨remoteId, h⟩) fun h => ?_
    unfold fetch at h
    split at h <;> cases h
  | claim i fate elapsed =>
    simp only [step, stepClaim] at hAfter
    split at hAfter
    next remote found k p attempt hCaller =>
      by_cases hi : id = i
      · simp [State.set, hi] at hAfter
      · simp only [State.set, hi, if_false] at hAfter
        exact .inl ⟨remoteId, hAfter⟩
    · exact .inl ⟨remoteId, hAfter⟩
  | get i failure elapsed =>
    simp only [step, stepGet] at hAfter
    split at hAfter
    next remote found k p attempt claimErr hCaller =>
      by_cases hi : id = i
      · simp [State.set, hi] at hAfter
      · simp only [State.set, hi, if_false] at hAfter
        exact .inl ⟨remoteId, hAfter⟩
    next remote k attempt hCaller =>
      by_cases hi : id = i
      · simp only [State.set, hi, if_true, some.injEq, Caller.fetcher.injEq] at hAfter
        obtain ⟨-, rfl, hDone⟩ := hAfter
        exact .inr (answer_of_getting hHeld hDecode hDone)
      · simp only [State.set, hi, if_false] at hAfter
        exact .inl ⟨remoteId, hAfter⟩
    · exact .inl ⟨remoteId, hAfter⟩
  | arrive index =>
    refine .inl ⟨remoteId, ?_⟩
    simp only [step, stepArrive] at hAfter
    split at hAfter <;> exact hAfter

theorem run_fetched (hHeld : s.bucket key = some payload)
    (hDecode : decodeMessage payload = .ok checkpoint)
    (hAfter : Fetched (Runs.run (step encodeMessage decodeMessage policy) events s) id key result) :
    Fetched s id key result ∨ Answer checkpoint result := by
  induction events generalizing s with
  | nil => exact .inl hAfter
  | cons event events ih =>
    rcases ih (step_extends event s _ _ hHeld) hAfter with hEarlier | hAnswer
    · exact step_fetched hHeld hDecode hEarlier
    · exact .inr hAnswer

/-- A remote identifier is bound to one payload for good. In every state reached, the key of
a successful publish holds its payload and does so in every later state; no later success
carries another payload, every later fetch returns the checkpoint or times out, and `Stored`
is reported only by the claim that created the key. -/
theorem published_payload_unique
    (hCodec : ∀ checkpoint payload, encodeMessage checkpoint = .ok payload →
      decodeMessage payload = .ok checkpoint)
    (bucket : Bucket) (events : List (Event κ)) :
    let next := step encodeMessage decodeMessage policy
    let s := Runs.run next events (initial bucket)
    (∀ id checkpoint key payload outcome, Succeeded s id checkpoint key payload outcome →
      ∀ later, let t := Runs.run next later s
        t.bucket key = some payload ∧
        (∀ id' checkpoint' payload' outcome',
          Succeeded t id' checkpoint' key payload' outcome' → payload' = payload) ∧
        ∀ id' result, Fetched t id' key result →
          Fetched s id' key result ∨ Answer checkpoint result) ∧
    ∀ event id checkpoint key payload,
      Succeeded (next event s) id checkpoint key payload .stored →
        Succeeded s id checkpoint key payload .stored ∨
          s.bucket key = none ∧ (next event s).bucket key = some payload := by
  intro next s
  refine ⟨?_, fun event id checkpoint key payload => step_stored⟩
  rintro id checkpoint key payload outcome ⟨remoteId, hCaller⟩ later t
  have hSettled := bound_run id _ hCaller
  have hHeld : s.bucket key = some payload := hSettled.2 outcome rfl
  have hLater : t.bucket key = some payload := bucket_run key payload hHeld
  refine ⟨hLater, ?_, ?_⟩
  · rintro id' checkpoint' payload' outcome' ⟨remoteId', hCaller'⟩
    have hReached : t = Runs.run next (events ++ later) (initial bucket) :=
      (Runs.run_append next events later (initial bucket)).symm
    rw [hReached] at hCaller' hLater
    have hHeld' := (bound_run id' _ hCaller').2 outcome' rfl
    exact some.inj (hHeld'.symm.trans hLater)
  · intro id' result hFetched
    exact run_fetched hHeld (hCodec _ _ hSettled.1) hFetched

/-- Two publishers of different payloads under one identifier. The claim of the first takes
effect and its acknowledgement is lost; the claim of the second is refused. -/
def twoPublishers : List (Event Payload) :=
  [.publish 0 "a".toList [1], .publish 1 " a".toList [2], .claim 0 ⟨true, false, "lost"⟩ 0,
    .claim 1 ⟨true, true, "exists"⟩ 0, .get 1 none 0, .get 0 none 0]

theorem twoPublishers_bound :
    let next := step (κ := Payload) Except.ok Except.ok (RetryPolicy.ofConfig 2000 5)
    let s := Runs.run next twoPublishers (initial fun _ => none)
    let t := Runs.run next [.fetch 2 "a".toList, .get 2 none 0] s
    Succeeded s 0 [1] "checkpoint/a".toList [1] .unchanged ∧
      Fetched t 2 "checkpoint/a".toList (.ok [1]) ∧
      ∀ id outcome, ¬ Succeeded t id [2] "checkpoint/a".toList [2] outcome := by
  intro next s t
  have hFirst : Succeeded s 0 [1] "checkpoint/a".toList [1] .unchanged := ⟨"a".toList, rfl⟩
  refine ⟨hFirst, ⟨"a".toList, rfl⟩, ?_⟩
  intro id outcome hSecond
  have hBound := (@published_payload_unique Payload Except.ok Except.ok
    (RetryPolicy.ofConfig 2000 5) (fun _ _ h => h.symm ▸ rfl) (fun _ => none) twoPublishers).1
      0 [1] _ [1] .unchanged hFirst
  have hSame := (hBound [.fetch 2 "a".toList, .get 2 none 0]).2.1 id [2] [2] outcome hSecond
  exact absurd hSame (by decide)

end Steps

end FabricFs.Session.Published
