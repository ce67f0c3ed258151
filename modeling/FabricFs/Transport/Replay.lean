import Mathlib.Order.Basic
import FabricFs.Lib.Dict
import FabricFs.Lib.Runs
import FabricFs.Transport.Calls

/-!
# At most once

The replay protection of the server against a network that duplicates, delays and repeats
messages. A thread that handles a message reads the wall clock and checks the deadline, reads
the monotonic clock and computes when its token may be forgotten, claims the token under the
lock of the cache, waits for its turn, and checks the deadline again before the handler. Between
these moments anything may happen: other threads, the sweeper, and time.

Threads are known by what they handle, so a state has a pool of messages for each of these
moments. The two clocks advance at the same rate. Signatures are a parameter; that nobody but
the client signs its request is a condition on the messages that are received.

* `Guarded`: what the cache knows about a claimed message until its deadline has passed.
* `Guarded.step`: every event keeps it.
* `handled_at_most_once`: a call with effects reaches the handler at most once, with a verified
  signature and before a deadline within the limit.
-/

namespace FabricFs.Transport

open Lib Lib.Runs Protocol FabricFs.Core List

/-! ## Messages and clocks -/

structure SignedMessage where
  subject : Text
  reply : Text
  data : Text
  signature : Option Text
  deriving DecidableEq, Repr

/-- A server with its secret, its clocks and the checks of a message before the deadline. -/
structure GuardedServer where
  server : FileSystemServer
  mac : Text → Text → Text → Text
  /-- `decode_request_for_subject`. -/
  decode : SignedMessage → Option RequestEnvelope
  /-- The wall clock when the monotonic clock is at 0. -/
  epoch : Nat

namespace GuardedServer

variable (g : GuardedServer)

/-- The signature of the message, and the token in the cache. -/
def token (m : SignedMessage) : Text := g.mac m.subject m.reply m.data

def verifies (m : SignedMessage) : Bool := m.signature == some (g.token m)

/-- `now_unix_nanos`, a 64-bit number. -/
def wall (time : Nat) : Nat := min (time + g.epoch) (2 ^ 64 - 1)

def deadline (m : SignedMessage) : Nat :=
  ((g.decode m).map RequestEnvelope.deadlineUnixNanos).getD 0

end GuardedServer

/-- The checks of `authenticated_replay_or_expiry_response` before the claim. -/
def FileSystemServer.admits (server : FileSystemServer) (request : RequestEnvelope) (now : Nat) :
    Bool :=
  (server.authenticatedReplayOrExpiryResponse request now (.ok true)).isNone

/-- The time to live that the claim asks for. -/
def FileSystemServer.claimTtl (server : FileSystemServer) (deadline now : Nat) : Nat :=
  min deadline (saturatingAdd now server.maxAuthenticatedRequestTtlNanos) - now

/-! ## The cache -/

abbrev ReplayCache : Type := Dict Text Nat

def ReplayCache.discardExpired (cache : ReplayCache) (now : Nat) : ReplayCache :=
  Dict.retainValues (fun expiry => decide (now < expiry)) cache

/-- `claim` under the lock, with the two readings of the clock. -/
def ReplayCache.claim (cache : ReplayCache) (token : Text) (expiresAt first second : Nat) :
    Bool × ReplayCache :=
  let cache := cache.discardExpired first
  match cache.lookup token with
  | some expiry =>
    if second < expiry then (false, cache) else (true, cache.insert token expiresAt)
  | none => (true, cache.insert token expiresAt)

/-! ## The system -/

/-- A call of the handler: the message and the wall clock at the check before it. -/
structure Invocation where
  message : SignedMessage
  now : Nat
  deriving DecidableEq, Repr

/-- The monotonic clock, the cache, the messages by how far they are handled, the calls of the
handler, and all claims that succeeded. -/
structure Guard where
  time : Nat
  cache : ReplayCache
  received : List SignedMessage
  checked : List (SignedMessage × Nat)
  timed : List (SignedMessage × Nat)
  claimed : List SignedMessage
  invoked : List Invocation
  claims : List SignedMessage

/-- The steps of threads, the sweeper and time. The checks of the dispatcher besides the deadline
may go either way. -/
inductive GuardEvent where
  | tick (elapsed : Nat)
  | receive (m : SignedMessage)
  | check (m : SignedMessage)
  | computeExpiry (m : SignedMessage) (now : Nat)
  | claim (m : SignedMessage) (expiresAt toFirst toSecond : Nat)
  | sweep
  | dispatch (m : SignedMessage) (length : Nat) (authorized : Except FsError Unit)
  | fail (m : SignedMessage)
  deriving Repr

namespace GuardedServer

variable (g : GuardedServer)

def start : Guard := ⟨0, ∅, [], [], [], [], [], []⟩

/-- The call of the dispatcher. -/
def call (request : RequestEnvelope) (length now : Nat) (authorized : Except FsError Unit) :
    Call where
  request := request
  metadata := ⟨request.requestId, request.namespaceName, length⟩
  nowUnixNanos := now
  authorized := authorized
  handled := .error ⟨0⟩

/-- A message that decodes and is admitted now goes on to be timed. -/
def check (m : SignedMessage) (s : Guard) : Guard :=
  let now := g.wall s.time
  let s' := { s with received := s.received.erase m }
  match g.decode m with
  | none => s'
  | some request =>
    if g.server.admits request now then { s' with checked := (m, now) :: s.checked } else s'

/-- Of two messages with one token the cache lets the first pass. -/
def claim (m : SignedMessage) (expiresAt toFirst toSecond : Nat) (s : Guard) : Guard :=
  let first := s.time + toFirst
  let second := first + toSecond
  let s' := { s with time := second, timed := s.timed.erase (m, expiresAt) }
  match s.cache.claim (g.token m) expiresAt first second with
  | (false, cache) => { s' with cache := cache }
  | (true, cache) =>
    { s' with cache := cache, claimed := m :: s.claimed, claims := m :: s.claims }

/-- The deadline is checked again, right before the service is called. -/
def dispatch (m : SignedMessage) (length : Nat) (authorized : Except FsError Unit) (s : Guard) :
    Guard :=
  let now := g.wall s.time
  let s' := { s with claimed := s.claimed.erase m }
  match g.decode m with
  | none => s'
  | some request =>
    match validateBeforeHandler g.server.limits (call request length now authorized) with
    | .ok () => { s' with invoked := ⟨m, now⟩ :: s.invoked }
    | .error _ => s'

/-- An event of a thread that does not exist changes nothing. -/
def step (e : GuardEvent) (s : Guard) : Guard :=
  match e with
  | .tick elapsed => { s with time := s.time + elapsed }
  | .receive m => if g.verifies m then { s with received := m :: s.received } else s
  | .check m => if m ∈ s.received then g.check m s else s
  | .computeExpiry m now =>
    if (m, now) ∈ s.checked then
      { s with
        checked := s.checked.erase (m, now)
        timed := (m, s.time + g.server.claimTtl (g.deadline m) now) :: s.timed }
    else s
  | .claim m expiresAt toFirst toSecond =>
    if (m, expiresAt) ∈ s.timed then g.claim m expiresAt toFirst toSecond s else s
  | .sweep => { s with cache := s.cache.discardExpired s.time }
  | .dispatch m length authorized =>
    if m ∈ s.claimed then g.dispatch m length authorized s else s
  | .fail m => { s with claimed := s.claimed.erase m }

end GuardedServer

open GuardedServer

/-! ## What the cache knows -/

/-- The deadline has passed, or the cache keeps the token until then. -/
def Covered (g : GuardedServer) (cache : ReplayCache) (time : Nat) (token : Text)
    (deadline : Nat) : Prop :=
  deadline ≤ g.wall time ∨ ∃ expiry, cache.lookup token = some expiry ∧ deadline ≤ expiry + g.epoch

section Cover

variable {g : GuardedServer} {cache cache' : ReplayCache} {time time' : Nat} {token token' : Text}
  {deadline : Nat}

theorem wall_mono (h : time ≤ time') : g.wall time ≤ g.wall time' := by
  simp only [wall]
  omega

theorem le_wall (h : deadline ≤ time + g.epoch) (hBound : deadline < 2 ^ 64) :
    deadline ≤ g.wall time := by
  simp only [wall]
  omega

theorem Covered.later (h : Covered g cache time token deadline) (hTime : time ≤ time') :
    Covered g cache time' token deadline :=
  h.imp_left fun hPast => hPast.trans (wall_mono hTime)

theorem Covered.discardExpired (h : Covered g cache time token deadline) (hTime : time ≤ time')
    (hBound : deadline < 2 ^ 64) :
    Covered g (cache.discardExpired time') time' token deadline := by
  rcases h with hPast | ⟨expiry, hLookup, hExpiry⟩
  · exact .inl (hPast.trans (wall_mono hTime))
  · by_cases hKept : time' < expiry
    · refine .inr ⟨expiry, ?_, hExpiry⟩
      rw [ReplayCache.discardExpired, Dict.lookup_retainValues, hLookup]
      simp [Option.filter, hKept]
    · exact .inl (le_wall (by omega) hBound)

/-- A claim covers the other tokens as before, and succeeds for a covered token only once its
deadline has passed. -/
theorem Covered.claim {expiresAt first second : Nat} {won : Bool}
    (h : Covered g cache time token deadline) (hFirst : time ≤ first) (hSecond : first ≤ second)
    (hBound : deadline < 2 ^ 64)
    (hClaim : cache.claim token' expiresAt first second = (won, cache')) :
    Covered g cache' second token deadline ∧
      (won = true → token = token' → deadline ≤ g.wall second) := by
  have hKept := h.discardExpired hFirst hBound
  have hInsert : token ≠ token' → Covered g
      ((cache.discardExpired first).insert token' expiresAt) second token deadline := fun hNe => by
    refine (hKept.later hSecond).imp_right ?_
    rintro ⟨expiry, hLookup, hExpiry⟩
    exact ⟨expiry, by rw [AList.lookup_insert_ne hNe, hLookup], hExpiry⟩
  unfold ReplayCache.claim at hClaim
  dsimp only at hClaim
  split at hClaim
  · rename_i expiry hLookup
    split at hClaim
    · cases hClaim
      exact ⟨hKept.later hSecond, nofun⟩
    · rename_i hOver
      cases hClaim
      have hPast : token = token' → deadline ≤ g.wall second := by
        rintro rfl
        rcases hKept with hPast | ⟨expiry', hLookup', hExpiry⟩
        · exact hPast.trans (wall_mono hSecond)
        · rw [hLookup] at hLookup'
          cases hLookup'
          exact le_wall (by omega) hBound
      refine ⟨?_, fun _ => hPast⟩
      by_cases hSame : token = token'
      · exact .inl (hPast hSame)
      · exact hInsert hSame
  · rename_i hNone
    cases hClaim
    have hPast : token = token' → deadline ≤ g.wall second := by
      rintro rfl
      rcases hKept with hPast | ⟨expiry', hLookup', -⟩
      · exact hPast.trans (wall_mono hSecond)
      · rw [hNone] at hLookup'
        cases hLookup'
    refine ⟨?_, fun _ => hPast⟩
    by_cases hSame : token = token'
    · exact .inl (hPast hSame)
    · exact hInsert hSame

/-- After a claim that succeeds the token is kept until it expires. -/
theorem lookup_claim {expiresAt first second : Nat}
    (hClaim : cache.claim token expiresAt first second = (true, cache')) :
    cache'.lookup token = some expiresAt := by
  unfold ReplayCache.claim at hClaim
  dsimp only at hClaim
  split at hClaim
  · split at hClaim
    · cases hClaim
    · cases hClaim
      exact AList.lookup_insert _
  · cases hClaim
    exact AList.lookup_insert _

end Cover

/-! ## The invariant -/

/-- The message decodes to a request whose deadline was ahead of the clock and within the limit
at the given moment. -/
def Admitted (g : GuardedServer) (m : SignedMessage) (now : Nat) : Prop :=
  ∃ request, g.decode m = some request ∧ now < request.deadlineUnixNanos ∧
    request.deadlineUnixNanos ≤ saturatingAdd now g.server.maxAuthenticatedRequestTtlNanos

/-- The messages in the pools are verified and were admitted, the claims are covered, and every
call of the handler has a claim of its own. -/
structure Guarded (g : GuardedServer) (R : SignedMessage → Prop) (s : Guard) : Prop where
  received : ∀ m ∈ s.received, g.verifies m = true ∧ R m
  checked : ∀ p ∈ s.checked, (g.verifies p.1 = true ∧ R p.1) ∧ p.2 ≤ g.wall s.time ∧
    Admitted g p.1 p.2
  timed : ∀ p ∈ s.timed, (g.verifies p.1 = true ∧ R p.1) ∧ g.deadline p.1 ≤ p.2 + g.epoch ∧
    ∃ now ≤ g.wall s.time, Admitted g p.1 now
  claimed : ∀ m ∈ s.claimed, (g.verifies m = true ∧ R m) ∧ ∃ now ≤ g.wall s.time, Admitted g m now
  covered : ∀ m ∈ s.claims, g.deadline m < 2 ^ 64 ∧
    Covered g s.cache s.time (g.token m) (g.deadline m)
  single : ∀ m, g.wall s.time < g.deadline m → s.claims.count m ≤ 1
  account : ∀ m, (s.invoked.map Invocation.message).count m + s.claimed.count m ≤ s.claims.count m
  once : ∀ m, (s.invoked.map Invocation.message).count m ≤ 1
  invoked : ∀ i ∈ s.invoked, (g.verifies i.message = true ∧ R i.message) ∧
    Admitted g i.message i.now

section Guarded

variable {g : GuardedServer} {R : SignedMessage → Prop} {s : Guard}

variable {m : SignedMessage} {now : Nat}

theorem Admitted.deadline (h : Admitted g m now) :
    now < g.deadline m ∧ g.deadline m ≤
      saturatingAdd now g.server.maxAuthenticatedRequestTtlNanos := by
  obtain ⟨request, hDecode, hTime⟩ := h
  simpa [GuardedServer.deadline, hDecode] using hTime

theorem Admitted.bounded (h : Admitted g m now) : g.deadline m < 2 ^ 64 := by
  have hTime := h.deadline.2
  simp only [saturatingAdd] at hTime
  omega

theorem guarded_start : Guarded g R start := by
  constructor <;> simp [start]

theorem Guarded.later {time' : Nat} (h : Guarded g R s) (hTime : s.time ≤ time') :
    Guarded g R { s with time := time' } where
  received := h.received
  checked p hp :=
    ⟨(h.checked p hp).1, (h.checked p hp).2.1.trans (wall_mono hTime), (h.checked p hp).2.2⟩
  timed p hp := by
    obtain ⟨hVerified, hExpiry, now, hNow, hAdmitted⟩ := h.timed p hp
    exact ⟨hVerified, hExpiry, now, hNow.trans (wall_mono hTime), hAdmitted⟩
  claimed m hm := by
    obtain ⟨hVerified, now, hNow, hAdmitted⟩ := h.claimed m hm
    exact ⟨hVerified, now, hNow.trans (wall_mono hTime), hAdmitted⟩
  covered m hm := ⟨(h.covered m hm).1, (h.covered m hm).2.later hTime⟩
  single m hm := h.single m ((wall_mono hTime).trans_lt hm)
  account := h.account
  once := h.once
  invoked := h.invoked

theorem Guarded.check (h : Guarded g R s) (hm : m ∈ s.received) : Guarded g R (g.check m s) := by
  have hErase : Guarded g R { s with received := s.received.erase m } :=
    { h with received := fun m' hm' => h.received m' (mem_of_mem_erase hm') }
  unfold GuardedServer.check
  dsimp only
  split
  · exact hErase
  · rename_i request hDecode
    split
    · rename_i hAdmits
      refine { hErase with checked := fun p hp => ?_ }
      rcases mem_cons.1 hp with rfl | hp
      · have hNone := authenticatedReplayOrExpiryResponse_eq_none.1
          (Option.isNone_iff_eq_none.1 hAdmits)
        exact ⟨h.received m hm, le_rfl, _, hDecode, hNone.1, hNone.2.1⟩
      · exact h.checked p hp
    · exact hErase

theorem Guarded.computeExpiry (h : Guarded g R s) (hm : (m, now) ∈ s.checked) :
    Guarded g R { s with
      checked := s.checked.erase (m, now)
      timed := (m, s.time + g.server.claimTtl (g.deadline m) now) :: s.timed } := by
  obtain ⟨hVerified, hNow, hAdmitted⟩ := h.checked _ hm
  refine { h with
    checked := fun p hp => h.checked p (mem_of_mem_erase hp)
    timed := fun p hp => ?_ }
  rcases mem_cons.1 hp with rfl | hp
  · refine ⟨hVerified, ?_, now, hNow, hAdmitted⟩
    have hTime := hAdmitted.deadline
    simp only [wall] at hNow
    simp only [FileSystemServer.claimTtl, Nat.min_eq_left hTime.2]
    omega
  · exact h.timed p hp

theorem Guarded.claim (h : Guarded g R s) {expiresAt toFirst toSecond : Nat}
    (hm : (m, expiresAt) ∈ s.timed) : Guarded g R (g.claim m expiresAt toFirst toSecond s) := by
  have hLater : Guarded g R { s with
      time := s.time + toFirst + toSecond
      timed := s.timed.erase (m, expiresAt) } :=
    { h.later (show s.time ≤ s.time + toFirst + toSecond by omega) with
      timed := fun p hp =>
        (h.later (show s.time ≤ s.time + toFirst + toSecond by omega)).timed p
          (mem_of_mem_erase hp) }
  obtain ⟨hVerified, hExpiry, now, hNow, hAdmitted⟩ := h.timed _ hm
  have hWall := wall_mono (g := g) (show s.time ≤ s.time + toFirst + toSecond by omega)
  unfold GuardedServer.claim
  dsimp only
  split
  · rename_i cache hClaim
    refine { hLater with covered := fun m' hm' => ⟨(h.covered m' hm').1, ?_⟩ }
    exact ((h.covered m' hm').2.claim (Nat.le_add_right _ _) (Nat.le_add_right _ _)
      (h.covered m' hm').1 hClaim).1
  · rename_i cache hClaim
    -- a message that was claimed before is past its deadline by now
    have hPast : m ∈ s.claims → g.deadline m ≤ g.wall (s.time + toFirst + toSecond) := fun hOld =>
      ((h.covered m hOld).2.claim (Nat.le_add_right _ _) (Nat.le_add_right _ _)
        (h.covered m hOld).1 hClaim).2 rfl rfl
    exact { hLater with
      claimed := fun m' hm' => by
        rcases mem_cons.1 hm' with rfl | hm'
        · exact ⟨hVerified, now, hNow.trans hWall, hAdmitted⟩
        · exact hLater.claimed m' hm'
      covered := fun m' hm' => by
        rcases mem_cons.1 hm' with rfl | hm'
        · exact ⟨hAdmitted.bounded, .inr ⟨expiresAt, lookup_claim hClaim, hExpiry⟩⟩
        · exact ⟨(h.covered m' hm').1, ((h.covered m' hm').2.claim (Nat.le_add_right _ _)
            (Nat.le_add_right _ _) (h.covered m' hm').1 hClaim).1⟩
      single := fun m' hm' => by
        have hOld := hLater.single m' hm'
        rw [count_cons]
        split
        · rename_i hSame
          have hSame := eq_of_beq hSame
          subst hSame
          have hNew : m ∉ s.claims := fun hOld => absurd (hPast hOld) (by simpa using hm')
          rw [count_eq_zero.2 hNew]
        · exact hOld
      account := fun m' => by
        have hOld := h.account m'
        simp only [count_cons]
        omega }

theorem Guarded.dispatch (h : Guarded g R s) {length : Nat} {authorized : Except FsError Unit}
    (hm : m ∈ s.claimed) :
    Guarded g R (g.dispatch m length authorized s) := by
  have hErase : Guarded g R { s with claimed := s.claimed.erase m } :=
    { h with
      claimed := fun m' hm' => h.claimed m' (mem_of_mem_erase hm')
      account := fun m' =>
        (Nat.add_le_add_left (List.Sublist.count_le m' erase_sublist) _).trans (h.account m') }
  unfold GuardedServer.dispatch
  dsimp only
  split
  · exact hErase
  · rename_i request hDecode
    split
    · rename_i hChecked
      obtain ⟨hVerified, now, hNow, hAdmitted⟩ := h.claimed m hm
      have hDeadline : g.deadline m = request.deadlineUnixNanos := by
        simp [deadline, hDecode]
      have hTime := hAdmitted.deadline
      have hDue : g.wall s.time < g.deadline m := by
        simp only [validateBeforeHandler, check_bind_eq_ok, require_eq_ok, Bool.or_eq_true,
          beq_iff_eq, decide_eq_true_eq] at hChecked
        rcases hChecked.2.2.2.1 with hZero | hDue
        · have hZero : request.deadlineUnixNanos = 0 := hZero
          omega
        · rw [hDeadline]
          exact hDue
      -- the one claim is that of this thread, which has not called the handler yet
      have hSingle := h.single m hDue
      have hAccount := h.account m
      have hOwn : 0 < s.claimed.count m := count_pos_iff.2 hm
      refine { hErase with
        account := fun m' => ?_, once := fun m' => ?_, invoked := fun i hi => ?_ }
      · have hOld := h.account m'
        simp only [map_cons, count_cons, beq_iff_eq]
        by_cases hSame : m = m'
        · subst hSame
          rw [if_pos rfl, count_erase_self]
          omega
        · rw [if_neg hSame, count_erase_of_ne (Ne.symm hSame)]
          omega
      · have hOld := h.once m'
        simp only [map_cons, count_cons, beq_iff_eq]
        by_cases hSame : m = m'
        · subst hSame
          rw [if_pos rfl]
          omega
        · rw [if_neg hSame]
          omega
      · rcases mem_cons.1 hi with rfl | hi
        · refine ⟨hVerified, request, hDecode, hDeadline ▸ hDue, ?_⟩
          rw [← hDeadline]
          refine hTime.2.trans ?_
          simp only [saturatingAdd]
          omega
        · exact h.invoked i hi
    · exact hErase

/-- Every message that is received and verified has the property. -/
def Genuine (g : GuardedServer) (R : SignedMessage → Prop) : GuardEvent → Prop
  | .receive m => g.verifies m = true → R m
  | _ => True

theorem Guarded.step (h : Guarded g R s) (e : GuardEvent) (hGenuine : Genuine g R e) :
    Guarded g R (g.step e s) := by
  unfold GuardedServer.step
  cases e with
  | tick elapsed => exact h.later (Nat.le_add_right _ _)
  | receive m =>
    dsimp only
    split
    · rename_i hVerified
      refine { h with received := fun m' hm' => ?_ }
      rcases mem_cons.1 hm' with rfl | hm'
      · exact ⟨hVerified, hGenuine hVerified⟩
      · exact h.received m' hm'
    · exact h
  | check m =>
    dsimp only
    split
    · exact h.check ‹_›
    · exact h
  | computeExpiry m now =>
    dsimp only
    split
    · exact h.computeExpiry ‹_›
    · exact h
  | claim m expiresAt toFirst toSecond =>
    dsimp only
    split
    · exact h.claim ‹_›
    · exact h
  | sweep =>
    exact { h with covered := fun m hm =>
      ⟨(h.covered m hm).1, (h.covered m hm).2.discardExpired le_rfl (h.covered m hm).1⟩ }
  | dispatch m length authorized =>
    dsimp only
    split
    · exact h.dispatch ‹_›
    · exact h
  | fail m =>
    exact { h with
      claimed := fun m' hm' => h.claimed m' (mem_of_mem_erase hm')
      account := fun m' =>
        (Nat.add_le_add_left (List.Sublist.count_le m' erase_sublist) _).trans (h.account m') }

end Guarded

/-! ## Calls with effects -/

/-- The message of an attempt: the request with a reply subject of its own, signed. -/
def GuardedServer.messageOf (g : GuardedServer) (subject bytes : Text) (inbox : Nat → Text)
    (attempt : Nat) : SignedMessage :=
  ⟨subject, inbox attempt, bytes, some (g.mac subject (inbox attempt) bytes)⟩

/-- A call whose operation is neither read-only nor a release reaches the handler at most once,
whatever happens to its publications and whatever else is received; the handler is called only
for verified messages before a deadline within the limit. The bytes of the request are signed by
nobody but the attempts of the call. -/
theorem handled_at_most_once (g : GuardedServer) (events : List GuardEvent)
    (config : ClientConfig) (request : RequestEnvelope) (script : Nat → Attempt)
    (subject bytes : Text) (inbox : Nat → Text) (hRelease : request.operation ≠ .release)
    (hReadOnly : request.operation.effect ≠ .readOnly)
    (hUnforgeable : ∀ m, .receive m ∈ events → g.verifies m = true → m.data = bytes →
      m ∈ (config.roundTripRegistered request script).2.map (g.messageOf subject bytes inbox)) :
    let s := run g.step events start
    s.invoked.countP (fun i => i.message.data == bytes) ≤ 1 ∧
    ∀ i ∈ s.invoked, g.verifies i.message = true ∧ Admitted g i.message i.now := by
  intro s
  have hEffects : canRetryAfterPublish request = false := by
    simp [canRetryAfterPublish, requestHasAmbiguousPostPublishEffects, hRelease, hReadOnly]
  have hLength : (config.attemptsFrom request script (config.maxRetries + 1) 0).2.length ≤ 1 :=
    published_once hEffects _ _
  have hGuarded : Guarded g (fun m => m.data = bytes →
      m ∈ (config.roundTripRegistered request script).2.map (g.messageOf subject bytes inbox))
        s := by
    refine run_invariant (fun e _ h hC => h.step e hC) guarded_start (along_of_forall
      fun e he => ?_)
    cases e with
    | receive m => exact hUnforgeable m he
    | _ => trivial
  refine ⟨?_, fun i hi => ⟨(hGuarded.invoked i hi).1.1, (hGuarded.invoked i hi).2⟩⟩
  have hPublished : ∀ i ∈ s.invoked, i.message.data = bytes → i.message ∈
      (config.roundTripRegistered request script).2.map (g.messageOf subject bytes inbox) :=
    fun i hi => (hGuarded.invoked i hi).1.2
  -- there is at most one message to choose from
  unfold ClientConfig.roundTripRegistered at hPublished
  rcases hAll : (config.attemptsFrom request script (config.maxRetries + 1) 0).2 with _ | ⟨k, rest⟩
  · rw [hAll] at hPublished
    rw [countP_eq_zero.2 fun i hi hBytes =>
      not_mem_nil (hPublished i hi (eq_of_beq hBytes))]
    exact Nat.zero_le 1
  · rw [hAll] at hPublished hLength
    have hRest : rest = [] := by
      simp only [length_cons] at hLength
      exact eq_nil_of_length_eq_zero (by omega)
    subst hRest
    refine le_trans ?_ (hGuarded.once (g.messageOf subject bytes inbox k))
    rw [List.count, countP_map]
    refine countP_mono_left fun i hi hBytes => ?_
    simpa using mem_singleton.1 (hPublished i hi (eq_of_beq hBytes))

section Samples

/-- Write a byte to `/f`, with the deadline 1000. -/
def sampleWrite : RequestEnvelope :=
  ⟨currentVersion, [114], .write, [110], 1000, .write (some [slash, 102]) 1 0 [0]⟩

def sampleGuarded : GuardedServer where
  server := sampleServer 4096
  mac := fun subject reply data => subject ++ reply ++ data
  decode := fun _ => some sampleWrite
  epoch := 5

def sampleMessage : SignedMessage := sampleGuarded.messageOf [115] [98] (fun _ => [105]) 0

/-- The message comes twice. Both threads pass the first check, one wins the claim. -/
def replayedEvents : List GuardEvent :=
  [.receive sampleMessage, .receive sampleMessage, .check sampleMessage, .check sampleMessage,
    .computeExpiry sampleMessage 5, .tick 10, .computeExpiry sampleMessage 5,
    .claim sampleMessage 995 0 0, .claim sampleMessage 1005 1 1, .sweep,
    .dispatch sampleMessage 64 (.ok ()), .dispatch sampleMessage 64 (.ok ())]

theorem handled_once_of_replayed :
    (run sampleGuarded.step replayedEvents start).invoked.length = 1 ∧
    (run sampleGuarded.step replayedEvents start).invoked.countP
      (fun i => i.message.data == [98]) ≤ 1 := by
  refine ⟨by decide +kernel, (handled_at_most_once sampleGuarded replayedEvents sampleConfig
    sampleWrite (fun _ => ⟨true, .ok (), .ok (), .timedOut⟩) [115] [98] (fun _ => [105])
    (by decide) (by decide) fun m hm _ _ => ?_).1⟩
  have hOnly : m = sampleMessage := by simpa [replayedEvents] using hm
  rw [hOnly]
  decide +kernel

end Samples

end FabricFs.Transport
