import FabricFs.Lib.Runs
import Mathlib.Logic.Function.Basic
import Mathlib.Data.Nat.Pairing

/-!
# The storage invalidation gate

`StorageInvalidationGate` of `watch/admission.rs` with the worker of `watch/publication.rs`.
Requests and the publication of a full resync share one execution lane. A watch event that
the server did not cause itself is a debt, and no request starts before the debt is paid by
a publication.

The state behind the mutex is one record. Every critical section is one step, and so is
every call of `notify_all`, which comes after the critical section has ended; a thread is
between the two when it owes the call. Any number of threads take any of the roles, and the
steps come in any order. The self-notify bookkeeping takes part with the shape of its code;
what a tracked write looks like, and what it finds on the disk, is left open.

* `step_records`: a watch event that no tracked write explains is recorded, and is a debt.
* `gate_admits`: one thread at a time holds the lane; every watch event that is not
  suppressed is recorded; a request starts only when every recorded event has been followed
  by a successful publication that began after it; a publication that fails leaves the debt;
  and under a fair scheduler no sleeping thread misses the moment at which it may go on.
-/

namespace FabricFs.Watch

open Lib.Runs

/-! ## The state behind the mutex -/

inductive LaneOwner where
  | request
  | fullResync
  deriving DecidableEq, Repr

/-- What a thread is doing with the gate. -/
inductive Activity where
  | idle
  /-- Inside `Condvar::wait`. -/
  | asleep (purpose : LaneOwner)
  /-- Back from `Condvar::wait`, before the condition is looked at again. -/
  | woken (purpose : LaneOwner)
  | holding (owner : LaneOwner)
  /-- Between the end of a critical section and `notify_all`. -/
  | notifying
  deriving DecidableEq, Repr

/-- What happened at the gate, for the order of events and publications. -/
inductive Moment where
  | recorded
  | began (thread : Nat)
  | delivered (thread : Nat)
  | failed (thread : Nat)
  deriving DecidableEq, Repr

structure Gate (ω : Type) where
  active : Bool
  fullResyncPending : Bool
  laneOwner : Option LaneOwner
  selfNotifyWrites : List ω
  activity : Nat → Activity
  /-- The latest moment first. -/
  past : List Moment

/-- How writes of the server itself are tracked: `κ` is a completed write, `ε` the class and
the paths of a watch event. -/
structure SelfNotify (ω κ ε : Type) where
  track : κ → Nat → ω
  hasPaths : ω → Bool
  overlaps : ω → ω → Bool
  expiresAt : ω → Nat
  isExhausted : ω → Bool
  hasEventPaths : ε → Bool
  canConsume : ε → ω → Bool
  matchesExpectedState : ε → ω → Bool
  consume : ε → ω → ω

variable {ω κ ε : Type}

namespace Gate

def new : Gate ω where
  active := false
  fullResyncPending := false
  laneOwner := none
  selfNotifyWrites := []
  activity _ := .idle
  past := []

def become (g : Gate ω) (t : Nat) (a : Activity) : Gate ω :=
  { g with activity := Function.update g.activity t a }

def happen (g : Gate ω) (m : Moment) : Gate ω := { g with past := m :: g.past }

def requestMayStart (g : Gate ω) : Bool := g.laneOwner.isNone && !g.fullResyncPending

def resyncMayStart (g : Gate ω) : Bool :=
  g.active && (g.fullResyncPending && g.laneOwner.isNone)

/-- The condition that a thread inside the gate waits for. -/
def mayEnter (g : Gate ω) : LaneOwner → Bool
  | .request => g.requestMayStart
  | .fullResync => g.resyncMayStart

end Gate

/-! ## Writes of the server itself -/

namespace SelfNotify

variable (r : SelfNotify ω κ ε)

def pruneExpired (now : Nat) (g : Gate ω) : Gate ω :=
  { g with selfNotifyWrites :=
      g.selfNotifyWrites.filter fun w => decide (now < r.expiresAt w) && !r.isExhausted w }

def recordCompletedWrite (write : κ) (ttl now : Nat) (g : Gate ω) : Gate ω :=
  let tracked := r.track write (now + ttl)
  if r.hasPaths tracked then
    { g with selfNotifyWrites :=
        g.selfNotifyWrites.filter (fun w => !r.overlaps w tracked) ++ [tracked] }
  else g

/-- The loop over the tracked writes, the latest one first. -/
def consumeFrom (event : ε) : List ω → Bool × List ω
  | [] => (false, [])
  | w :: earlier =>
    if !r.canConsume event w then
      ((consumeFrom event earlier).1, w :: (consumeFrom event earlier).2)
    else if r.matchesExpectedState event w then
      (true, if r.isExhausted (r.consume event w) then earlier else r.consume event w :: earlier)
    else consumeFrom event earlier

def consumeSelfNotifyPaths (event : ε) (g : Gate ω) : Bool × Gate ω :=
  if r.hasEventPaths event then
    let rest := r.consumeFrom event g.selfNotifyWrites.reverse
    (rest.1, { g with selfNotifyWrites := rest.2.reverse })
  else (false, g)

end SelfNotify

/-! ## The steps -/

/-- A critical section of the named thread, a call of `notify_all`, or a spurious wake-up. -/
inductive GateEvent (κ ε : Type) where
  | activate (t : Nat)
  | startRequest (t now : Nat)
  | finishRequest (t now : Nat)
  | claimFullResync (t now : Nat)
  | markDelivered (t : Nat)
  /-- The claim is dropped: no invalidation to publish, an error, or a panic. -/
  | dropClaim (t : Nat)
  | recordClassifiedWatchEvent (t : Nat) (event : ε) (now : Nat)
  | recordUnsuppressibleWatchEvent (t now : Nat)
  | suppressSelfNotifyEvent (event : ε) (now : Nat)
  | recordCompletedSelfNotifyWrite (write : κ) (now : Nat)
  | notifyAll (t : Nat)
  | wake (t : Nat)

namespace Gate

def activate (t : Nat) (g : Gate ω) : Gate ω :=
  { g with active := true }.become t .notifying

/-- One round of the loop of `start_request`. -/
def startRequest (t : Nat) (g : Gate ω) : Gate ω :=
  if g.requestMayStart then { g with laneOwner := some .request }.become t (.holding .request)
  else g.become t (.asleep .request)

def finishRequest (t : Nat) (g : Gate ω) : Gate ω :=
  if g.laneOwner = some .request then { g with laneOwner := none }.become t .notifying
  else g.become t .idle

/-- One round of the loop of `claim_full_resync`, for a worker that is not being stopped. -/
def claimFullResync (t : Nat) (g : Gate ω) : Gate ω :=
  if g.resyncMayStart then
    let claimed := { g with fullResyncPending := false, laneOwner := some .fullResync }
    (claimed.become t (.holding .fullResync)).happen (.began t)
  else g.become t (.asleep .fullResync)

def completeFullResyncClaim (t : Nat) (g : Gate ω) : Gate ω :=
  let released :=
    if g.laneOwner = some .fullResync then { g with laneOwner := none } else g
  (released.become t .notifying).happen (.delivered t)

def restoreFullResyncClaim (t : Nat) (g : Gate ω) : Gate ω :=
  let released :=
    if g.laneOwner = some .fullResync then
      { g with laneOwner := none, fullResyncPending := true }
    else g
  (released.become t .notifying).happen (.failed t)

/-- `defer_event` with the notification that follows it if the lane is free. -/
def deferEvent (t : Nat) (g : Gate ω) : Gate ω :=
  let deferred := { g with fullResyncPending := true }
  (deferred.become t (if g.laneOwner.isNone then .notifying else .idle)).happen .recorded

def notifyAll (t : Nat) (g : Gate ω) : Gate ω :=
  { g with activity := fun u =>
      if u = t then .idle
      else match g.activity u with
        | .asleep p => .woken p
        | a => a }

def wake (t : Nat) (g : Gate ω) : Gate ω :=
  match g.activity t with
  | .asleep p => g.become t (.woken p)
  | _ => g

end Gate

open Gate

namespace SelfNotify

variable (r : SelfNotify ω κ ε) (ttl : Nat)

def recordUnsuppressibleWatchEvent (t now : Nat) (g : Gate ω) : Gate ω :=
  let g := r.pruneExpired now g
  if g.active then g.deferEvent t else g

def recordClassifiedWatchEvent (t : Nat) (event : ε) (now : Nat) (g : Gate ω) : Gate ω :=
  let g := r.pruneExpired now g
  if g.active then
    let (suppressed, g) := r.consumeSelfNotifyPaths event g
    if suppressed then g else g.deferEvent t
  else g

/-- A step that its thread cannot take now changes nothing. -/
def step : GateEvent κ ε → Gate ω → Gate ω
  | .activate t, g => if g.activity t = .idle then g.activate t else g
  | .startRequest t now, g =>
    if g.activity t = .idle ∨ g.activity t = .woken .request then
      (r.pruneExpired now g).startRequest t
    else g
  | .finishRequest t now, g =>
    if g.activity t = .holding .request then r.pruneExpired now (g.finishRequest t) else g
  | .claimFullResync t now, g =>
    if g.activity t = .idle ∨ g.activity t = .woken .fullResync then
      (r.pruneExpired now g).claimFullResync t
    else g
  | .markDelivered t, g =>
    if g.activity t = .holding .fullResync then g.completeFullResyncClaim t else g
  | .dropClaim t, g =>
    if g.activity t = .holding .fullResync then g.restoreFullResyncClaim t else g
  | .recordClassifiedWatchEvent t event now, g =>
    if g.activity t = .idle then r.recordClassifiedWatchEvent t event now g else g
  | .recordUnsuppressibleWatchEvent t now, g =>
    if g.activity t = .idle then r.recordUnsuppressibleWatchEvent t now g else g
  | .suppressSelfNotifyEvent event now, g =>
    (r.consumeSelfNotifyPaths event (r.pruneExpired now g)).2
  | .recordCompletedSelfNotifyWrite write now, g =>
    r.recordCompletedWrite write ttl now (r.pruneExpired now g)
  | .notifyAll t, g => if g.activity t = .notifying then g.notifyAll t else g
  | .wake t, g => g.wake t

end SelfNotify

open SelfNotify

/-! ## The invariant -/

variable {t : Nat} {later : List Moment} {g g' : Gate ω} {o : LaneOwner}

/-- The thread began a publication that has neither succeeded nor failed yet. -/
def InProgress (t : Nat) (later : List Moment) : Prop :=
  ∃ during before, later = during ++ .began t :: before ∧ .delivered t ∉ during ∧ .failed t ∉ during

/-- A publication began and then succeeded. -/
def Followed (later : List Moment) : Prop :=
  ∃ t after rest, later = after ++ .delivered t :: rest ∧ InProgress t rest

theorem Followed.cons (h : Followed later) (m : Moment) : Followed (m :: later) := by
  obtain ⟨t, after, rest, rfl, hRest⟩ := h
  exact ⟨t, m :: after, rest, rfl, hRest⟩

/-- An event after which `later` happened is paid for, or still to be paid for. -/
def Accounted (g : Gate ω) (later : List Moment) : Prop :=
  Followed later ∨ g.fullResyncPending = true ∨
    ∃ t, g.activity t = .holding .fullResync ∧ InProgress t later

theorem Accounted.imp (h : Accounted g later)
    (hDebt : g.fullResyncPending = true → g'.fullResyncPending = true)
    (hRuns : ∀ t, g.activity t = .holding .fullResync → g'.activity t = .holding .fullResync) :
    Accounted g' later :=
  Or.imp_right (Or.imp hDebt fun ⟨t, ht, hLater⟩ => ⟨t, hRuns t ht, hLater⟩) h

structure Orderly (g : Gate ω) : Prop where
  /-- A thread that holds the lane is the one the lane is held for. -/
  owned : ∀ t o, g.activity t = .holding o → g.laneOwner = some o
  alone : ∀ t u o p, g.activity t = .holding o → g.activity u = .holding p → t = u
  accounted : ∀ later earlier, g.past = later ++ .recorded :: earlier → Accounted g later
  /-- A sleeping thread that may go on is about to be woken. -/
  noticed : ∀ t p, g.activity t = .asleep p → g.mayEnter p = true → ∃ u, g.activity u = .notifying

/-- The bookkeeping of the writes of the server plays no part. -/
theorem Orderly.of_writes (h : Orderly g) (writes : List ω) :
    Orderly { g with selfNotifyWrites := writes } where
  owned := h.owned
  alone := h.alone
  accounted := h.accounted
  noticed := h.noticed

theorem orderly_new : Orderly (new : Gate ω) where
  owned t o ht := by cases ht
  alone t u o p ht := by cases ht
  accounted later earlier hPast := by cases later <;> cases hPast
  noticed t p ht := by cases ht

/-! ## Every step keeps it -/

theorem Gate.mayEnter_of_owned (hLane : g.laneOwner = some o) (p : LaneOwner) :
    g.mayEnter p = false := by
  cases p <;> simp [mayEnter, requestMayStart, resyncMayStart, hLane]

theorem Orderly.nobody (h : Orderly g) (hLane : g.laneOwner = none) (t : Nat) (o : LaneOwner) :
    g.activity t ≠ .holding o := by
  intro ht
  have := h.owned t o ht
  rw [hLane] at this
  cases this

theorem split_cons {m : Moment} {past earlier : List Moment} (hm : m ≠ .recorded)
    (h : m :: past = later ++ .recorded :: earlier) :
    ∃ rest, later = m :: rest ∧ past = rest ++ .recorded :: earlier := by
  cases later with
  | nil => exact absurd (List.cons.inj h).1 hm
  | cons n rest =>
    obtain ⟨rfl, hPast⟩ := List.cons.inj h
    exact ⟨rest, rfl, hPast⟩

attribute [local simp] Gate.become become

/-- A thread that has nothing to do with the lane falls asleep or goes on. -/
theorem Orderly.become (h : Orderly g) {a : Activity} (hBefore : ∀ o, g.activity t ≠ .holding o)
    (hOwes : g.activity t ≠ .notifying) (hAfter : ∀ o, a ≠ .holding o)
    (hAsleep : ∀ p, a = .asleep p → g.mayEnter p = false) :
    Orderly (g.become t a) where
  owned u o hu := by
    by_cases hut : u = t
    · subst hut
      exact absurd (by simpa using hu) (hAfter o)
    · exact h.owned u o (by simpa [hut] using hu)
  alone u v o p hu hv := by
    by_cases hut : u = t
    · subst hut
      exact absurd (by simpa using hu) (hAfter o)
    · by_cases hvt : v = t
      · subst hvt
        exact absurd (by simpa using hv) (hAfter p)
      · exact h.alone u v o p (by simpa [hut] using hu) (by simpa [hvt] using hv)
  accounted later earlier hPast := by
    refine (h.accounted later earlier hPast).imp id fun u hu => ?_
    have hut : u ≠ t := fun hut => hBefore _ (hut ▸ hu)
    simpa [hut] using hu
  noticed u p hu hMay := by
    by_cases hut : u = t
    · subst hut
      have hSleeps := hAsleep p (by simpa using hu)
      exact absurd (hMay.symm.trans hSleeps) (by decide)
    · obtain ⟨v, hv⟩ := h.noticed u p (by simpa [hut] using hu) hMay
      have hvt : v ≠ t := fun hvt => hOwes (hvt ▸ hv)
      exact ⟨v, by simpa [hvt] using hv⟩

/-- A thread that may not enter goes to sleep. -/
theorem Orderly.sleep (h : Orderly g) {p : LaneOwner}
    (hOutside : g.activity t = .idle ∨ g.activity t = .woken p) (hMay : ¬ g.mayEnter p = true) :
    Orderly (g.become t (.asleep p)) := by
  refine h.become ?_ ?_ (by simp) ?_
  · rcases hOutside with hOut | hOut <;> simp [hOut]
  · rcases hOutside with hOut | hOut <;> simp [hOut]
  · rintro p ⟨⟩
    simpa using hMay

/-- What a free lane is handed over for. -/
theorem Orderly.take (h : Orderly g) (hFree : g.laneOwner = none) (hLane : g'.laneOwner = some o)
    (hActivity : g'.activity = Function.update g.activity t (.holding o))
    (hAccounted : ∀ later earlier, g'.past = later ++ .recorded :: earlier → Accounted g' later) :
    Orderly g' where
  owned u p hu := by
    by_cases hut : u = t
    · subst hut
      rw [hActivity, Function.update_self] at hu
      cases hu
      exact hLane
    · rw [hActivity, Function.update_of_ne hut] at hu
      exact absurd hu (h.nobody hFree u p)
  alone u v p q hu hv := by
    have hOnly : ∀ w r, g'.activity w = .holding r → w = t := by
      intro w r hw
      by_contra hwt
      rw [hActivity, Function.update_of_ne hwt] at hw
      exact h.nobody hFree w r hw
    rw [hOnly u p hu, hOnly v q hv]
  accounted := hAccounted
  noticed u p _ hMay := by
    rw [mayEnter_of_owned hLane] at hMay
    cases hMay

/-- The lane is given back, and the thread owes the notification. -/
theorem Orderly.release (h : Orderly g) (hHolds : g.activity t = .holding o)
    (hActivity : g'.activity = Function.update g.activity t .notifying)
    (hAccounted : ∀ later earlier, g'.past = later ++ .recorded :: earlier → Accounted g' later) :
    Orderly g' := by
  have hNobody : ∀ w r, g'.activity w ≠ .holding r := by
    intro w r hw
    rw [hActivity] at hw
    by_cases hwt : w = t
    · subst hwt
      rw [Function.update_self] at hw
      cases hw
    · rw [Function.update_of_ne hwt] at hw
      exact hwt (h.alone w t r o hw hHolds)
  exact {
    owned := fun u p hu => absurd hu (hNobody u p)
    alone := fun u v p q hu => absurd hu (hNobody u p)
    accounted := hAccounted
    noticed := fun u p _ _ => ⟨t, by rw [hActivity, Function.update_self]⟩ }

theorem orderly_activate (h : Orderly g) (hIdle : g.activity t = .idle) :
    Orderly (g.activate t) := by
  have hBecome : Orderly (g.become t .notifying) :=
    h.become (by simp [hIdle]) (by simp [hIdle]) (by simp) (by simp)
  exact {
    owned := hBecome.owned
    alone := hBecome.alone
    accounted := hBecome.accounted
    noticed := fun _ _ _ _ => ⟨t, by simp [activate]⟩ }

theorem orderly_startRequest (h : Orderly g)
    (hOutside : g.activity t = .idle ∨ g.activity t = .woken .request) :
    Orderly (g.startRequest t) := by
  unfold startRequest
  split
  next hMay =>
    obtain ⟨hFree, -⟩ : g.laneOwner = none ∧ g.fullResyncPending = false := by
      simpa [requestMayStart] using hMay
    refine h.take hFree rfl rfl fun later earlier hPast => ?_
    exact (h.accounted later earlier hPast).imp id fun u hu => absurd hu (h.nobody hFree u _)
  next hMay => exact h.sleep hOutside hMay

theorem orderly_finishRequest (h : Orderly g) (hHolds : g.activity t = .holding .request) :
    Orderly (g.finishRequest t) := by
  have hLane := h.owned t _ hHolds
  rw [finishRequest, if_pos hLane]
  refine h.release hHolds rfl fun later earlier hPast => ?_
  refine (h.accounted later earlier hPast).imp id fun u hu => ?_
  rw [h.owned u _ hu] at hLane
  cases hLane

theorem orderly_claimFullResync (h : Orderly g)
    (hOutside : g.activity t = .idle ∨ g.activity t = .woken .fullResync) :
    Orderly (g.claimFullResync t) := by
  unfold claimFullResync
  split
  next hMay =>
    have hFree : g.laneOwner = none := by
      simp only [resyncMayStart, Bool.and_eq_true, Option.isNone_iff_eq_none] at hMay
      exact hMay.2.2
    refine h.take (o := .fullResync) hFree rfl rfl fun later earlier hPast => ?_
    obtain ⟨rest, rfl, hRest⟩ := split_cons (by simp) hPast
    -- the publication begins after every event so far
    refine .inr (.inr ⟨t, by simp [happen], ?_⟩)
    exact ⟨[], rest, rfl, by simp, by simp⟩
  next hMay => exact h.sleep hOutside hMay

theorem orderly_completeFullResyncClaim (h : Orderly g)
    (hHolds : g.activity t = .holding .fullResync) : Orderly (g.completeFullResyncClaim t) := by
  rw [completeFullResyncClaim, if_pos (h.owned t _ hHolds)]
  refine h.release hHolds rfl fun later earlier hPast => ?_
  obtain ⟨rest, rfl, hRest⟩ := split_cons (by simp) hPast
  rcases h.accounted rest earlier hRest with hPaid | hDebt | ⟨u, hu, hRuns⟩
  · exact .inl (hPaid.cons _)
  · exact .inr (.inl hDebt)
  · obtain rfl := h.alone u t _ _ hu hHolds
    exact .inl ⟨u, [], rest, rfl, hRuns⟩

theorem orderly_restoreFullResyncClaim (h : Orderly g)
    (hHolds : g.activity t = .holding .fullResync) : Orderly (g.restoreFullResyncClaim t) := by
  rw [restoreFullResyncClaim, if_pos (h.owned t _ hHolds)]
  exact h.release hHolds rfl fun later earlier _ => .inr (.inl rfl)

theorem orderly_deferEvent (h : Orderly g) (hIdle : g.activity t = .idle) :
    Orderly (g.deferEvent t) := by
  have hBecome : Orderly (g.become t (if g.laneOwner.isNone then .notifying else .idle)) := by
    refine h.become (by simp [hIdle]) (by simp [hIdle]) ?_ ?_
    · intro o
      split <;> simp
    · intro p
      split <;> simp
  refine ⟨hBecome.owned, hBecome.alone, fun _ _ _ => .inr (.inl rfl), fun u p hu hMay => ?_⟩
  -- a thread may go on only if the lane is free, and then the event is announced
  cases hLane : g.laneOwner with
  | none => exact ⟨t, by simp [deferEvent, happen, hLane]⟩
  | some o =>
    have hOwned : (g.deferEvent t).laneOwner = some o := hLane
    rw [mayEnter_of_owned hOwned] at hMay
    cases hMay

theorem Gate.not_asleep_notifyAll (g : Gate ω) (t u : Nat) (p : LaneOwner) :
    (g.notifyAll t).activity u ≠ .asleep p := by
  simp only [notifyAll]
  split
  · simp
  · cases g.activity u <;> simp

theorem Gate.holding_notifyAll {u : Nat} (hOwes : g.activity t = .notifying) :
    (g.notifyAll t).activity u = .holding o ↔ g.activity u = .holding o := by
  simp only [notifyAll]
  split
  next hut => simp [hut, hOwes]
  next => cases g.activity u <;> simp

theorem orderly_wake (h : Orderly g) (t : Nat) : Orderly (g.wake t) := by
  unfold wake
  split
  next p hAsleep => exact h.become (by simp [hAsleep]) (by simp [hAsleep]) (by simp) (by simp)
  next => exact h

section Steps

variable (r : SelfNotify ω κ ε) (ttl : Nat)

variable {g g' : Gate ω} {t : Nat}

theorem orderly_consume (h : Orderly g) (event : ε) :
    Orderly (r.consumeSelfNotifyPaths event g).2 := by
  unfold consumeSelfNotifyPaths
  split
  · exact h.of_writes _
  · exact h

theorem consume_activity (g : Gate ω) (event : ε) :
    (r.consumeSelfNotifyPaths event g).2.activity = g.activity := by
  unfold consumeSelfNotifyPaths
  split <;> rfl

theorem orderly_recordClassified (h : Orderly g) (hIdle : g.activity t = .idle) (event : ε)
    (now : Nat) :
    Orderly (r.recordClassifiedWatchEvent t event now g) := by
  have hPruned : Orderly (r.pruneExpired now g) := h.of_writes _
  unfold recordClassifiedWatchEvent
  simp only
  split
  · split
    · exact orderly_consume r hPruned event
    · refine orderly_deferEvent (orderly_consume r hPruned event) ?_
      rw [consume_activity]
      exact hIdle
  · exact hPruned

/-- A step that its thread cannot take now. -/
theorem Orderly.guard {c : Prop} [Decidable c] (h : Orderly g) (hThen : c → Orderly g') :
    Orderly (if c then g' else g) := by
  split
  next hc => exact hThen hc
  next => exact h

theorem orderly_step (e : GateEvent κ ε) (g : Gate ω) (h : Orderly g) :
    Orderly (r.step ttl e g) := by
  cases e with
  | activate t => exact h.guard fun hIdle => orderly_activate h hIdle
  | startRequest t now => exact h.guard fun hOut => orderly_startRequest (h.of_writes _) hOut
  | finishRequest t now =>
    exact h.guard fun hHolds => (orderly_finishRequest h hHolds).of_writes _
  | claimFullResync t now =>
    exact h.guard fun hOut => orderly_claimFullResync (h.of_writes _) hOut
  | markDelivered t => exact h.guard fun hHolds => orderly_completeFullResyncClaim h hHolds
  | dropClaim t => exact h.guard fun hHolds => orderly_restoreFullResyncClaim h hHolds
  | recordClassifiedWatchEvent t event now =>
    exact h.guard fun hIdle => orderly_recordClassified r h hIdle event now
  | recordUnsuppressibleWatchEvent t now =>
    exact h.guard fun hIdle =>
      (h.of_writes _).guard fun _ => orderly_deferEvent (h.of_writes _) hIdle
  | suppressSelfNotifyEvent event now => exact orderly_consume r (h.of_writes _) event
  | recordCompletedSelfNotifyWrite write now =>
    rw [step, recordCompletedWrite]
    split
    · exact h.of_writes _
    · exact h.of_writes _
  | notifyAll t =>
    refine h.guard fun hOwes => ?_
    have hHolding {u o} := (holding_notifyAll (u := u) (o := o) hOwes)
    exact {
      owned := fun u o hu => h.owned u o (hHolding.1 hu)
      alone := fun u v o p hu hv => h.alone u v o p (hHolding.1 hu) (hHolding.1 hv)
      accounted := fun later earlier hPast =>
        (h.accounted later earlier hPast).imp id fun _ => hHolding.2
      noticed := fun u p hu => absurd hu (g.not_asleep_notifyAll t u p) }
  | wake t => exact orderly_wake h t

/-! ## What a step does to the threads -/

/-- The step concerns one thread, which gets the lane only if its condition holds. -/
def Acts (g g' : Gate ω) (t : Nat) : Prop :=
  ∃ a, g'.activity = Function.update g.activity t a ∧ ∀ o, a = .holding o → g.mayEnter o = true

theorem acts_startRequest (g : Gate ω) (t : Nat) : Acts g (g.startRequest t) t := by
  unfold startRequest
  split
  next hMay =>
    refine ⟨_, rfl, ?_⟩
    rintro o ⟨⟩
    exact hMay
  next => exact ⟨_, rfl, by simp⟩

theorem acts_finishRequest (g : Gate ω) (t : Nat) : Acts g (g.finishRequest t) t := by
  unfold finishRequest
  split
  · exact ⟨_, rfl, by simp⟩
  · exact ⟨_, rfl, by simp⟩

theorem acts_claimFullResync (g : Gate ω) (t : Nat) : Acts g (g.claimFullResync t) t := by
  unfold claimFullResync
  split
  next hMay =>
    refine ⟨_, rfl, ?_⟩
    rintro o ⟨⟩
    exact hMay
  next => exact ⟨_, rfl, by simp⟩

theorem acts_completeFullResyncClaim (g : Gate ω) (t : Nat) :
    Acts g (g.completeFullResyncClaim t) t := by
  refine ⟨.notifying, ?_, by simp⟩
  simp only [completeFullResyncClaim, happen, become]
  split <;> rfl

theorem acts_restoreFullResyncClaim (g : Gate ω) (t : Nat) :
    Acts g (g.restoreFullResyncClaim t) t := by
  refine ⟨.notifying, ?_, by simp⟩
  simp only [restoreFullResyncClaim, happen, become]
  split <;> rfl

theorem acts_deferEvent (hSame : g'.activity = g.activity) (t : Nat) :
    Acts g (g'.deferEvent t) t := by
  refine ⟨if g'.laneOwner.isNone then .notifying else .idle, ?_, ?_⟩
  · rw [← hSame]
    rfl
  · intro o
    split <;> simp

/-- A step that leaves the threads alone or is the act of a thread that owes nothing. -/
def Quiet (g g' : Gate ω) : Prop :=
  g'.activity = g.activity ∨ ∃ t, g.activity t ≠ .notifying ∧ Acts g g' t

theorem quiet_guard {c : Prop} [Decidable c] (hThen : c → Quiet g g') :
    Quiet g (if c then g' else g) := by
  split
  next hc => exact hThen hc
  next => exact .inl rfl

theorem Acts.quiet (h : Acts g g' t) (hFree : g.activity t ≠ .notifying) :
    Quiet g g' := .inr ⟨t, hFree, h⟩

theorem Acts.quiet_outside {p : LaneOwner} (h : Acts g g' t)
    (hOutside : g.activity t = .idle ∨ g.activity t = .woken p) : Quiet g g' := by
  refine h.quiet ?_
  rcases hOutside with hOut | hOut <;> simp [hOut]

theorem quiet_recordClassified (hIdle : g.activity t = .idle) (event : ε) (now : Nat) :
    Quiet g (r.recordClassifiedWatchEvent t event now g) := by
  have hSame : (r.consumeSelfNotifyPaths event (r.pruneExpired now g)).2.activity = g.activity :=
    consume_activity r (r.pruneExpired now g) event
  rw [recordClassifiedWatchEvent]
  split
  · simp only
    split
    · exact .inl hSame
    · exact (acts_deferEvent hSame t).quiet (by simp [hIdle])
  · exact .inl rfl

theorem quiet_recordUnsuppressible (hIdle : g.activity t = .idle) (now : Nat) :
    Quiet g (r.recordUnsuppressibleWatchEvent t now g) := by
  rw [recordUnsuppressibleWatchEvent]
  split
  · exact Acts.quiet (acts_deferEvent rfl t) (by simp [hIdle])
  · exact .inl rfl

theorem step_acts (e : GateEvent κ ε) (g : Gate ω) :
    Quiet g (r.step ttl e g) ∨ ∃ t, e = .notifyAll t ∧ r.step ttl e g = g.notifyAll t := by
  cases e with
  | activate t =>
    exact .inl (quiet_guard fun hIdle =>
      .inr ⟨t, by simp [hIdle], .notifying, rfl, by simp⟩)
  | startRequest t now =>
    exact .inl (quiet_guard fun hOut =>
      Acts.quiet_outside (acts_startRequest (r.pruneExpired now g) t) hOut)
  | finishRequest t now =>
    exact .inl (quiet_guard fun hHolds =>
      Acts.quiet (acts_finishRequest g t) (by simp [hHolds]))
  | claimFullResync t now =>
    exact .inl (quiet_guard fun hOut =>
      Acts.quiet_outside (acts_claimFullResync (r.pruneExpired now g) t) hOut)
  | markDelivered t =>
    exact .inl (quiet_guard fun hHolds =>
      (acts_completeFullResyncClaim g t).quiet (by simp [hHolds]))
  | dropClaim t =>
    exact .inl (quiet_guard fun hHolds =>
      (acts_restoreFullResyncClaim g t).quiet (by simp [hHolds]))
  | recordClassifiedWatchEvent t event now =>
    exact .inl (quiet_guard fun hIdle => quiet_recordClassified r hIdle event now)
  | recordUnsuppressibleWatchEvent t now =>
    exact .inl (quiet_guard fun hIdle => quiet_recordUnsuppressible r hIdle now)
  | suppressSelfNotifyEvent event now =>
    exact .inl (.inl (consume_activity r (r.pruneExpired now g) event))
  | recordCompletedSelfNotifyWrite write now =>
    rw [step, recordCompletedWrite]
    split
    · exact .inl (.inl rfl)
    · exact .inl (.inl rfl)
  | notifyAll t =>
    rw [step]
    split
    · exact .inr ⟨t, rfl, rfl⟩
    · exact .inl (.inl rfl)
  | wake t =>
    rw [step, wake]
    split
    next p hAsleep => exact .inl (.inr ⟨t, by simp [hAsleep], .woken p, rfl, by simp⟩)
    next => exact .inl (.inl rfl)

theorem mayEnter_of_step_holding {e : GateEvent κ ε} {o : LaneOwner}
    (hBefore : g.activity t ≠ .holding o) (hAfter : (r.step ttl e g).activity t = .holding o) :
    g.mayEnter o = true := by
  rcases step_acts r ttl e g with (hSame | ⟨u, -, a, hActs, hMay⟩) | ⟨u, -, hNotify⟩
  · rw [hSame] at hAfter
    exact absurd hAfter hBefore
  · rw [hActs] at hAfter
    by_cases htu : t = u
    · subst htu
      rw [Function.update_self] at hAfter
      exact hMay o hAfter
    · rw [Function.update_of_ne htu] at hAfter
      exact absurd hAfter hBefore
  · rw [hNotify] at hAfter
    simp only [notifyAll] at hAfter
    split at hAfter
    · cases hAfter
    · split at hAfter
      · cases hAfter
      · exact absurd hAfter hBefore

/-- A notification stays owed until it is made. -/
theorem step_keeps_notifying {e : GateEvent κ ε} (hOther : e ≠ .notifyAll t)
    (hOwes : g.activity t = .notifying) :
    (r.step ttl e g).activity t = .notifying := by
  rcases step_acts r ttl e g with (hSame | ⟨u, hFree, a, hActs, -⟩) | ⟨u, rfl, hNotify⟩
  · rw [hSame, hOwes]
  · have htu : t ≠ u := fun htu => hFree (htu ▸ hOwes)
    rw [hActs, Function.update_of_ne htu, hOwes]
  · have htu : t ≠ u := fun htu => hOther (htu ▸ rfl)
    rw [hNotify]
    simp [notifyAll, htu, hOwes]

/-- When a request may start, every event is paid for. -/
theorem Orderly.followed (h : Orderly g) (hMay : g.requestMayStart = true)
    {later earlier : List Moment} (hPast : g.past = later ++ .recorded :: earlier) :
    Followed later := by
  obtain ⟨hFree, hClear⟩ : g.laneOwner = none ∧ g.fullResyncPending = false := by
    simpa [requestMayStart] using hMay
  rcases h.accounted later earlier hPast with hPaid | hDebt | ⟨u, hu, -⟩
  · exact hPaid
  · exact absurd (hDebt.symm.trans hClear) (by decide)
  · exact absurd hu (h.nobody hFree u _)

/-! ## What a watch event leaves behind -/

/-- A tracked write of the server explains the event. -/
def Suppressed (event : ε) (now : Nat) (g : Gate ω) : Prop :=
  r.hasEventPaths event = true ∧ ∃ w ∈ g.selfNotifyWrites, now < r.expiresAt w ∧
    r.isExhausted w = false ∧ r.canConsume event w = true ∧ r.matchesExpectedState event w = true

theorem consumeFrom_iff {event : ε} {writes : List ω} : (r.consumeFrom event writes).1 = true ↔
    ∃ w ∈ writes, r.canConsume event w = true ∧ r.matchesExpectedState event w = true := by
  induction writes with
  | nil => simp [consumeFrom]
  | cons w earlier ih =>
    rw [consumeFrom]
    split
    · simp_all
    · split
      · simp_all
      · simp_all

theorem consume_iff {event : ε} {now : Nat} :
    (r.consumeSelfNotifyPaths event (r.pruneExpired now g)).1 = true ↔
      Suppressed r event now g := by
  unfold consumeSelfNotifyPaths Suppressed
  split
  · simp_all [consumeFrom_iff, pruneExpired, and_assoc]
  · simp_all

/-- The step is a watch event of an idle thread, one that no write of the server explains. -/
def ExternalChange (e : GateEvent κ ε) (g : Gate ω) : Prop :=
  match e with
  | .recordUnsuppressibleWatchEvent t _ => g.activity t = .idle
  | .recordClassifiedWatchEvent t event now => g.activity t = .idle ∧ ¬ Suppressed r event now g
  | _ => False

theorem step_records {e : GateEvent κ ε} (hActive : g.active = true) (h : ExternalChange r e g) :
    (r.step ttl e g).past = .recorded :: g.past ∧ (r.step ttl e g).fullResyncPending = true := by
  have hPruned (now : Nat) : (r.pruneExpired now g).active = true := hActive
  cases e with
  | recordUnsuppressibleWatchEvent t now =>
    have hIdle : g.activity t = .idle := h
    rw [step, if_pos hIdle, recordUnsuppressibleWatchEvent, if_pos (hPruned now)]
    exact ⟨rfl, rfl⟩
  | recordClassifiedWatchEvent t event now =>
    have hConsumed := mt (consume_iff r).mp h.2
    rw [step, if_pos h.1, recordClassifiedWatchEvent, if_pos (hPruned now)]
    simp only [hConsumed, Bool.false_eq_true, if_false]
    refine ⟨congrArg (Moment.recorded :: ·) ?_, rfl⟩
    unfold consumeSelfNotifyPaths
    split <;> rfl
  | _ => exact h.elim

/-- The scheduler lets every thread that owes a notification go on. -/
def Fair (schedule : Nat → GateEvent κ ε) : Prop :=
  ∀ t, FairTo (r.step ttl) schedule new (fun g => g.activity t = .notifying) (.notifyAll t)

theorem eventually_woken {schedule : Nat → GateEvent κ ε} (hFair : Fair r ttl schedule) {n : Nat}
    {p : LaneOwner} (hAsleep : (trajectory (r.step ttl) schedule new n).activity t = .asleep p)
    (hMay : (trajectory (r.step ttl) schedule new n).mayEnter p = true) :
    ∃ m ≥ n, (trajectory (r.step ttl) schedule new m).activity t ≠ .asleep p := by
  have hOrderly : Orderly (trajectory (r.step ttl) schedule (new : Gate ω) n) :=
    trajectory_invariant (orderly_step r ttl) orderly_new n
  obtain ⟨u, hOwes⟩ := hOrderly.noticed t p hAsleep hMay
  obtain ⟨m, hm, hTaken, hStill⟩ :=
    taken_of_fairTo (hFair u) (fun b g hb => step_keeps_notifying r ttl hb) hOwes
  refine ⟨m + 1, Nat.le_succ_of_le hm, ?_⟩
  rw [trajectory, hTaken, step, if_pos hStill]
  exact not_asleep_notifyAll _ u t p

/-- The gate at any time of any run: the lane has one holder, a watch event of others is
recorded as soon as the gate is active, a request starts only when every recorded event is paid
for, a publication that was not delivered leaves the debt, and a sleeping thread that may go on
is woken if the scheduler is fair. -/
theorem gate_admits (schedule : Nat → GateEvent κ ε) (n : Nat) :
    let g := trajectory (r.step ttl) schedule (new : Gate ω)
    (∀ t u o p, (g n).activity t = .holding o → (g n).activity u = .holding p → t = u) ∧
    ((g n).active = true → ExternalChange r (schedule n) (g n) →
      (g (n + 1)).past = .recorded :: (g n).past ∧ (g (n + 1)).fullResyncPending = true) ∧
    (∀ t, (g n).activity t ≠ .holding .request → (g (n + 1)).activity t = .holding .request →
      ∀ later earlier, (g n).past = later ++ .recorded :: earlier → Followed later) ∧
    (∀ t, (g n).activity t = .holding .fullResync → schedule n = .dropClaim t →
      (g (n + 1)).fullResyncPending = true) ∧
    (Fair (ω := ω) r ttl schedule → ∀ t p, (g n).activity t = .asleep p →
      (g n).mayEnter p = true → ∃ m ≥ n, (g m).activity t ≠ .asleep p) := by
  intro g
  have hOrderly : Orderly (g n) := trajectory_invariant (orderly_step r ttl) orderly_new n
  refine ⟨hOrderly.alone, step_records r ttl, ?_, ?_, ?_⟩
  · intro t hBefore hAfter later earlier hPast
    exact hOrderly.followed (mayEnter_of_step_holding r ttl hBefore hAfter) hPast
  · intro t hHolds hDrop
    have hNext : g (n + 1) = (g n).restoreFullResyncClaim t := by
      show r.step ttl (schedule n) (g n) = _
      rw [hDrop, step, if_pos hHolds]
    rw [hNext, restoreFullResyncClaim, if_pos (hOrderly.owned t _ hHolds)]
    rfl
  · intro hFair t p hAsleep hMay
    exact eventually_woken r ttl hFair hAsleep hMay

end Steps

/-! ## A run -/

/-- No event is a trace of the server's own writes. -/
def sampleRules : SelfNotify Unit Unit Unit where
  track _ _ := ()
  hasPaths _ := false
  overlaps _ _ := false
  expiresAt _ := 0
  isExhausted _ := true
  hasEventPaths _ := false
  canConsume _ _ := false
  matchesExpectedState _ _ := false
  consume _ w := w

/-- A request falls asleep on the debt of an event; the first publication fails, the second
one succeeds, and every thread gets its turn to notify again and again. -/
def sampleSchedule (n : Nat) : GateEvent Unit Unit :=
  [.activate 0, .notifyAll 0, .recordUnsuppressibleWatchEvent 0 5, .startRequest 1 6,
    .claimFullResync 2 7, .dropClaim 2, .notifyAll 0, .notifyAll 2, .startRequest 1 9,
    .claimFullResync 2 9, .markDelivered 2][n]?.getD (.notifyAll (n - 11).unpair.1)

theorem sampleSchedule_fair : Fair (ω := Unit) sampleRules 0 sampleSchedule := by
  intro t n _
  refine ⟨Nat.pair t n + 11, ?_, ?_⟩
  · exact (Nat.right_le_pair t n).trans (Nat.le_add_right _ _)
  · simp [sampleSchedule]

theorem gate_admits_after_debt :
    let g := trajectory (sampleRules.step 0) sampleSchedule (new : Gate Unit)
    (g 3).past = [.recorded] ∧ (g 11).activity 1 = .asleep .request ∧
      ∃ m ≥ 11, (g m).activity 1 ≠ .asleep .request := by
  intro g
  have hRecorded := (gate_admits (ω := Unit) sampleRules 0 sampleSchedule 2).2.1 (by decide) rfl
  have hAsleep : (g 11).activity 1 = .asleep .request := by decide
  have hMay : (g 11).mayEnter .request = true := by decide
  exact ⟨hRecorded.1, hAsleep, (gate_admits sampleRules 0 sampleSchedule 11).2.2.2.2
    sampleSchedule_fair 1 .request hAsleep hMay⟩

end FabricFs.Watch
