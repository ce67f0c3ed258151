import FabricFs.Server.Watch

/-!
# Stopping the worker of the full resyncs

`FullResyncWorker` of `watch/publication.rs`: its thread and the `Drop` that stops it. The
critical sections of `claim_full_resync` are taken apart here, since `Drop` sets the flag and
notifies without the mutex and so comes in between. Other threads use the gate as in
`Server.Watch`; what needs the mutex waits while the worker has it.

* `stop_returns`: `Drop` returns under every fair schedule that does not notify while the
  worker is on its way from the test of the flag to the wait.
* `stop_unheard`: a notification at that moment is lost, and the worker sleeps for ever.
-/

namespace FabricFs.Watch

open Lib.Runs SelfNotify

/-! ## The two threads -/

/-- Where the worker is. -/
inductive Place where
  /-- At the head of the loop. -/
  | top
  /-- In `wait_before_retry`, past the first test of the flag. -/
  | pausing
  /-- Inside `Condvar::wait_timeout`, which ends with or without a notification. -/
  | paused
  /-- In `claim_full_resync`, without the mutex. -/
  | locking
  /-- With the mutex, before the test of the flag. -/
  | testing
  /-- With the mutex, past the test. -/
  | tested
  /-- Inside `Condvar::wait`. -/
  | asleep
  | publishing
  /-- The claim is settled, its `notify_all` not made. -/
  | notifying
  | left
  deriving DecidableEq, Repr

def Place.hasMutex (p : Place) : Bool := p = .testing || p = .tested

def Place.woken : Place → Place
  | .asleep => .locking
  | p => p

/-- How far a worker that finds the flag set is from the end of its loop. -/
def Place.rank : Place → Nat
  | .left => 0
  | .paused | .testing => 1
  | .pausing | .locking => 2
  | .top => 3
  | .notifying => 4
  | .publishing => 5
  | .tested => 6
  | .asleep => 7

/-- What `Drop` does next. -/
inductive DropPlace where
  | storing
  | notifying
  | joining
  | joined
  deriving DecidableEq, Repr

structure FullResyncWorker (ω : Type) where
  gate : Gate ω
  stop : Bool
  place : Place
  retryDelay : Option Nat
  dropper : DropPlace

/-- A step of the worker, with what its publication returns; of `Drop`; of another thread. -/
inductive StopEvent (κ ε : Type) where
  | worker (published : Bool) (now : Nat)
  | drop
  | other (event : GateEvent κ ε)

/-- In milliseconds. -/
def nextFullResyncRetryDelay : Option Nat → Nat
  | some delay => min (delay * 2) 1000
  | none => 50

/-- Without the mutex: `notify_all` and the return from `Condvar::wait`. -/
def GateEvent.needsMutex {κ ε : Type} : GateEvent κ ε → Bool
  | .notifyAll _ | .wake _ => false
  | _ => true

namespace FullResyncWorker

variable {ω κ ε : Type}

def spawn (gate : Gate ω) : FullResyncWorker ω := ⟨gate, false, .top, none, .storing⟩

section Steps

-- The thread of the worker is `w`, the one that drops it `d`.
variable (r : SelfNotify ω κ ε) (ttl w d : Nat)

/-- `run_full_resync_worker`. -/
def work (published : Bool) (now : Nat) (s : FullResyncWorker ω) : FullResyncWorker ω :=
  match s.place with
  | .top =>
    { s with place :=
        if s.retryDelay.isNone then .locking else if s.stop then .left else .pausing }
  | .pausing => { s with place := .paused }
  | .paused => { s with place := if s.stop then .left else .locking }
  | .locking => { s with place := .testing }
  | .testing => { s with place := if s.stop then .left else .tested }
  | .tested =>
    { s with
      gate := (r.pruneExpired now s.gate).claimFullResync w
      place := if s.gate.resyncMayStart then .publishing else .asleep }
  | .publishing =>
    { s with
      gate :=
        if published then s.gate.completeFullResyncClaim w else s.gate.restoreFullResyncClaim w
      retryDelay := if published then none else some (nextFullResyncRetryDelay s.retryDelay)
      place := .notifying }
  | .notifying => { s with gate := s.gate.notifyAll w, place := .top }
  | .asleep | .left => s

def drop (s : FullResyncWorker ω) : FullResyncWorker ω :=
  match s.dropper with
  | .storing => { s with stop := true, dropper := .notifying }
  | .notifying =>
    { s with gate := s.gate.notifyAll d, place := s.place.woken, dropper := .joining }
  | .joining => if s.place = .left then { s with dropper := .joined } else s
  | .joined => s

/-- The step wakes the worker if it sleeps. -/
def wakes (g : Gate ω) : GateEvent κ ε → Bool
  | .notifyAll t => g.activity t = .notifying
  | .wake t => t = w
  | _ => false

def other (e : GateEvent κ ε) (s : FullResyncWorker ω) : FullResyncWorker ω :=
  if s.place.hasMutex && e.needsMutex then s
  else
    { s with
      gate := r.step ttl e s.gate
      place := if wakes w s.gate e then s.place.woken else s.place }

def step : StopEvent κ ε → FullResyncWorker ω → FullResyncWorker ω
  | .worker published now, s => s.work r w published now
  | .drop, s => s.drop d
  | .other e, s => s.other r ttl w e

/-! ## What a step keeps -/

/-- The worker has found the flag unset and is about to wait. -/
def unheard (s : FullResyncWorker ω) : Bool := s.place = .tested && !s.gate.resyncMayStart

/-- The notification of `Drop` does not come at such a moment. -/
def timely : StopEvent κ ε → FullResyncWorker ω → Bool
  | .drop, s => s.dropper != .notifying || !s.unheard
  | _, _ => true

/-- Once notified, the worker neither sleeps nor is about to. -/
def Stopping (s : FullResyncWorker ω) : Prop :=
  match s.dropper with
  | .storing => True
  | .notifying => s.stop = true
  | .joined => s.place = .left
  | .joining => s.stop = true ∧ s.place ≠ .asleep ∧ s.unheard = false

def rank (s : FullResyncWorker ω) : Nat :=
  match s.dropper with
  | .storing => 10
  | .notifying => 9
  | .joining => s.place.rank + 1
  | .joined => 0

/-- The thread whose step brings the end nearer. -/
def Helps (rank : Nat) (e : StopEvent κ ε) : Prop :=
  if 1 < rank ∧ rank < 9 then ∃ published now, e = .worker published now else e = .drop

variable {s : FullResyncWorker ω}

theorem resyncMayStart_notice {e : GateEvent κ ε} (he : e.needsMutex = false) (g : Gate ω) :
    (r.step ttl e g).resyncMayStart = g.resyncMayStart := by
  cases e with
  | notifyAll t =>
    simp only [SelfNotify.step]
    split <;> rfl
  | wake t =>
    simp only [SelfNotify.step, Gate.wake]
    split <;> rfl
  | _ => cases he

/-- The step keeps what holds and the rank, and lowers the rank if it helps. -/
def Nears (e : StopEvent κ ε) (s s' : FullResyncWorker ω) : Prop :=
  s'.Stopping ∧ s'.rank ≤ s.rank ∧ (Helps s.rank e → s.rank ≠ 0 → s'.rank < s.rank)

theorem nears_work (h : s.Stopping) (published : Bool) (now : Nat) :
    Nears (.worker published now : StopEvent κ ε) s (s.work r w published now) := by
  obtain ⟨g, stop, place, retry, dropper⟩ := s
  cases dropper <;> cases place <;>
    simp_all [Stopping, Nears, work, rank, Place.rank, Helps, unheard]
  split <;> simp_all

theorem nears_drop (h : s.Stopping) (hTimely : timely (.drop : StopEvent κ ε) s) :
    Nears (.drop : StopEvent κ ε) s (s.drop d) := by
  obtain ⟨g, stop, place, retry, dropper⟩ := s
  cases dropper <;> cases place <;>
    simp_all [Stopping, Nears, drop, rank, Place.rank, Place.woken, Helps, unheard, timely]
  exact hTimely

theorem nears_other (h : s.Stopping) (e : GateEvent κ ε) :
    Nears (.other e) s (s.other r ttl w e) := by
  obtain ⟨g, stop, place, retry, dropper⟩ := s
  unfold other
  split
  · exact ⟨h, le_rfl, by simp [Helps]⟩
  next hFree =>
    have hMay : place = .tested → (r.step ttl e g).resyncMayStart = g.resyncMayStart :=
      fun hTested => resyncMayStart_notice r ttl (by simpa [hTested, Place.hasMutex] using hFree) g
    cases dropper <;> cases place <;>
      simp_all [Stopping, Nears, rank, Place.rank, Place.woken, Helps, unheard]

end Steps

/-! ## Whole runs -/

/-- Both threads get their turn again and again. -/
def Fair (schedule : Nat → StopEvent κ ε) : Prop :=
  ∀ n, (∃ m ≥ n, ∃ published now, schedule m = .worker published now) ∧ ∃ m ≥ n, schedule m = .drop

/-- `Drop` returns, whatever the gate, the worker and the other threads do, if its notification
does not come between the test of the flag and the wait. -/
theorem stop_returns (r : SelfNotify ω κ ε) (ttl w d : Nat) (schedule : Nat → StopEvent κ ε)
    (s : FullResyncWorker ω) (hBegin : s.dropper = .storing) (hFair : Fair schedule)
    (hTimely : ∀ n, timely (schedule n) (trajectory (step r ttl w d) schedule s n)) :
    ∃ n, (trajectory (step r ttl w d) schedule s n).place = .left ∧
      (trajectory (step r ttl w d) schedule s n).dropper = .joined := by
  have hNears : ∀ n t, Stopping t → timely (schedule n) t →
      Nears (schedule n) t (step r ttl w d (schedule n) t) := by
    intro n t ht hTimely
    cases hEvent : schedule n with
    | worker published now => exact nears_work r w ht published now
    | drop => exact nears_drop d ht (hEvent ▸ hTimely)
    | other e => exact nears_other r ttl w ht e
  have hStopping : ∀ n, Stopping (trajectory (step r ttl w d) schedule s n) := by
    intro n
    induction n with
    | zero => simp [trajectory, Stopping, hBegin]
    | succ n ih => exact (hNears n _ ih (hTimely n)).1
  have hStep := fun n => hNears n _ (hStopping n) (hTimely n)
  have hHelped : ∀ k n, ∃ m ≥ n, Helps k (schedule m) := by
    intro k n
    unfold Helps
    split
    · exact (hFair n).1
    · exact (hFair n).2
  have hZero : ∃ n, (trajectory (step r ttl w d) schedule s n).rank = 0 :=
    exists_rank_zero hHelped (fun n => (hStep n).2.1) fun n => (hStep n).2.2
  obtain ⟨n, hn⟩ := hZero
  have hAt := hStopping n
  refine ⟨n, ?_⟩
  unfold rank at hn
  unfold Stopping at hAt
  split at hn <;> simp_all

/-- The given steps, then `Drop` and the worker in turn. -/
def sampleStop (first : List (StopEvent Unit Unit)) (n : Nat) : StopEvent Unit Unit :=
  first[n]?.getD (if n % 2 = 0 then .drop else .worker true 0)

theorem sampleStop_fair (first : List (StopEvent Unit Unit)) : Fair (sampleStop first) := by
  intro n
  have hPast : ∀ m, n + first.length ≤ m → first[m]? = none := fun m hm =>
    List.getElem?_eq_none (by omega)
  refine ⟨⟨2 * (n + first.length) + 1, by omega, true, 0, ?_⟩, 2 * (n + first.length), by omega, ?_⟩
  all_goals
    rw [sampleStop, hPast _ (by omega)]
    simp

def sampleRun (first : List (StopEvent Unit Unit)) : Nat → FullResyncWorker Unit :=
  trajectory (step sampleRules 0 0 1) (sampleStop first) (spawn .new)

theorem sampleRun_stuck {first : List (StopEvent Unit Unit)} {n : Nat} {s : FullResyncWorker Unit}
    (hn : first.length ≤ n) (hLast : sampleRun first first.length = s)
    (hWork : s.work sampleRules 0 true 0 = s) (hDrop : s.drop 1 = s) : sampleRun first n = s := by
  subst hLast
  refine trajectory_stuck (fun m hm => ?_) hn
  rw [sampleStop, List.getElem?_eq_none hm, Option.getD_none]
  split
  · exact hDrop
  · exact hWork

/-- The worker sleeps when the flag is set, and the notification wakes it. -/
def timelyStop : List (StopEvent Unit Unit) :=
  let four := List.replicate 4 (.worker true 0)
  four ++ [.drop, .drop] ++ four ++ [.drop]

theorem stop_returns_asleep :
    ∃ n, (sampleRun timelyStop n).place = .left ∧ (sampleRun timelyStop n).dropper = .joined := by
  refine stop_returns _ _ _ _ _ _ rfl (sampleStop_fair _) fun n => ?_
  rcases Nat.lt_or_ge n timelyStop.length with hn | hn
  · revert n
    decide
  · have hStuck : sampleRun timelyStop n = _ := sampleRun_stuck hn rfl rfl rfl
    rw [sampleRun] at hStuck
    rw [hStuck]
    cases sampleStop timelyStop n <;> rfl

/-- The flag is set, and the worker notified, after it has tested the flag. -/
def lateStop : List (StopEvent Unit Unit) :=
  [.worker true 0, .worker true 0, .worker true 0, .drop, .drop, .worker true 0]

/-- The worker goes to sleep then, and nobody wakes it. -/
theorem stop_unheard :
    Fair (sampleStop lateStop) ∧ ∀ n, (sampleRun lateStop n).dropper ≠ .joined := by
  refine ⟨sampleStop_fair _, fun n => ?_⟩
  rcases Nat.lt_or_ge n lateStop.length with hn | hn
  · revert n
    decide
  · rw [sampleRun_stuck hn rfl rfl rfl]
    decide

end FullResyncWorker

end FabricFs.Watch
