import Mathlib.Data.Finset.Basic
import Mathlib.Data.Finset.Dedup
import FabricFs.Lib.Dict
import FabricFs.Lib.Runs
import FabricFs.Protocol.Messages

/-!
# The broadcasts of a client's own requests

`OwnInvalidationReplay` of `policy.rs` and `drain_invalidations` of `client.rs`. The server
broadcasts the invalidations of a request to all clients. A client that got the answer has
the invalidations from there and leaves out its own broadcasts; for a request that it gave up
it has to take them. A broadcast may come before the request has ended either way and then
waits.

Threads meet at the lock of the filter, so a run is a sequence of calls of the filter. A
drain is several of them: it takes what was recovered, handles frame after frame and returns
what it has collected, or fails at a bad frame.

* `Sound`: the filter against the history of the run.
* `broadcasts_run`: the containers are consistent in every run, no recent request of its own
  comes back, and each of the others is delivered exactly once unless a drain fails with it in
  its hands.
* `cut_drain_loses`: a drain that meets a bad frame drops what it had collected.
-/

namespace FabricFs.Transport

open Lib Lib.Runs Protocol AList List

/-! ## The filter -/

def maxOwnRequestIds : Nat := 1024

structure OwnInvalidationReplay where
  completedOrder : List Text
  completed : Finset Text
  pending : Finset Text
  deferred : Dict Text (List Invalidation)
  recovered : List Invalidation

namespace OwnInvalidationReplay

def new : OwnInvalidationReplay := ⟨[], ∅, ∅, ∅, []⟩

variable (filter : OwnInvalidationReplay)

def begin (requestId : Text) : OwnInvalidationReplay :=
  if requestId.isEmpty then filter
  else { filter with
    completed := filter.completed.erase requestId
    completedOrder := filter.completedOrder.filter (· != requestId)
    pending := insert requestId filter.pending }

/-- The loop at the end of `remember_completed`. -/
def expire : List Text → Finset Text → List Text × Finset Text
  | [], completed => ([], completed)
  | oldest :: order, completed =>
    if (oldest :: order).length > maxOwnRequestIds then expire order (completed.erase oldest)
    else (oldest :: order, completed)

def rememberCompleted (requestId : Text) : OwnInvalidationReplay :=
  if requestId.isEmpty || requestId ∈ filter.completed then filter
  else
    let (order, completed) :=
      expire (filter.completedOrder ++ [requestId]) (insert requestId filter.completed)
    { filter with completedOrder := order, completed := completed }

def complete (requestId : Text) : OwnInvalidationReplay :=
  rememberCompleted { filter with
    pending := filter.pending.erase requestId
    deferred := filter.deferred.erase requestId } requestId

def abandon (requestId : Text) : OwnInvalidationReplay :=
  { filter with
    pending := filter.pending.erase requestId
    deferred := filter.deferred.erase requestId
    recovered := filter.recovered ++ (filter.deferred.lookup requestId).getD [] }

/-- The own broadcast of a request waits while the request is pending. -/
def handleInvalidation (invalidation : Invalidation) :
    Option Invalidation × OwnInvalidationReplay :=
  let requestId := invalidation.requestId
  if requestId.isEmpty then (some invalidation, filter)
  else if requestId ∈ filter.completed then (none, filter)
  else if requestId ∈ filter.pending then
    let waiting := (filter.deferred.lookup requestId).getD [] ++ [invalidation]
    (none, { filter with deferred := filter.deferred.insert requestId waiting })
  else (some invalidation, filter)

def takeRecovered (name : Text) : List Invalidation × OwnInvalidationReplay :=
  (filter.recovered.filter (·.namespaceName == name),
    { filter with recovered := filter.recovered.filter (·.namespaceName != name) })

end OwnInvalidationReplay

/-! ## Drains -/

/-- A message of the subscription: its length and what it decodes to. -/
structure Frame where
  length : Nat
  decoded : Option Invalidation
  deriving DecidableEq, Repr

/-- The configured frame limit and the namespace that is drained. -/
structure Subscription where
  maxFrameBytes : Nat
  namespaceName : Text

/-- The checks of `drain_invalidations` on one message. -/
def Subscription.accept (sub : Subscription) (frame : Frame) : Option Invalidation :=
  if frame.length ≤ sub.maxFrameBytes then
    frame.decoded.filter (fun invalidation => (validateInvalidation invalidation).isOk)
  else none

/-- The calls of the filter; a drain is named by a number. -/
inductive Event where
  | begin (requestId : Text)
  | complete (requestId : Text)
  | abandon (requestId : Text)
  | start (drain : Nat)
  | receive (drain : Nat) (frame : Frame)
  | finish (drain : Nat)
  deriving DecidableEq, Repr

open Event

/-- The filter, the running drains with what each of them has collected, what drains have
returned and what they dropped, and the past, latest first. -/
structure Client where
  filter : OwnInvalidationReplay
  active : Finset Nat
  collected : List (Nat × Invalidation)
  delivered : List Invalidation
  lost : List Invalidation
  past : List Event

namespace Client

def new : Client := ⟨.new, ∅, [], [], [], []⟩

/-- What a drain has collected. -/
def held (c : Client) (drain : Nat) : List Invalidation :=
  (c.collected.filter (·.1 == drain)).map (·.2)

/-- The drain returns. -/
def leave (c : Client) (drain : Nat) : Client :=
  { c with active := c.active.erase drain, collected := c.collected.filter (·.1 != drain) }

def collect (c : Client) (drain : Nat) (invalidations : List Invalidation) : Client :=
  { c with collected := c.collected ++ invalidations.map (drain, ·) }

/-- A frame that cannot be accepted ends the drain with what it holds. -/
def receive (sub : Subscription) (c : Client) (drain : Nat) (frame : Frame) : Client :=
  match sub.accept frame with
  | none => { c.leave drain with lost := c.lost ++ c.held drain }
  | some invalidation =>
    if invalidation.namespaceName = sub.namespaceName then
      let (out, filter) := c.filter.handleInvalidation invalidation
      { c with filter := filter }.collect drain out.toList
    else c

def act (sub : Subscription) (c : Client) : Event → Client
  | .begin requestId => { c with filter := c.filter.begin requestId }
  | .complete requestId => { c with filter := c.filter.complete requestId }
  | .abandon requestId => { c with filter := c.filter.abandon requestId }
  | .start drain =>
    let (ready, filter) := c.filter.takeRecovered sub.namespaceName
    { c with filter := filter, active := insert drain c.active }.collect drain ready
  | .receive drain frame => c.receive sub drain frame
  | .finish drain => { c.leave drain with delivered := c.delivered ++ c.held drain }

def step (sub : Subscription) (e : Event) (c : Client) : Client :=
  { c.act sub e with past := e :: c.past }

end Client

open Transport.Client (step act collect leave)

/-! ## Histories -/

/-- The well-formed broadcast of the namespace that the event receives. -/
def Event.received (sub : Subscription) : Event → Option Invalidation
  | .receive _ frame => (sub.accept frame).filter (·.namespaceName == sub.namespaceName)
  | _ => none

def Event.completion : Event → Option Text
  | .complete requestId => some requestId
  | _ => none

/-- How often the broadcast was received. -/
def receivedCount (sub : Subscription) (past : List Event) (b : Invalidation) : Nat :=
  (past.filterMap (received sub)).count b

/-- The requests that completed, latest first. -/
def completions (past : List Event) : List Text := past.filterMap completion

/-- The request is not one of the client's. -/
def Foreign (past : List Event) (requestId : Text) : Prop := .begin requestId ∉ past

def Abandoned (past : List Event) (requestId : Text) : Prop := .abandon requestId ∈ past

/-- The request completed and at most 1023 have completed since. -/
def RecentlyCompleted (past : List Event) (requestId : Text) : Prop :=
  requestId ∈ (completions past).take maxOwnRequestIds

/-- What `round_trip` and `drain_invalidations` make of the filter: request ids are not empty
and not used twice, a request ends once, and nothing is broadcast for a request before it
begins. -/
def Allowed (sub : Subscription) (e : Event) (c : Client) : Prop :=
  match e with
  | .begin requestId => requestId ≠ [] ∧ .begin requestId ∉ c.past ∧
      ∀ e ∈ c.past, ∀ b ∈ e.received sub, b.requestId ≠ requestId
  | .complete requestId | .abandon requestId =>
      .begin requestId ∈ c.past ∧ .complete requestId ∉ c.past ∧ .abandon requestId ∉ c.past
  | .start drain => drain ∉ c.active
  | .receive drain _ | .finish drain => drain ∈ c.active

/-- A drain that fails has not collected the broadcast. -/
def Spares (sub : Subscription) (b : Invalidation) (e : Event) (c : Client) : Prop :=
  match e with
  | .receive drain frame => sub.accept frame = none → b ∉ c.held drain
  | _ => True

instance (past : List Event) (r : Text) : Decidable (Foreign past r) :=
  inferInstanceAs (Decidable (_ ∉ _))

instance (past : List Event) (r : Text) : Decidable (Abandoned past r) :=
  inferInstanceAs (Decidable (_ ∈ _))

instance (sub : Subscription) (e : Event) (c : Client) : Decidable (Allowed sub e c) := by
  cases e <;> simp only [Allowed] <;> infer_instance

instance (sub : Subscription) (b : Invalidation) (e : Event) (c : Client) :
    Decidable (Spares sub b e c) := by
  cases e <;> simp only [Spares] <;> infer_instance

/-! ## The containers -/

/-- The ids that the filter keeps, in terms of the past. -/
structure Filed (c : Client) : Prop where
  pending : ∀ r, r ∈ c.filter.pending ↔
    .begin r ∈ c.past ∧ .complete r ∉ c.past ∧ .abandon r ∉ c.past
  order : c.filter.completedOrder = ((completions c.past).take maxOwnRequestIds).reverse
  completed : c.filter.completed = c.filter.completedOrder.toFinset
  nodup : (completions c.past).Nodup
  named : ∀ r, .begin r ∈ c.past → r ≠ []
  begun : ∀ r, .complete r ∈ c.past ∨ .abandon r ∈ c.past → .begin r ∈ c.past
  once : ∀ r, .complete r ∈ c.past → .abandon r ∉ c.past
  keys : ∀ r, r ∈ c.filter.deferred → r ∈ c.filter.pending

theorem mem_completions {past : List Event} {r : Text} :
    r ∈ completions past ↔ .complete r ∈ past := by
  unfold completions
  rw [mem_filterMap]
  constructor
  · rintro ⟨e, he, hr⟩
    cases e with
    | complete r' =>
      obtain rfl := Option.some.inj hr
      exact he
    | _ => cases hr
  · exact fun h => ⟨_, h, rfl⟩

theorem expire_eq {order : List Text} (hNodup : order.Nodup) :
    OwnInvalidationReplay.expire order order.toFinset =
      (order.drop (order.length - maxOwnRequestIds),
        (order.drop (order.length - maxOwnRequestIds)).toFinset) := by
  induction order with
  | nil => rfl
  | cons oldest order ih =>
    obtain ⟨hNew, hNodup⟩ := nodup_cons.1 hNodup
    unfold OwnInvalidationReplay.expire
    split
    · rename_i hLong
      have hErase : (oldest :: order).toFinset.erase oldest = order.toFinset := by
        rw [toFinset_cons, Finset.erase_insert (by simpa using hNew)]
      have hDrop : (oldest :: order).length - maxOwnRequestIds =
          (order.length - maxOwnRequestIds) + 1 := by
        simp only [length_cons] at hLong ⊢
        omega
      rw [hErase, ih hNodup, hDrop, drop_succ_cons]
    · rename_i hShort
      rw [Nat.sub_eq_zero_of_le (by omega), drop_zero]

/-- Only the latest ids are kept. -/
theorem drop_reverse_take (r : Text) (ids : List Text) (n : Nat) (hn : 0 < n) :
    let order := (ids.take n).reverse ++ [r]
    order.drop (order.length - n) = ((r :: ids).take n).reverse := by
  intro order
  have hOrder : order = (r :: ids.take n).reverse := reverse_cons.symm
  obtain ⟨m, rfl⟩ : ∃ m, n = m + 1 := ⟨n - 1, by omega⟩
  rw [hOrder, drop_reverse, length_reverse, Nat.sub_sub_eq_min, Nat.min_comm,
    ← take_take, take_length, take_succ_cons, take_succ_cons, take_take,
    Nat.min_eq_left (Nat.le_succ m)]

/-- The event is a call of a drain. -/
def Event.OfDrain (e : Event) : Prop :=
  ∀ r, e ≠ .begin r ∧ e ≠ .complete r ∧ e ≠ .abandon r

section OfDrain

variable {e : Event} (h : e.OfDrain) {past : List Event} {r : Text}
include h

theorem begin_mem_cons : .begin r ∈ e :: past ↔ .begin r ∈ past := by
  simp [(h r).1.symm]

theorem complete_mem_cons : .complete r ∈ e :: past ↔ .complete r ∈ past := by
  simp [(h r).2.1.symm]

theorem abandon_mem_cons : .abandon r ∈ e :: past ↔ .abandon r ∈ past := by
  simp [(h r).2.2.symm]

theorem completions_cons : completions (e :: past) = completions past := by
  have hNone : e.completion = none := by
    cases e with
    | complete r => exact absurd rfl (h r).2.1
    | _ => rfl
  rw [completions, filterMap_cons_none hNone, completions]

end OfDrain

namespace Filed

variable {sub : Subscription} {c : Client}

variable {r : Text}

theorem mem_completed (h : Filed c) : r ∈ c.filter.completed ↔ RecentlyCompleted c.past r := by
  rw [h.completed, h.order, mem_toFinset, mem_reverse]
  rfl

theorem complete_of_recent {past : List Event} (h : RecentlyCompleted past r) :
    .complete r ∈ past :=
  mem_completions.1 (mem_of_mem_take h)

theorem new : Filed .new := by
  refine ⟨?_, rfl, rfl, nodup_nil, ?_, ?_, ?_, ?_⟩ <;>
    simp [Client.new, OwnInvalidationReplay.new]

theorem begin (h : Filed c) (hAllowed : Allowed sub (.begin r) c) :
    Filed (c.step sub (.begin r)) := by
  obtain ⟨hName, hFresh, -⟩ := hAllowed
  have hEmpty : r.isEmpty = false := by simpa using hName
  have hNot : r ∉ c.filter.completed := fun hr =>
    hFresh (h.begun r (.inl (complete_of_recent (h.mem_completed.1 hr))))
  have hOrder : r ∉ c.filter.completedOrder := by rwa [h.completed, mem_toFinset] at hNot
  have hFilter : c.filter.completedOrder.filter (· != r) = c.filter.completedOrder :=
    filter_eq_self.2 fun x hx => by simpa using fun hEq : x = r => hOrder (hEq ▸ hx)
  simp only [step, act, OwnInvalidationReplay.begin, hEmpty, Bool.false_eq_true,
    if_false, hFilter, Finset.erase_eq_of_notMem hNot]
  exact {
    pending := fun x => by
      simp only [Finset.mem_insert, h.pending, mem_cons, begin.injEq, reduceCtorEq, false_or]
      constructor
      · rintro (rfl | hx)
        · exact ⟨.inl rfl, fun hc => hFresh (h.begun _ (.inl hc)),
            fun ha => hFresh (h.begun _ (.inr ha))⟩
        · exact ⟨.inr hx.1, hx.2⟩
      · rintro ⟨rfl | hx, hRest⟩
        · exact .inl rfl
        · exact .inr ⟨hx, hRest⟩
    order := h.order
    completed := h.completed
    nodup := h.nodup
    named := fun x hx => by
      rcases mem_cons.1 hx with hx | hx
      · rw [begin.inj hx]
        exact hName
      · exact h.named x hx
    begun := fun x hx => mem_cons_of_mem _ (h.begun x (by simpa using hx))
    once := fun x hx => by simpa using h.once x (by simpa using hx)
    keys := fun x hx => Finset.mem_insert_of_mem (h.keys x hx) }

theorem complete (h : Filed c) (hAllowed : Allowed sub (.complete r) c) :
    Filed (c.step sub (.complete r)) := by
  obtain ⟨hBegun, hFresh, hKept⟩ := hAllowed
  have hEmpty : r.isEmpty = false := by simpa using h.named r hBegun
  have hNew : r ∉ completions c.past := fun hr => hFresh (mem_completions.1 hr)
  have hNot : r ∉ c.filter.completed := fun hr => hFresh (complete_of_recent (h.mem_completed.1 hr))
  have hOrder : (c.filter.completedOrder ++ [r]).Nodup := by
    rw [h.completed, mem_toFinset] at hNot
    rw [h.order] at hNot ⊢
    refine nodup_append.2 ⟨nodup_reverse.2 h.nodup.take, nodup_singleton r, ?_⟩
    rintro x hx y hy rfl
    exact hNot (mem_singleton.1 hy ▸ hx)
  have hSet : insert r c.filter.completed = (c.filter.completedOrder ++ [r]).toFinset := by
    ext x
    rw [h.completed, Finset.mem_insert, mem_toFinset, mem_toFinset, mem_append, mem_singleton,
      or_comm]
  simp only [step, act, OwnInvalidationReplay.complete,
    OwnInvalidationReplay.rememberCompleted, hEmpty, hNot, decide_false, Bool.or_false,
    Bool.false_eq_true, if_false, hSet, expire_eq hOrder]
  exact {
    pending := fun x => by
      simp only [Finset.mem_erase, h.pending, mem_cons, complete.injEq, reduceCtorEq, false_or]
      tauto
    order := by
      simp only [h.order]
      exact drop_reverse_take r (completions c.past) maxOwnRequestIds (Nat.succ_pos 1023)
    completed := by dsimp only
    nodup := nodup_cons.2 ⟨hNew, h.nodup⟩
    named := fun x hx => h.named x (by simpa using hx)
    begun := fun x hx => by
      refine mem_cons_of_mem _ ?_
      simp only [mem_cons, complete.injEq, reduceCtorEq, false_or] at hx
      rcases hx with (rfl | hx) | hx
      · exact hBegun
      · exact h.begun x (.inl hx)
      · exact h.begun x (.inr hx)
    once := fun x hx => by
      simp only [mem_cons, complete.injEq, reduceCtorEq, false_or] at hx ⊢
      rcases hx with rfl | hx
      · exact hKept
      · exact h.once x hx
    keys := fun x hx => by
      rw [mem_erase] at hx
      exact Finset.mem_erase.2 ⟨hx.1, h.keys x hx.2⟩ }

theorem abandon (h : Filed c) (hAllowed : Allowed sub (.abandon r) c) :
    Filed (c.step sub (.abandon r)) := by
  obtain ⟨hBegun, hFresh, hKept⟩ := hAllowed
  exact {
    pending := fun x => by
      simp only [step, act, OwnInvalidationReplay.abandon, Finset.mem_erase,
        h.pending, mem_cons, abandon.injEq, reduceCtorEq, false_or]
      tauto
    order := h.order
    completed := h.completed
    nodup := h.nodup
    named := fun x hx => h.named x (by simpa [step] using hx)
    begun := fun x hx => by
      refine mem_cons_of_mem _ ?_
      simp only [step, mem_cons, abandon.injEq, reduceCtorEq, false_or] at hx
      rcases hx with hx | rfl | hx
      · exact h.begun x (.inl hx)
      · exact hBegun
      · exact h.begun x (.inr hx)
    once := fun x hx => by
      simp only [step, mem_cons, abandon.injEq, reduceCtorEq, false_or, not_or] at hx ⊢
      exact ⟨fun hEq => hFresh (hEq ▸ hx), h.once x hx⟩
    keys := fun x hx => by
      simp only [step, act, OwnInvalidationReplay.abandon, mem_erase] at hx
      exact Finset.mem_erase.2 ⟨hx.1, h.keys x hx.2⟩ }

/-- The calls of a drain do not move an id. -/
theorem drain {c' : Client} {e : Event} (h : Filed c) (hEvent : e.OfDrain)
    (hPast : c'.past = e :: c.past)
    (hOrder : c'.filter.completedOrder = c.filter.completedOrder)
    (hCompleted : c'.filter.completed = c.filter.completed)
    (hPending : c'.filter.pending = c.filter.pending)
    (hKeys : ∀ r, r ∈ c'.filter.deferred → r ∈ c.filter.pending) : Filed c' := by
  constructor
  · simpa only [hPast, hPending, begin_mem_cons hEvent, complete_mem_cons hEvent,
      abandon_mem_cons hEvent] using h.pending
  · rw [hOrder, hPast, completions_cons hEvent, h.order]
  · rw [hCompleted, hOrder, h.completed]
  · rw [hPast, completions_cons hEvent]
    exact h.nodup
  · simpa only [hPast, begin_mem_cons hEvent] using h.named
  · simpa only [hPast, begin_mem_cons hEvent, complete_mem_cons hEvent,
      abandon_mem_cons hEvent] using h.begun
  · simpa only [hPast, complete_mem_cons hEvent, abandon_mem_cons hEvent] using h.once
  · simpa only [hPending] using hKeys

end Filed

/-! ## The accounts -/

variable {sub : Subscription} {past : List Event}

/-- How often the broadcast was delivered, is about to be, or was lost. -/
def Client.total (c : Client) (b : Invalidation) : Nat :=
  c.delivered.count b + (c.collected.map (·.2)).count b + c.filter.recovered.count b +
    c.lost.count b

/-- The broadcasts that wait for the end of a request. -/
def Client.waiting (c : Client) (requestId : Text) : List Invalidation :=
  (c.filter.deferred.lookup requestId).getD []

/-- Every broadcast that was received, by what became of its request. -/
structure Counted (sub : Subscription) (c : Client) : Prop where
  pending : ∀ b, b.requestId ∈ c.filter.pending →
    c.total b = 0 ∧ (c.waiting b.requestId).count b = receivedCount sub c.past b
  due : ∀ b, Foreign c.past b.requestId ∨ Abandoned c.past b.requestId →
    c.total b = receivedCount sub c.past b
  recent : ∀ b, RecentlyCompleted c.past b.requestId → c.total b = 0
  own : ∀ r, ∀ b ∈ c.waiting r, b.requestId = r

theorem receivedCount_cons_none {e : Event} (h : e.received sub = none) (b : Invalidation) :
    receivedCount sub (e :: past) b = receivedCount sub past b := by
  rw [receivedCount, filterMap_cons_none h, receivedCount]

theorem receivedCount_cons_some {e : Event} {b : Invalidation} (h : e.received sub = some b)
    (b' : Invalidation) :
    receivedCount sub (e :: past) b' = receivedCount sub past b' + if b = b' then 1 else 0 := by
  rw [receivedCount, filterMap_cons_some h, count_cons, receivedCount]
  simp

theorem receivedCount_eq_zero {b : Invalidation} (h : ∀ e ∈ past, ∀ b' ∈ e.received sub, b' ≠ b) :
    receivedCount sub past b = 0 := by
  refine count_eq_zero.2 fun hb => ?_
  obtain ⟨e, he, hReceived⟩ := mem_filterMap.1 hb
  exact h e he b hReceived rfl

/-- What a drain takes with it and what stays. -/
theorem count_held (c : Client) (drain : Nat) (b : Invalidation) :
    (c.held drain).count b + ((c.leave drain).collected.map (·.2)).count b =
      (c.collected.map (·.2)).count b := by
  simp only [Client.held, leave]
  induction c.collected with
  | nil => rfl
  | cons entry rest ih =>
    by_cases hd : entry.1 = drain
    · simp [hd, count_cons]
      omega
    · simp [hd, count_cons]
      omega

theorem count_takeRecovered (filter : OwnInvalidationReplay) (name : Text) (b : Invalidation) :
    (filter.takeRecovered name).1.count b + (filter.takeRecovered name).2.recovered.count b =
      filter.recovered.count b := by
  simp only [OwnInvalidationReplay.takeRecovered]
  induction filter.recovered with
  | nil => rfl
  | cons entry rest ih =>
    by_cases hd : entry.namespaceName = name
    · simp [hd, count_cons]
      omega
    · simp [hd, count_cons]
      omega

namespace Counted

variable {sub : Subscription} {c : Client}

variable {r : Text} {c' : Client} {e : Event} {b₀ : Invalidation}

theorem new : Counted sub .new := by
  refine ⟨?_, fun b _ => rfl, fun b _ => rfl, ?_⟩ <;>
    simp [Client.new, OwnInvalidationReplay.new, Client.waiting]

theorem begin (h : Counted sub c) (hFiled : Filed c) (hAllowed : Allowed sub (.begin r) c) :
    Counted sub (c.step sub (.begin r)) := by
  obtain ⟨hName, hFresh, hQuiet⟩ := hAllowed
  have hEmpty : r.isEmpty = false := by simpa using hName
  have hTotal : ∀ b, (c.step sub (.begin r)).total b = c.total b := fun b => by
    simp only [Client.total, step, act, OwnInvalidationReplay.begin, hEmpty,
      Bool.false_eq_true, if_false]
  have hWaiting : ∀ x, (c.step sub (.begin r)).waiting x = c.waiting x := fun x => by
    simp only [Client.waiting, step, act, OwnInvalidationReplay.begin, hEmpty,
      Bool.false_eq_true, if_false]
  have hCount : ∀ b, receivedCount sub (c.step sub (.begin r)).past b =
      receivedCount sub c.past b := receivedCount_cons_none rfl
  refine ⟨fun b hb => ?_, fun b hb => ?_, fun b hb => ?_, fun x b hb => ?_⟩
  · rw [hTotal, hWaiting, hCount]
    have hCases : b.requestId = r ∨ b.requestId ∈ c.filter.pending := by
      simpa only [step, act, OwnInvalidationReplay.begin, hEmpty,
        Bool.false_eq_true, if_false, Finset.mem_insert] using hb
    rcases hCases with hr | hb
    · have hZero : receivedCount sub c.past b = 0 :=
        receivedCount_eq_zero fun e he b' hb' hEq => hQuiet e he b' hb' (hEq ▸ hr)
      have hNone : c.filter.deferred.lookup b.requestId = none :=
        lookup_eq_none.2 fun hKey =>
          hFresh (hr ▸ ((hFiled.pending _).1 (hFiled.keys _ hKey)).1)
      rw [hZero, Client.waiting, hNone]
      exact ⟨(h.due b (.inl (by rw [hr]; exact hFresh))).trans hZero, rfl⟩
    · exact h.pending b hb
  · rw [hTotal, hCount]
    refine h.due b (hb.imp (fun hForeign hMem => hForeign (mem_cons_of_mem _ hMem)) ?_)
    exact fun hMem => by simpa [Abandoned, step] using hMem
  · rw [hTotal]
    exact h.recent b hb
  · rw [hWaiting] at hb
    exact h.own x b hb

theorem complete (h : Counted sub c) (hFiled : Filed c) (hAllowed : Allowed sub (.complete r) c) :
    Counted sub (c.step sub (.complete r)) := by
  obtain ⟨hBegun, hFresh, hKept⟩ := hAllowed
  have hEmpty : r.isEmpty = false := by simpa using hFiled.named r hBegun
  have hNot : r ∉ c.filter.completed := fun hr =>
    hFresh (Filed.complete_of_recent (hFiled.mem_completed.1 hr))
  have hStep : (c.step sub (.complete r)).filter.recovered = c.filter.recovered ∧
      (c.step sub (.complete r)).filter.pending = c.filter.pending.erase r ∧
      (c.step sub (.complete r)).filter.deferred = c.filter.deferred.erase r := by
    simp only [step, act, OwnInvalidationReplay.complete,
      OwnInvalidationReplay.rememberCompleted, hEmpty, hNot, decide_false, Bool.or_false,
      Bool.false_eq_true, if_false, and_self]
  have hTotal : ∀ b, (c.step sub (.complete r)).total b = c.total b := fun b => by
    simp only [Client.total, hStep.1]
    rfl
  have hWaiting : ∀ x, x ≠ r → (c.step sub (.complete r)).waiting x = c.waiting x := fun x hx => by
    simp only [Client.waiting, hStep.2.2, lookup_erase_ne hx]
  have hCount : ∀ b, receivedCount sub (c.step sub (.complete r)).past b =
      receivedCount sub c.past b := receivedCount_cons_none rfl
  refine ⟨fun b hb => ?_, fun b hb => ?_, fun b hb => ?_, fun x b hb => ?_⟩
  · rw [hStep.2.1, Finset.mem_erase] at hb
    rw [hTotal, hWaiting _ hb.1, hCount]
    exact h.pending b hb.2
  · rw [hTotal, hCount]
    refine h.due b (hb.imp (fun hForeign hMem => hForeign (mem_cons_of_mem _ hMem)) ?_)
    exact fun hMem => by simpa [Abandoned, step] using hMem
  · rw [hTotal]
    rcases mem_cons.1 (show b.requestId ∈ r :: (completions c.past).take 1023 from hb) with
      hr | hb
    · exact (h.pending b ((hFiled.pending _).2 (hr ▸ ⟨hBegun, hFresh, hKept⟩))).1
    · exact h.recent b (take_subset_take_left _ (by decide) hb)
  · by_cases hx : x = r
    · rw [hx, Client.waiting, hStep.2.2, lookup_erase] at hb
      exact (not_mem_nil hb).elim
    · rw [hWaiting x hx] at hb
      exact h.own x b hb

theorem abandon (h : Counted sub c) (hFiled : Filed c) (hAllowed : Allowed sub (.abandon r) c) :
    Counted sub (c.step sub (.abandon r)) := by
  obtain ⟨hBegun, hFresh, hKept⟩ := hAllowed
  have hTotal : ∀ b, (c.step sub (.abandon r)).total b = c.total b + (c.waiting r).count b := by
    intro b
    simp only [Client.total, step, act, OwnInvalidationReplay.abandon,
      count_append, Client.waiting]
    omega
  -- what waited for the request belongs to it
  have hOther : ∀ b, b.requestId ≠ r → (c.step sub (.abandon r)).total b = c.total b := by
    intro b hb
    rw [hTotal, count_eq_zero.2 fun hMem => hb (h.own r b hMem), Nat.add_zero]
  have hWaiting : ∀ x, x ≠ r → (c.step sub (.abandon r)).waiting x = c.waiting x := fun x hx => by
    simp only [Client.waiting, step, act, OwnInvalidationReplay.abandon,
      lookup_erase_ne hx]
  have hCount : ∀ b, receivedCount sub (c.step sub (.abandon r)).past b =
      receivedCount sub c.past b := receivedCount_cons_none rfl
  refine ⟨fun b hb => ?_, fun b hb => ?_, fun b hb => ?_, fun x b hb => ?_⟩
  · obtain ⟨hNe, hb⟩ := Finset.mem_erase.1 hb
    rw [hOther b hNe, hWaiting _ hNe, hCount]
    exact h.pending b hb
  · rw [hCount]
    by_cases hr : b.requestId = r
    · obtain ⟨hZero, hAll⟩ := h.pending b ((hFiled.pending _).2 (hr ▸ ⟨hBegun, hFresh, hKept⟩))
      rw [hTotal, hZero, Nat.zero_add, ← hr, hAll]
    · rw [hOther b hr]
      refine h.due b (hb.imp (fun hForeign hMem => hForeign (mem_cons_of_mem _ hMem)) ?_)
      exact fun hMem => by simpa [Abandoned, step, hr] using hMem
  · have hr : b.requestId ≠ r := fun hr => hFresh (hr ▸ Filed.complete_of_recent hb)
    rw [hOther b hr]
    exact h.recent b hb
  · by_cases hx : x = r
    · rw [hx, Client.waiting] at hb
      simp only [step, act, OwnInvalidationReplay.abandon, lookup_erase] at hb
      exact (not_mem_nil hb).elim
    · rw [hWaiting x hx] at hb
      exact h.own x b hb

/-- A call of a drain adds to the accounts what it receives. -/
theorem drain (h : Counted sub c) (hEvent : e.OfDrain) (hPast : c'.past = e :: c.past)
    (hPending : c'.filter.pending = c.filter.pending)
    (hWait : ∀ b, b.requestId ∈ c.filter.pending → c'.total b = c.total b ∧ (c'.waiting
      b.requestId).count b + receivedCount sub c.past b = (c.waiting b.requestId).count b +
      receivedCount sub (e :: c.past) b)
    (hDue : ∀ b, Foreign c.past b.requestId ∨ Abandoned c.past b.requestId → c'.total b +
      receivedCount sub c.past b = c.total b + receivedCount sub (e :: c.past) b)
    (hRecent : ∀ b, RecentlyCompleted c.past b.requestId → c'.total b = c.total b)
    (hOwn : ∀ r, ∀ b ∈ c'.waiting r, b.requestId = r) : Counted sub c' := by
  refine ⟨fun b hb => ?_, fun b hb => ?_, fun b hb => ?_, hOwn⟩
  · rw [hPending] at hb
    have hOld := h.pending b hb
    have hNew := hWait b hb
    rw [hPast]
    omega
  · rw [hPast] at hb ⊢
    have hb : Foreign c.past b.requestId ∨ Abandoned c.past b.requestId := by
      simpa only [Foreign, Abandoned, begin_mem_cons hEvent, abandon_mem_cons hEvent] using hb
    have hOld := h.due b hb
    have hNew := hDue b hb
    omega
  · have hb : RecentlyCompleted c.past b.requestId := by
      simpa only [RecentlyCompleted, hPast, completions_cons hEvent] using hb
    rw [hRecent b hb, h.recent b hb]

/-- Calls of a drain that receive no broadcast of the namespace. -/
theorem quiet (h : Counted sub c) (hEvent : e.OfDrain) (hPast : c'.past = e :: c.past)
    (hReceived : e.received sub = none) (hTotal : ∀ b, c'.total b = c.total b)
    (hPending : c'.filter.pending = c.filter.pending)
    (hDeferred : c'.filter.deferred = c.filter.deferred) : Counted sub c' := by
  have hWaiting : ∀ r, c'.waiting r = c.waiting r := fun r => by
    rw [Client.waiting, hDeferred, Client.waiting]
  refine h.drain hEvent hPast hPending (fun b _ => ⟨hTotal b, ?_⟩) (fun b _ => ?_)
    (fun b _ => hTotal b) fun r b hb => h.own r b (hWaiting r ▸ hb)
  · rw [hWaiting, receivedCount_cons_none hReceived]
  · rw [hTotal, receivedCount_cons_none hReceived]

/-- A broadcast that the drain collects. -/
theorem collect (h : Counted sub c) (hEvent : e.OfDrain) (hPast : c'.past = e :: c.past)
    (hReceived : e.received sub = some b₀)
    (hTotal : ∀ b, c'.total b = c.total b + if b₀ = b then 1 else 0)
    (hFilter : c'.filter = c.filter) (hNot : b₀.requestId ∉ c.filter.pending)
    (hOld : ¬ RecentlyCompleted c.past b₀.requestId) : Counted sub c' := by
  have hWaiting : ∀ r, c'.waiting r = c.waiting r := fun r => by
    rw [Client.waiting, hFilter, Client.waiting]
  refine h.drain hEvent hPast (by rw [hFilter]) (fun b hb => ?_) (fun b _ => ?_) (fun b hb => ?_)
    fun r b hb => h.own r b (hWaiting r ▸ hb)
  · have hNe : b₀ ≠ b := by
      rintro rfl
      exact hNot hb
    rw [hTotal, hWaiting, receivedCount_cons_some hReceived, if_neg hNe]
    exact ⟨rfl, rfl⟩
  · rw [hTotal, receivedCount_cons_some hReceived]
    omega
  · have hNe : b₀ ≠ b := by
      rintro rfl
      exact hOld hb
    rw [hTotal, if_neg hNe, Nat.add_zero]

/-- A broadcast of a request that has completed. -/
theorem leaveOut (h : Counted sub c) (hFiled : Filed c) (hEvent : e.OfDrain)
    (hPast : c'.past = e :: c.past) (hReceived : e.received sub = some b₀)
    (hTotal : ∀ b, c'.total b = c.total b) (hFilter : c'.filter = c.filter)
    (hDone : .complete b₀.requestId ∈ c.past) :
    Counted sub c' := by
  have hWaiting : ∀ r, c'.waiting r = c.waiting r := fun r => by
    rw [Client.waiting, hFilter, Client.waiting]
  refine h.drain hEvent hPast (by rw [hFilter]) (fun b hb => ?_) (fun b hb => ?_)
    (fun b _ => hTotal b) fun r b hb => h.own r b (hWaiting r ▸ hb)
  · have hNe : b₀ ≠ b := by
      rintro rfl
      exact ((hFiled.pending _).1 hb).2.1 hDone
    rw [hTotal, hWaiting, receivedCount_cons_some hReceived, if_neg hNe]
    exact ⟨rfl, rfl⟩
  · have hNe : b₀ ≠ b := by
      rintro rfl
      exact hb.elim (fun hForeign => hForeign (hFiled.begun _ (.inl hDone))) (hFiled.once _ hDone)
    rw [hTotal, receivedCount_cons_some hReceived, if_neg hNe, Nat.add_zero]

/-- A broadcast of a request that is under way waits. -/
theorem defer (h : Counted sub c) (hFiled : Filed c) (hEvent : e.OfDrain)
    (hPast : c'.past = e :: c.past) (hReceived : e.received sub = some b₀)
    (hTotal : ∀ b, c'.total b = c.total b) (hPending : c'.filter.pending = c.filter.pending)
    (hWaiting : ∀ r, c'.waiting r = if r = b₀.requestId then c.waiting r ++ [b₀] else c.waiting r)
    (hOpen : b₀.requestId ∈ c.filter.pending) : Counted sub c' := by
  refine h.drain hEvent hPast hPending (fun b _ => ⟨hTotal b, ?_⟩) (fun b hb => ?_)
    (fun b _ => hTotal b) fun r b hb => ?_
  · rw [hWaiting, receivedCount_cons_some hReceived]
    split
    · rw [count_append, count_singleton]
      simp only [beq_iff_eq]
      omega
    · rename_i hNe
      rw [if_neg fun hEq : b₀ = b => hNe (hEq ▸ rfl), Nat.add_zero]
  · have hNe : b₀ ≠ b := by
      rintro rfl
      have hOpen := (hFiled.pending _).1 hOpen
      exact hb.elim (fun hForeign => hForeign hOpen.1) hOpen.2.2
    rw [hTotal, receivedCount_cons_some hReceived, if_neg hNe, Nat.add_zero]
  · rw [hWaiting] at hb
    split at hb
    · rename_i hr
      rcases mem_append.1 hb with hb | hb
      · exact h.own r b hb
      · rw [mem_singleton.1 hb, hr]
    · exact h.own r b hb

end Counted

/-! ## Steps and runs -/

/-- The filter against the history. -/
structure Sound (sub : Subscription) (c : Client) : Prop where
  filed : Filed c
  counted : Counted sub c

namespace Sound

variable {sub : Subscription} {c : Client}

theorem start (h : Sound sub c) (d : Nat) : Sound sub (c.step sub (.start d)) := by
  have hEvent : (Event.start d).OfDrain := fun r => ⟨nofun, nofun, nofun⟩
  refine ⟨h.filed.drain hEvent rfl rfl rfl rfl h.filed.keys,
    h.counted.quiet hEvent rfl rfl (fun b => ?_) rfl rfl⟩
  have hTake := count_takeRecovered c.filter sub.namespaceName b
  simp only [Client.total, step, act, collect, map_append,
    count_append, map_map, Function.comp_def, map_id'] at hTake ⊢
  omega

theorem finish (h : Sound sub c) (d : Nat) : Sound sub (c.step sub (.finish d)) := by
  have hEvent : (Event.finish d).OfDrain := fun r => ⟨nofun, nofun, nofun⟩
  refine ⟨h.filed.drain hEvent rfl rfl rfl rfl h.filed.keys,
    h.counted.quiet hEvent rfl rfl (fun b => ?_) rfl rfl⟩
  have hHeld := count_held c d b
  simp only [Client.total, step, act, count_append]
  simp only [leave] at hHeld ⊢
  omega

/-- A drain handles a broadcast of its namespace. -/
theorem handle (h : Sound sub c) {d : Nat} {frame : Frame} {b₀ : Invalidation}
    (hAccept : sub.accept frame = some b₀) (hName : b₀.namespaceName = sub.namespaceName) :
    Sound sub (c.step sub (.receive d frame)) := by
  have hEvent : (receive d frame).OfDrain := fun r => ⟨nofun, nofun, nofun⟩
  have hReceived : (receive d frame).received sub = some b₀ := by
    simp [received, hAccept, hName]
  have hAct : c.act sub (.receive d frame) =
      { c with filter := (c.filter.handleInvalidation b₀).2 }.collect d
        (c.filter.handleInvalidation b₀).1.toList := by
    simp only [act, Client.receive, hAccept, hName, if_true]
  have hNamed : b₀.requestId ∈ c.filter.pending ∨ RecentlyCompleted c.past b₀.requestId →
      b₀.requestId.isEmpty = false := by
    intro hOwn
    have hBegun : .begin b₀.requestId ∈ c.past := hOwn.elim
      (fun hOpen => ((h.filed.pending _).1 hOpen).1)
      fun hDone => h.filed.begun _ (.inl (Filed.complete_of_recent hDone))
    simpa using h.filed.named _ hBegun
  by_cases hDone : b₀.requestId ∈ c.filter.completed
  · have hRecent := h.filed.mem_completed.1 hDone
    have hHandle : c.filter.handleInvalidation b₀ = (none, c.filter) := by
      simp [OwnInvalidationReplay.handleInvalidation, hNamed (.inr hRecent), hDone]
    simp only [step, hAct, hHandle]
    refine ⟨h.filed.drain hEvent rfl rfl rfl rfl h.filed.keys, h.counted.leaveOut h.filed hEvent
      rfl hReceived (fun b => ?_) rfl (Filed.complete_of_recent hRecent)⟩
    simp [Client.total, collect]
  · by_cases hOpen : b₀.requestId ∈ c.filter.pending
    · have hHandle : c.filter.handleInvalidation b₀ = (none, { c.filter with
          deferred := c.filter.deferred.insert b₀.requestId
            (c.waiting b₀.requestId ++ [b₀]) }) := by
        simp [OwnInvalidationReplay.handleInvalidation, hNamed (.inl hOpen), hDone, hOpen,
          Client.waiting]
      simp only [step, hAct, hHandle]
      refine ⟨h.filed.drain hEvent rfl rfl rfl rfl fun r hr => ?_, h.counted.defer h.filed hEvent
        rfl hReceived (fun b => ?_) rfl (fun r => ?_) hOpen⟩
      · rcases mem_insert _ |>.1 hr with rfl | hr
        · exact hOpen
        · exact h.filed.keys r hr
      · simp [Client.total, collect]
      · simp only [Client.waiting, collect]
        by_cases hr : r = b₀.requestId
        · rw [if_pos hr, hr, lookup_insert]
          rfl
        · rw [if_neg hr, lookup_insert_ne hr]
    · have hHandle : c.filter.handleInvalidation b₀ = (some b₀, c.filter) := by
        simp [OwnInvalidationReplay.handleInvalidation, hDone, hOpen]
      simp only [step, hAct, hHandle]
      refine ⟨h.filed.drain hEvent rfl rfl rfl rfl h.filed.keys, h.counted.collect hEvent rfl
        hReceived (fun b => ?_) rfl hOpen fun hRecent => hDone (h.filed.mem_completed.2 hRecent)⟩
      simp only [Client.total, collect, Option.toList_some, map_append,
        map_cons, map_nil, count_append, count_singleton, beq_iff_eq]
      omega

theorem receive (h : Sound sub c) (d : Nat) (frame : Frame) :
    Sound sub (c.step sub (.receive d frame)) := by
  have hEvent : (Event.receive d frame).OfDrain := fun r => ⟨nofun, nofun, nofun⟩
  cases hAccept : sub.accept frame with
  | none =>
    have hAct : c.act sub (.receive d frame) = { c.leave d with lost := c.lost ++ c.held d } := by
      simp only [act, Client.receive, hAccept]
    have hReceived : (Event.receive d frame).received sub = none := by
      simp [received, hAccept]
    simp only [step, hAct]
    refine ⟨h.filed.drain hEvent rfl rfl rfl rfl h.filed.keys,
      h.counted.quiet hEvent rfl hReceived (fun b => ?_) rfl rfl⟩
    have hHeld := count_held c d b
    simp only [Client.total, count_append]
    simp only [leave] at hHeld ⊢
    omega
  | some b₀ =>
    by_cases hName : b₀.namespaceName = sub.namespaceName
    · exact h.handle hAccept hName
    · have hAct : c.act sub (.receive d frame) = c := by
        simp only [act, Client.receive, hAccept, hName, if_false]
      have hReceived : (Event.receive d frame).received sub = none := by
        simp [received, hAccept, hName]
      simp only [step, hAct]
      exact ⟨h.filed.drain hEvent rfl rfl rfl rfl h.filed.keys,
        h.counted.quiet hEvent rfl hReceived (fun b => rfl) rfl rfl⟩

theorem step (h : Sound sub c) (e : Event) (hAllowed : Allowed sub e c) :
    Sound sub (c.step sub e) := by
  cases e with
  | begin r => exact ⟨h.filed.begin hAllowed, h.counted.begin h.filed hAllowed⟩
  | complete r => exact ⟨h.filed.complete hAllowed, h.counted.complete h.filed hAllowed⟩
  | abandon r => exact ⟨h.filed.abandon hAllowed, h.counted.abandon h.filed hAllowed⟩
  | start d => exact h.start d
  | receive d frame => exact h.receive d frame
  | finish d => exact h.finish d

theorem run {events : List Event} (hAllowed : Along (Client.step sub) (Allowed sub) events .new) :
    Sound sub (run (Client.step sub) events .new) :=
  run_invariant (fun e _ h hC => h.step e hC) ⟨.new, .new⟩ hAllowed

end Sound

/-- Collected broadcasts are in the hands of running drains, and what waits or was recovered is
of the namespace. -/
structure Tidy (sub : Subscription) (c : Client) : Prop where
  tagged : ∀ entry ∈ c.collected, entry.1 ∈ c.active
  recovered : ∀ b ∈ c.filter.recovered, b.namespaceName = sub.namespaceName
  waiting : ∀ r, ∀ b ∈ c.waiting r, b.namespaceName = sub.namespaceName

namespace Tidy

variable {sub : Subscription} {c : Client}

theorem waiting_erase (h : Tidy sub c) {r x : Text} {b : Invalidation}
    (hb : b ∈ ((c.filter.deferred.erase r).lookup x).getD []) :
    b.namespaceName = sub.namespaceName := by
  by_cases hx : x = r
  · rw [hx, lookup_erase] at hb
    exact (not_mem_nil hb).elim
  · rw [lookup_erase_ne hx] at hb
    exact h.waiting x b hb

theorem leave (h : Tidy sub c) (d : Nat) : Tidy sub (c.leave d) := by
  refine ⟨fun entry hEntry => ?_, h.recovered, h.waiting⟩
  have hEntry := mem_filter.1 hEntry
  exact Finset.mem_erase.2 ⟨by simpa using hEntry.2, h.tagged entry hEntry.1⟩

theorem collect (h : Tidy sub c) {d : Nat} (hActive : d ∈ c.active)
    (invalidations : List Invalidation) : Tidy sub (c.collect d invalidations) := by
  refine ⟨fun entry hEntry => ?_, h.recovered, h.waiting⟩
  rcases mem_append.1 hEntry with hEntry | hEntry
  · exact h.tagged entry hEntry
  · obtain ⟨b, -, rfl⟩ := mem_map.1 hEntry
    exact hActive

theorem handle (h : Tidy sub c) {b₀ : Invalidation} (hName : b₀.namespaceName = sub.namespaceName) :
    Tidy sub { c with filter := (c.filter.handleInvalidation b₀).2 } := by
  unfold OwnInvalidationReplay.handleInvalidation
  dsimp only
  split
  · exact h
  · split
    · exact h
    · split
      · refine ⟨h.tagged, h.recovered, fun r b hb => ?_⟩
        simp only [Client.waiting] at hb
        by_cases hr : r = b₀.requestId
        · rw [hr, lookup_insert] at hb
          rcases mem_append.1 hb with hb | hb
          · exact h.waiting _ b hb
          · rw [mem_singleton.1 hb, hName]
        · rw [lookup_insert_ne hr] at hb
          exact h.waiting r b hb
      · exact h

theorem act (h : Tidy sub c) (e : Event) (hAllowed : Allowed sub e c) : Tidy sub (c.act sub e) := by
  cases e with
  | begin r =>
    simp only [Client.act, OwnInvalidationReplay.begin]
    split
    · exact h
    · exact ⟨h.tagged, h.recovered, h.waiting⟩
  | complete r =>
    simp only [Client.act, OwnInvalidationReplay.complete, OwnInvalidationReplay.rememberCompleted]
    split
    · exact ⟨h.tagged, h.recovered, fun x b hb => h.waiting_erase hb⟩
    · exact ⟨h.tagged, h.recovered, fun x b hb => h.waiting_erase hb⟩
  | abandon r =>
    refine ⟨h.tagged, fun b hb => ?_, fun x b hb => h.waiting_erase hb⟩
    rcases mem_append.1 hb with hb | hb
    · exact h.recovered b hb
    · exact h.waiting r b hb
  | start d =>
    refine collect (c := { c with
      filter := (c.filter.takeRecovered sub.namespaceName).2
      active := insert d c.active }) ?_ (Finset.mem_insert_self d _) _
    exact ⟨fun entry hEntry => Finset.mem_insert_of_mem (h.tagged entry hEntry),
      fun b hb => h.recovered b (mem_of_mem_filter hb), h.waiting⟩
  | receive d frame =>
    simp only [Client.act, Client.receive]
    split
    · have hLeave := h.leave d
      exact ⟨hLeave.tagged, hLeave.recovered, hLeave.waiting⟩
    · split
      · rename_i hName
        exact (h.handle hName).collect hAllowed _
      · exact h
  | finish d =>
    have hLeave := h.leave d
    exact ⟨hLeave.tagged, hLeave.recovered, hLeave.waiting⟩

theorem run {events : List Event} (hAllowed : Along (step sub) (Allowed sub) events .new) :
    Tidy sub (run (step sub) events .new) := by
  refine run_invariant (fun e c h hC => ?_) ?_ hAllowed
  · have hAct := act h e hC
    exact ⟨hAct.tagged, hAct.recovered, hAct.waiting⟩
  · refine ⟨?_, ?_, ?_⟩ <;> simp [Client.new, OwnInvalidationReplay.new, Client.waiting]

theorem collected_idle (h : Tidy sub c) (hIdle : c.active = ∅) : c.collected = [] := by
  refine eq_nil_iff_forall_not_mem.2 fun entry hEntry => ?_
  simpa [hIdle] using h.tagged entry hEntry

/-- A drain that runs alone returns all that was left to deliver. -/
theorem delivered_drain (h : Tidy sub c) (hIdle : c.active = ∅) (d : Nat) :
    ((c.step sub (.start d)).step sub (.finish d)).delivered =
      c.delivered ++ c.filter.recovered := by
  have hAll : c.filter.recovered.filter (·.namespaceName == sub.namespaceName) =
      c.filter.recovered :=
    filter_eq_self.2 fun b hb => by simpa using h.recovered b hb
  simp [Client.step, Client.act, Client.leave, Client.collect, Client.held,
    h.collected_idle hIdle, OwnInvalidationReplay.takeRecovered, hAll, Function.comp_def,
    filter_map]

end Tidy

theorem lost_step {sub : Subscription} {b : Invalidation} (e : Event) (c : Client) :
    b ∉ (c.step sub e).lost ↔ b ∉ c.lost ∧ Spares sub b e c := by
  cases e with
  | receive d frame =>
    simp only [step, act, Client.receive, Spares]
    split
    · next hBad => simp [hBad]
    · next hGood =>
      split
      · simp [hGood, collect]
      · simp [hGood]
  | _ => simp [step, act, collect, leave, Spares]

/-- A broadcast is lost exactly if some drain fails with it in its hands. -/
theorem lost_run {sub : Subscription} {b : Invalidation} {events : List Event} {c : Client} :
    b ∉ (run (step sub) events c).lost ↔
      b ∉ c.lost ∧ Along (step sub) (Spares sub b) events c := by
  induction events generalizing c with
  | nil => simp [Along]
  | cons e events ih => rw [run_cons, ih, lost_step, and_assoc, Along]

/-- How often the broadcast was returned by a drain, is in the hands of a running drain or will
be taken by the next one. -/
def Client.deliveries (c : Client) (b : Invalidation) : Nat :=
  c.delivered.count b + (c.collected.map (·.2)).count b + c.filter.recovered.count b

/-- The filter of own broadcasts over any run of requests and drains. -/
theorem broadcasts_run (sub : Subscription) (events : List Event)
    (hAllowed : Along (step sub) (Allowed sub) events .new) :
    let c := run (step sub) events .new
    (∀ b, Foreign c.past b.requestId ∨ Abandoned c.past b.requestId →
      (c.deliveries b = receivedCount sub c.past b ↔
        Along (Client.step sub) (Spares sub b) events .new)) ∧
    (c.active = ∅ → ∀ b d,
      ((c.step sub (.start d)).step sub (.finish d)).delivered.count b = c.deliveries b) ∧
    (∀ b, RecentlyCompleted c.past b.requestId → c.deliveries b = 0) ∧
    Disjoint c.filter.pending c.filter.completed ∧
    (∀ r ∈ c.filter.deferred, r ∈ c.filter.pending) ∧
    c.filter.completed = c.filter.completedOrder.toFinset ∧ c.filter.completedOrder.Nodup ∧
    c.filter.completedOrder.length ≤ maxOwnRequestIds := by
  intro c
  have h : Sound sub c := Sound.run hAllowed
  have hTidy : Tidy sub c := Tidy.run hAllowed
  refine ⟨fun b hb => ?_, fun hIdle b d => ?_, fun b hb => ?_, ?_, h.filed.keys,
    h.filed.completed, ?_, ?_⟩
  · have hTotal : c.deliveries b + c.lost.count b = receivedCount sub c.past b :=
      h.counted.due b hb
    have hLost : b ∉ c.lost ↔ Along (step sub) (Spares sub b) events .new :=
      lost_run.trans (and_iff_right not_mem_nil)
    rw [← hLost, ← count_eq_zero]
    omega
  · rw [hTidy.delivered_drain hIdle, count_append, Client.deliveries,
      hTidy.collected_idle hIdle]
    rfl
  · have hTotal := h.counted.recent b hb
    rw [Client.total] at hTotal
    rw [Client.deliveries]
    omega
  · refine Finset.disjoint_left.2 fun r hOpen hDone => ?_
    exact ((h.filed.pending r).1 hOpen).2.1
      (Filed.complete_of_recent (h.filed.mem_completed.1 hDone))
  · rw [h.filed.order]
    exact nodup_reverse.2 h.filed.nodup.take
  · rw [h.filed.order, length_reverse]
    exact length_take_le _ _

section Samples

def sampleSubscription : Subscription := ⟨1024, "ns".toUTF8.toList⟩

/-- A full resync that another client's request, or the named one, caused. -/
def sampleBroadcast (requestId : Text) : Invalidation :=
  fullResyncInvalidation "ns".toUTF8.toList requestId 1

def sampleFrame (requestId : Text) : Frame := ⟨100, some (sampleBroadcast requestId)⟩

/-- A request that is given up after its broadcast came, and a broadcast of another client. -/
def givenUpRun : List Event :=
  [.begin "r".toUTF8.toList, .start 0, .receive 0 (sampleFrame "r".toUTF8.toList),
    .receive 0 (sampleFrame "x".toUTF8.toList), .finish 0, .abandon "r".toUTF8.toList]

theorem broadcasts_run_given_up :
    (run (step sampleSubscription) givenUpRun .new).deliveries
      (sampleBroadcast "r".toUTF8.toList) = 1 := by
  have h := ((broadcasts_run sampleSubscription givenUpRun (by decide +kernel)).1
    (sampleBroadcast "r".toUTF8.toList) (.inr (by decide +kernel))).2 (by decide +kernel)
  exact h.trans (by decide +kernel)

/-- A broadcast of another client that was received well is never delivered, because the frame
after it is too large. -/
theorem cut_drain_loses :
    let events : List Event := [.start 0, .receive 0 (sampleFrame "x".toUTF8.toList),
      .receive 0 ⟨4096, none⟩, .start 1, .finish 1]
    let c := run (step sampleSubscription) events .new
    Along (step sampleSubscription) (Allowed sampleSubscription) events .new ∧
    Foreign c.past "x".toUTF8.toList ∧
    receivedCount sampleSubscription c.past (sampleBroadcast "x".toUTF8.toList) = 1 ∧
    c.deliveries (sampleBroadcast "x".toUTF8.toList) = 0 := by
  refine ⟨?_, ?_, ?_, ?_⟩ <;> decide +kernel

end Samples

end FabricFs.Transport
