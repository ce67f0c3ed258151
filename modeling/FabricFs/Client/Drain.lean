import FabricFs.Client.Handles

/-!
# A full resync in a drained batch

A drain applies a batch of invalidations one after the other and goes on after an error. A
full resync empties the cache and forgets the errors before it; only the open handles come
through, and the cache asks nothing of them but whether there are any.

* `applyBatch_alike`: two clients with one cache, and with open handles both or neither,
  fare alike in every batch.
* `drain_of_resync`: what a drain leaves behind and reports is decided after the last full
  resync, except for the paths of the open handles.
-/

namespace FabricFs.Client

open Lib Protocol CacheKernel

variable {k k' : CacheKernel} {name : Text} {invalidation : Invalidation}
  {invalidations : List Invalidation}

/-- What the invalidations of a batch return, one by one. -/
def outcomes (name : Text) : List Invalidation → CacheKernel → List (Except FuseError Bool)
  | [], _ => []
  | invalidation :: rest, k =>
    (k.applyInvalidation name invalidation true).1 ::
      outcomes name rest (k.applyInvalidation name invalidation true).2

/-! ## Clients that fare alike -/

/-- The same cache, and open handles in both or in neither. -/
structure Alike (k k' : CacheKernel) : Prop where
  cache : k'.cache = k.cache
  handles : k'.openHandles.entries = [] ↔ k.openHandles.entries = []

theorem Alike.withCache (h : Alike k k') (f : PathCache → PathCache) :
    Alike (k.withCache f) (k'.withCache f) :=
  ⟨congrArg f h.cache, h.handles⟩

theorem renameHandlePaths_eq_nil {oldPath newPath : Text} {handles : Dict OpenHandleKey Text} :
    (renameHandlePaths oldPath newPath handles).entries = [] ↔ handles.entries = [] := by
  simp [renameHandlePaths, Dict.mapValues]

theorem Alike.followRename (h : Alike k k') (kind : InvalidationKind)
    (invalidation : Invalidation) :
    Alike (k.followRename kind invalidation) (k'.followRename kind invalidation) := by
  refine ⟨h.cache, ?_⟩
  simp only [CacheKernel.followRename]
  split
  · exact renameHandlePaths_eq_nil.trans (h.handles.trans renameHandlePaths_eq_nil.symm)
  · exact h.handles

theorem applyChange_alike (h : Alike k k') (kind : InvalidationKind) (invalidation : Invalidation) :
    (k'.applyChange kind invalidation).1 = (k.applyChange kind invalidation).1 ∧
      Alike (k.applyChange kind invalidation).2 (k'.applyChange kind invalidation).2 := by
  cases kind with
  | rename =>
    simp only [applyChange, h.cache]
    split
    · exact ⟨rfl, rfl, h.handles⟩
    · exact ⟨rfl, rfl, renameHandlePaths_eq_nil.trans
        (h.handles.trans renameHandlePaths_eq_nil.symm)⟩
  | _ =>
    simp only [applyChange, withCache, h.cache]
    exact ⟨trivial, rfl, h.handles⟩

theorem applySequenced_alike (h : Alike k k') (kind : InvalidationKind)
    (invalidation : Invalidation) (baseline : Bool) :
    (k'.applySequenced kind invalidation baseline).1 =
        (k.applySequenced kind invalidation baseline).1 ∧
      Alike (k.applySequenced kind invalidation baseline).2
        (k'.applySequenced kind invalidation baseline).2 := by
  have hFollow := h.followRename kind invalidation
  simp only [applySequenced, h.cache]
  split
  · exact applyChange_alike h kind invalidation
  · simp only [hFollow.cache, ne_eq, hFollow.handles]
    split
    · exact ⟨rfl, hFollow.withCache _⟩
    · exact applyChange_alike (hFollow.withCache _) kind invalidation

theorem applyInvalidation_alike (h : Alike k k') (name : Text) (invalidation : Invalidation)
    (baseline : Bool) :
    (k'.applyInvalidation name invalidation baseline).1 =
        (k.applyInvalidation name invalidation baseline).1 ∧
      Alike (k.applyInvalidation name invalidation baseline).2
        (k'.applyInvalidation name invalidation baseline).2 := by
  unfold applyInvalidation
  split
  · exact ⟨rfl, h.withCache _⟩
  · split
    · exact ⟨rfl, h⟩
    · split
      · exact ⟨rfl, h.withCache _⟩
      · exact ⟨rfl, h⟩
      · exact ⟨rfl, h.withCache _⟩
      · exact applySequenced_alike h _ invalidation baseline

theorem applyBatch_alike (h : Alike k k') (name : Text) (invalidations : List Invalidation)
    (batchError : Option FuseError) :
    (applyBatch name invalidations batchError k').1 =
        (applyBatch name invalidations batchError k).1 ∧
      Alike (applyBatch name invalidations batchError k).2
        (applyBatch name invalidations batchError k').2 := by
  induction invalidations generalizing k k' batchError with
  | nil => exact ⟨rfl, h⟩
  | cons invalidation rest ih =>
    obtain ⟨hResult, hAfter⟩ := applyInvalidation_alike h name invalidation true
    unfold applyBatch
    rcases hApply : k.applyInvalidation name invalidation true with ⟨result, next⟩
    rcases hApply' : k'.applyInvalidation name invalidation true with ⟨result', next'⟩
    rw [hApply, hApply'] at hResult hAfter
    obtain rfl : result' = result := hResult
    rcases result' with e | resync
    · exact ih hAfter _
    · cases resync
      · exact ih hAfter _
      · exact ih hAfter _

/-! ## Batches in two parts -/

theorem applyBatch_append (name : Text) (first rest : List Invalidation)
    (batchError : Option FuseError) (k : CacheKernel) :
    applyBatch name (first ++ rest) batchError k =
      applyBatch name rest (applyBatch name first batchError k).1
        (applyBatch name first batchError k).2 := by
  induction first generalizing batchError k with
  | nil => rfl
  | cons invalidation first ih =>
    rw [List.cons_append, applyBatch, applyBatch]
    rcases k.applyInvalidation name invalidation true with ⟨_ | resync, next⟩
    · exact ih _ next
    · cases resync
      · exact ih _ next
      · exact ih _ next

theorem apply_of_resync (h : IsResync name invalidation) (baseline : Bool) (k : CacheKernel) :
    k.applyInvalidation name invalidation baseline =
      (.ok true, k.withCache (PathCache.resetWithSequence invalidation.sequence)) := by
  obtain ⟨hName, hNonempty, hValid, hKind⟩ := h
  unfold applyInvalidation
  rw [hName, if_neg (by simpa using hNonempty), if_neg (by simp), hValid, hKind,
    InvalidationKind.ofWire_wireValue]

/-- From a full resync on the batch starts anew. -/
theorem applyBatch_of_resync {resync : Invalidation} (h : IsResync name resync)
    (before after : List Invalidation) (batchError : Option FuseError) (k : CacheKernel) :
    applyBatch name (before ++ resync :: after) batchError k =
      applyBatch name after none ((applyBatch name before batchError k).2.withCache
        (PathCache.resetWithSequence resync.sequence)) := by
  rw [applyBatch_append, applyBatch, apply_of_resync h]

theorem applyBatch_handles_nil (name : Text) (invalidations : List Invalidation)
    (batchError : Option FuseError) (k : CacheKernel) :
    (applyBatch name invalidations batchError k).2.openHandles.entries = [] ↔
      k.openHandles.entries = [] := by
  have hNil : ∀ handles : Dict OpenHandleKey Text,
      handles.entries = [] ↔ ∀ key, handles.lookup key = none := by
    intro handles
    constructor
    · intro hEntries key
      rw [AList.lookup, hEntries]
      rfl
    · intro hNone
      rw [List.eq_nil_iff_forall_not_mem]
      rintro ⟨key, path⟩ hMem
      have hSome := Dict.mem_entries_iff.mp hMem
      rw [hNone key] at hSome
      cases hSome
  rw [hNil, hNil, applyBatch_eq_run]
  simp only [drainTrace, lookup_run_apply, Option.map_eq_none_iff]

/-! ## Errors -/

theorem isResync_of_ok_true {baseline : Bool}
    (h : (k.applyInvalidation name invalidation baseline).1 = .ok true) :
    IsResync name invalidation := by
  have hChange : ∀ kind (k : CacheKernel), (k.applyChange kind invalidation).1 ≠ .ok true := by
    intro kind k
    cases kind with
    | rename =>
      simp only [applyChange]
      split <;> simp
    | _ => simp [applyChange]
  unfold applyInvalidation at h
  split at h
  · cases h
  · rename_i hEmpty
    split at h
    · cases h
    · rename_i hName
      rw [not_not] at hName
      split at h
      · cases h
      · cases h
      · rename_i hValid hKind
        refine ⟨hName, ?_, hValid, InvalidationKind.ofWire_eq_ok.mp hKind⟩
        rintro rfl
        exact hEmpty (by rw [hName]; rfl)
      · simp only [applySequenced] at h
        split at h
        · exact absurd h (hChange _ _)
        · split at h
          · cases h
          · exact absurd h (hChange _ _)

/-- Without a full resync a batch fails when one of its invalidations does, or did before. -/
theorem applyBatch_eq_none_iff
    (hNone : ∀ invalidation ∈ invalidations, ¬ IsResync name invalidation)
    (batchError : Option FuseError) (k : CacheKernel) :
    (applyBatch name invalidations batchError k).1 = none ↔
      batchError = none ∧ ∀ e, .error e ∉ outcomes name invalidations k := by
  induction invalidations generalizing batchError k with
  | nil => simp [applyBatch, outcomes]
  | cons invalidation rest ih =>
    obtain ⟨hHead, hRest⟩ := List.forall_mem_cons.mp hNone
    rw [applyBatch, outcomes]
    rcases hApply : k.applyInvalidation name invalidation true with ⟨e | resync, next⟩
    · constructor
      · intro hPassed
        have hOr := ((ih hRest _ next).mp hPassed).1
        cases batchError <;> cases hOr
      · rintro ⟨-, hNoError⟩
        exact absurd List.mem_cons_self (hNoError e)
    · cases resync with
      | false => simp [ih hRest]
      | true => exact absurd (isResync_of_ok_true (by rw [hApply])) hHead

theorem poisoned_stays (baseline : Bool) (hPoisoned : k.cache.poisoned = true)
    (hNot : ¬ IsResync name invalidation) :
    (k.applyInvalidation name invalidation baseline).2.cache.poisoned = true := by
  rcases applyInvalidation_cases name invalidation baseline k with
    ⟨-, hk⟩ | ⟨-, -, hk⟩ | ⟨hResync, -⟩ | ⟨hChange, kind, hKind, hk⟩
  · rw [hk]
    exact PathCache.poison_poisoned _
  · rw [hk]
    exact hPoisoned
  · exact absurd hResync hNot
  · rw [hk]
    have hRename := hChange.renamePaths hKind
    rcases applySequenced_cases (k := k) hRename with
      ⟨-, -, hSame⟩ | ⟨-, -, hSet⟩ | ⟨-, -, hBlank, -, -⟩
    · exact hSame.trans hPoisoned
    · exact hSet
    · rw [hBlank.healthy] at hPoisoned
      cases hPoisoned

theorem poisoned_of_applyBatch {batchError : Option FuseError}
    (hBefore : batchError ≠ none → k.cache.poisoned = true)
    (hFailed : (applyBatch name invalidations batchError k).1 ≠ none) :
    (applyBatch name invalidations batchError k).2.cache.poisoned = true := by
  induction invalidations generalizing batchError k with
  | nil => exact hBefore hFailed
  | cons invalidation rest ih =>
    rw [applyBatch] at hFailed ⊢
    rcases hApply : k.applyInvalidation name invalidation true with ⟨e | resync, next⟩
    · rw [hApply] at hFailed
      refine ih (fun _ => ?_) hFailed
      have hError := poisoned_of_error (k := k) (e := e) (by rw [hApply])
      rwa [hApply] at hError
    · rw [hApply] at hFailed
      cases resync with
      | false =>
        refine ih (fun hError => ?_) hFailed
        by_cases hResync : IsResync name invalidation
        · rw [apply_of_resync hResync] at hApply
          cases hApply
        · have hStays := poisoned_stays true (hBefore hError) hResync
          rwa [hApply] at hStays
      | true => exact ih (fun hError => absurd rfl hError) hFailed

/-! ## Drains -/

theorem drain_eq (name : Text) (invalidations : List Invalidation) (k : CacheKernel) :
    drainRemoteInvalidations name (.ok invalidations) k =
      ((match (applyBatch name invalidations none k).1 with
        | none => .ok ()
        | some e => .error e), (applyBatch name invalidations none k).2) := by
  simp only [drainRemoteInvalidations]
  rcases applyBatch name invalidations none k with ⟨_ | e, k'⟩ <;> rfl

theorem drain_failed_iff :
    (drainRemoteInvalidations name (.ok invalidations) k).1 ≠ .ok () ↔
      (applyBatch name invalidations none k).1 ≠ none := by
  rw [drain_eq]
  cases (applyBatch name invalidations none k).1 <;> simp

/-- A full resync wipes out what came before it: cache and result depend on what follows it,
on its number and on whether a handle is open. A drain fails exactly when an invalidation
after the last full resync does, and then the cache is poisoned. The open handles follow
every rename. -/
theorem drain_of_resync (name : Text) :
    (∀ (k k' : CacheKernel) (before before' after : List Invalidation)
      (resync resync' : Invalidation), IsResync name resync → IsResync name resync' →
      resync'.sequence = resync.sequence →
      (k'.openHandles.entries = [] ↔ k.openHandles.entries = []) →
      let drained := drainRemoteInvalidations name (.ok (before ++ resync :: after)) k
      let drained' := drainRemoteInvalidations name (.ok (before' ++ resync' :: after)) k'
      drained'.1 = drained.1 ∧ drained'.2.cache = drained.2.cache) ∧
    (∀ (k : CacheKernel) (before after : List Invalidation),
      (∀ invalidation ∈ after, ¬ IsResync name invalidation) →
      (before = [] ∨ ∃ first resync, before = first ++ [resync] ∧ IsResync name resync) →
      let drained := drainRemoteInvalidations name (.ok (before ++ after)) k
      (drained.1 ≠ .ok () ↔ ∃ e, .error e ∈
        outcomes name after (drainRemoteInvalidations name (.ok before) k).2) ∧
      (drained.1 ≠ .ok () → drained.2.cache.poisoned = true)) ∧
    (∀ (k : CacheKernel) (invalidations : List Invalidation) (key : OpenHandleKey),
      (drainRemoteInvalidations name (.ok invalidations) k).2.openHandles.lookup key =
        (k.openHandles.lookup key).map (follow name invalidations)) := by
  refine ⟨?_, ?_, fun k invalidations key => lookup_drain name invalidations k key⟩
  · intro k k' before before' after resync resync' hResync hResync' hSequence hHandles
    have hAlike : Alike
        ((applyBatch name before none k).2.withCache (PathCache.resetWithSequence resync.sequence))
        ((applyBatch name before' none k').2.withCache
          (PathCache.resetWithSequence resync'.sequence)) := by
      rw [hSequence]
      exact ⟨rfl, (applyBatch_handles_nil name before' none k').trans
        (hHandles.trans (applyBatch_handles_nil name before none k).symm)⟩
    obtain ⟨hError, hAfter⟩ := applyBatch_alike hAlike name after none
    simp only [drain_eq, applyBatch_of_resync hResync, applyBatch_of_resync hResync']
    exact ⟨by rw [hError], hAfter.cache⟩
  · intro k before after hNone hBefore
    have hForgotten : (applyBatch name before none k).1 = none := by
      rcases hBefore with rfl | ⟨first, resync, rfl, hResync⟩
      · rfl
      · rw [applyBatch_of_resync hResync]
        rfl
    refine ⟨?_, fun hFailed => ?_⟩
    · rw [drain_failed_iff, applyBatch_append, hForgotten, ne_eq,
        applyBatch_eq_none_iff hNone, drain_eq]
      simp
    · rw [drain_eq]
      exact poisoned_of_applyBatch (fun h => absurd rfl h) (drain_failed_iff.mp hFailed)

/-- With `/a/f` open, `/a` becomes `/b` after a full resync. A number that does not fit is
forgotten before the resync and reported after it. -/
theorem drain_of_resync_renamed :
    let k := CacheKernel.new.rememberHandlePath 7 1 [slash, 97, slash, 102]
    let resync := fullResyncInvalidation [110] [] 5
    let rename := renameInvalidation [110] [slash, 97] [slash, 98] 6
    let gap := sampleInvalidation .delete 9 [slash, 99] 0
    let drain := fun batch => drainRemoteInvalidations [110] (.ok batch) k
    (drain [gap, resync, rename]).1 = (drain [resync, rename]).1 ∧
      (drain [gap, resync, rename]).2.cache = (drain [resync, rename]).2.cache ∧
      (drain [resync, gap]).1 ≠ .ok () ∧ (drain [resync, gap]).2.cache.poisoned = true ∧
      (drain [resync, rename]).2.openHandles.lookup (7, 1) = some [slash, 98, slash, 102] := by
  intro k resync rename gap drain
  have hResync : IsResync [110] resync := ⟨rfl, by simp, by decide +kernel, rfl⟩
  obtain ⟨hAlike, hFailure, hHandles⟩ := drain_of_resync [110]
  obtain ⟨hResult, hCache⟩ := hAlike k k [] [gap] [rename] resync resync hResync hResync rfl
    Iff.rfl
  have hGap : ∀ other ∈ [gap], ¬ IsResync [110] other := by
    intro other hMem hOther
    obtain rfl := List.mem_singleton.mp hMem
    exact absurd hOther.2.2.2 (by decide)
  obtain ⟨hIff, hPoisoned⟩ := hFailure k [resync] [gap] hGap (.inr ⟨[], resync, rfl, hResync⟩)
  have hFailed := hIff.mpr ⟨.staleCache, by decide +kernel⟩
  refine ⟨hResult, hCache, hFailed, hPoisoned hFailed, ?_⟩
  exact (hHandles k [resync, rename] (7, 1)).trans (by decide +kernel)

end FabricFs.Client
