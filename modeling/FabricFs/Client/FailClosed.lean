import FabricFs.Lib.Runs
import FabricFs.Client.Cache

/-!
# The client cache fails closed

What happens to the cache of one adapter is a sequence of small steps: one invalidation
is applied, the cache is poisoned, or the adapter stores or forgets what it learned. A
drain and a call are runs of small steps (`drain_eq_run`, `call_eq_run`).

* `SmallClosed`: a malformed invalidation and a gap poison the cache, only a full resync
  ends the poison, and the last sequence number moves by one, by a full resync or by a
  baseline taken with an empty cache.
* `failsClosed_run`: this holds at every small step of every run in which no invalidation
  is compared with the number after `2^64 - 1`.
* `contiguous_after_wrap`: at that number the next one is computed as 0, and an
  invalidation with the number 0 is taken for the next.
-/

namespace FabricFs.Client

open Lib Protocol CacheKernel PathCache Runs
open InvalidationKind (fullResync ofWire ofWire_eq_ok)

/-! ## What leaves the poison and the sequence number alone -/

namespace PathCache

/-- The poison and the last sequence number are the same. -/
def SameMark (c c' : PathCache) : Prop :=
  c'.poisoned = c.poisoned ∧ c'.lastSequence = c.lastSequence

theorem SameMark.refl (c : PathCache) : SameMark c c := ⟨rfl, rfl⟩

theorem SameMark.trans {c c' c'' : PathCache} (h : SameMark c c') (h' : SameMark c' c'') :
    SameMark c c'' := ⟨h'.1.trans h.1, h'.2.trans h.2⟩

theorem sameMark_foldl {β : Type} {f : PathCache → β → PathCache}
    (hf : ∀ c b, SameMark c (f c b)) (l : List β) (c : PathCache) : SameMark c (l.foldl f c) := by
  induction l generalizing c with
  | nil => exact .refl c
  | cons b l ih => exact (hf c b).trans (ih (f c b))

theorem sameMark_link (path : Text) (inode : Nat) (c : PathCache) :
    SameMark c (c.link path inode) := ⟨rfl, rfl⟩

theorem sameMark_detach (inode : Nat) (path : Text) (c : PathCache) :
    SameMark c (c.detachInodePathForRename inode path) := by
  unfold detachInodePathForRename
  split <;> exact ⟨rfl, rfl⟩

theorem sameMark_removeInodePath (inode : Nat) (path : Text) (c : PathCache) :
    SameMark c (c.removeInodePath inode path) := by
  unfold removeInodePath
  split
  · exact ⟨rfl, rfl⟩
  · simp only
    split <;> exact sameMark_detach inode path c

theorem sameMark_insert (path : Text) (inode : Nat) (c : PathCache) :
    SameMark c (c.insert path inode) := by
  unfold insert
  split
  · exact .refl c
  · split
    · exact (sameMark_removeInodePath _ path c).trans (sameMark_link path inode _)
    · exact sameMark_link path inode c

theorem sameMark_unlinkEntry (c : PathCache) (entry : Nat × Text) :
    SameMark c (c.unlinkEntry entry) :=
  sameMark_removeInodePath entry.1 entry.2 { c with pathToInode := c.pathToInode.erase entry.2 }

theorem sameMark_removePath (path : Text) (c : PathCache) : SameMark c (c.removePath path) := by
  unfold removePath
  split
  · exact .refl c
  · exact sameMark_foldl sameMark_unlinkEntry _ c

theorem sameMark_moveEntry (oldPath newPath : Text) (c : PathCache) (entry : Nat × Text) :
    SameMark c (c.moveEntry oldPath newPath entry) := by
  have hDetach := sameMark_detach entry.1 entry.2
    { c with pathToInode := c.pathToInode.erase entry.2 }
  exact hDetach.trans (sameMark_link _ _ _)

theorem sameMark_rename (oldPath newPath : Text) (c : PathCache) :
    SameMark c (c.rename oldPath newPath).2 := by
  unfold rename
  split
  · exact .refl c
  · exact (sameMark_foldl sameMark_unlinkEntry _ c).trans
      (sameMark_foldl (sameMark_moveEntry oldPath newPath) _ _)

theorem sameMark_removeInode (inode : Nat) (c : PathCache) : SameMark c (c.removeInode inode) := by
  unfold removeInode
  split <;> exact ⟨rfl, rfl⟩

theorem sameMark_forget (inode nlookup : Nat) (c : PathCache) :
    SameMark c (c.forget inode nlookup) := by
  unfold forget
  split
  · exact .refl c
  · split
    · exact sameMark_removeInode inode c
    · split
      · exact ⟨rfl, rfl⟩
      · exact sameMark_removeInode inode { c with lookupCounts := c.lookupCounts.erase inode }

theorem sameMark_insertLookup (path : Text) (inode count : Nat) (c : PathCache) :
    SameMark c (c.insertLookup path inode count) := by
  refine (sameMark_insert path inode c).trans ?_
  unfold insertLookup addLookup
  split <;> exact ⟨rfl, rfl⟩

theorem sameMark_cleared (c : PathCache) : SameMark c c.cleared :=
  sameMark_insert rootPath 1 { c with pathToInode := ∅, inodeToPaths := ∅, lookupCounts := ∅ }

@[simp] theorem poison_poisoned (c : PathCache) : c.poison.poisoned = true :=
  (sameMark_cleared { c with poisoned := true }).1

@[simp] theorem poison_lastSequence (c : PathCache) : c.poison.lastSequence = c.lastSequence :=
  (sameMark_cleared { c with poisoned := true }).2

@[simp] theorem reset_lastSequence (sequence : Nat) (c : PathCache) :
    (c.resetWithSequence sequence).lastSequence = sequence :=
  (sameMark_cleared { c with poisoned := false, lastSequence := sequence }).2

end PathCache

/-! ## Small steps -/

variable {k : CacheKernel} {invalidation : Invalidation} {kind : InvalidationKind} {baseline : Bool}
  {name : Text} {request : RequestEnvelope} {payload : ResponsePayload} {e : FuseError}

inductive Small where
  | apply (invalidation : Invalidation) (allowEmptySequenceBaseline : Bool)
  | poison
  | insertLookup (path : Text) (inode count : Nat)
  | forget (inode nlookup : Nat)
  | rememberHandle (inode handle : Nat) (path : Text)
  | forgetHandle (inode handle : Nat)
  deriving DecidableEq, Repr

def smallStep (name : Text) (small : Small) (k : CacheKernel) : CacheKernel :=
  match small with
  | .apply invalidation baseline => (k.applyInvalidation name invalidation baseline).2
  | .poison => k.poison
  | .insertLookup path inode count => k.withCache (insertLookup path inode count)
  | .forget inode nlookup => k.withCache (forget inode nlookup)
  | .rememberHandle inode handle path => k.rememberHandlePath inode handle path
  | .forgetHandle inode handle => k.forgetHandlePath inode handle

/-- The invalidation is a full resync of this namespace. -/
def IsResync (name : Text) (invalidation : Invalidation) : Prop :=
  invalidation.namespaceName = name ∧ name ≠ [] ∧ validateInvalidation invalidation = .ok () ∧
    invalidation.kind = fullResync.wireValue

/-- The invalidation is a checked one of this namespace that carries a change. -/
def IsChange (name : Text) (invalidation : Invalidation) : Prop :=
  invalidation.namespaceName = name ∧ name ≠ [] ∧ validateInvalidation invalidation = .ok () ∧
    invalidation.kind ≠ fullResync.wireValue

/-- No cached path, no lookup count, no open handle and no poison. -/
structure Blank (k : CacheKernel) : Prop where
  healthy : k.cache.poisoned = false
  paths : ∀ path inode, k.cache.pathToInode.lookup path = some inode → path = rootPath
  counts : ∀ inode, k.cache.lookupCounts.lookup inode = none
  handles : ∀ key, k.openHandles.lookup key = none

/-- What one invalidation may do to the cache. -/
structure SmallClosed (name : Text) (invalidation : Invalidation) (baseline : Bool)
    (k k' : CacheKernel) : Prop where
  malformed : (invalidation.namespaceName = [] ∨ invalidation.namespaceName = name ∧
    validateInvalidation invalidation ≠ .ok ()) → k'.cache.poisoned = true
  gap : IsChange name invalidation → invalidation.sequence ≠ k.cache.lastSequence + 1 →
    ¬ (baseline = true ∧ Blank k) → k'.cache.poisoned = true
  stays : k.cache.poisoned = true → ¬ IsResync name invalidation → k'.cache.poisoned = true
  moves : k'.cache.lastSequence = k.cache.lastSequence ∨
    k'.cache.lastSequence = k.cache.lastSequence + 1 ∧
      invalidation.sequence = k.cache.lastSequence + 1 ∨
    IsResync name invalidation ∧ k'.cache.lastSequence = invalidation.sequence ∨
    baseline = true ∧ Blank k ∧ k'.cache.lastSequence = invalidation.sequence

/-- The sequence number is one of 64 bits, and it is not compared with the number after
`2^64 - 1`. -/
def Countable (name : Text) (small : Small) (k : CacheKernel) : Prop :=
  match small with
  | .apply invalidation _ =>
    invalidation.sequence < 2 ^ 64 ∧
      (IsChange name invalidation → k.cache.lastSequence ≠ 2 ^ 64 - 1)
  | _ => True

/-! ## One invalidation -/

theorem blank_of_canAccept (hHandles : k.openHandles.entries = [])
    (hCache : k.cache.canAcceptNoncontiguousSequence = true) : Blank k := by
  simp only [canAcceptNoncontiguousSequence, Bool.and_eq_true, Bool.not_eq_true',
    beq_iff_eq, List.isEmpty_iff] at hCache
  obtain ⟨⟨⟨⟨⟨hHealthy, hOne⟩, hRoot⟩, -⟩, -⟩, hCounts⟩ := hCache
  refine ⟨hHealthy, ?_, ?_, ?_⟩
  · intro path inode hLookup
    have hPath := Dict.mem_entries_iff.mpr hLookup
    have hRootMem := Dict.mem_entries_iff.mpr hRoot
    obtain ⟨e, he⟩ := List.length_eq_one_iff.mp hOne
    rw [he, List.mem_singleton] at hPath hRootMem
    have hEq := hPath.trans hRootMem.symm
    exact congrArg Sigma.fst hEq
  · intro inode
    rw [AList.lookup, hCounts]
    rfl
  · intro key
    rw [AList.lookup, hHandles]
    rfl

theorem rename_ok {c : PathCache} {oldPath newPath : Text}
    (h : validateRenamePaths oldPath newPath = .ok ()) :
    (c.rename oldPath newPath).1 = .ok () := by
  simp [rename, h]

theorem renamePaths_of_valid (hValid : validateInvalidation invalidation = .ok ())
    (hKind : ofWire invalidation.kind = .ok .rename) :
    validateRenamePaths invalidation.oldPath invalidation.newPath = .ok () := by
  unfold validateInvalidation at hValid
  rw [hKind] at hValid
  have hPaths := (check_bind_eq_ok.mp (check_bind_eq_ok.mp hValid).2).1
  simp only [validateInvalidationPaths, check_bind_eq_ok] at hPaths
  exact hPaths.2.2

theorem IsChange.renamePaths (h : IsChange name invalidation)
    (hKind : ofWire invalidation.kind = .ok kind) : kind = .rename →
    validateRenamePaths invalidation.oldPath invalidation.newPath = .ok () := by
  rintro rfl
  exact renamePaths_of_valid h.2.2.1 hKind

/-- An accepted change sets the sequence number and keeps the poison. -/
theorem applyChange_mark
    (hRename : kind = .rename → validateRenamePaths invalidation.oldPath invalidation.newPath = .ok
      ()) :
    (k.applyChange kind invalidation).2.cache.lastSequence = invalidation.sequence ∧
      (k.applyChange kind invalidation).2.cache.poisoned = k.cache.poisoned := by
  cases kind with
  | create =>
    refine ⟨rfl, ?_⟩
    simp only [applyChange, withCache]
    split
    · exact (sameMark_removePath _ _).1
    · exact (sameMark_insert _ _ _).1
  | delete => exact ⟨rfl, (sameMark_removePath _ _).1⟩
  | rename =>
    have hOk := rename_ok (c := k.cache) (hRename rfl)
    have hMark := sameMark_rename invalidation.oldPath invalidation.newPath k.cache
    rcases hr : k.cache.rename invalidation.oldPath invalidation.newPath with ⟨_ | u, c⟩
    · rw [hr] at hOk
      cases hOk
    · rw [hr] at hMark
      simp only [applyChange, hr, withCache]
      exact ⟨trivial, hMark.1⟩
  | modify => exact ⟨rfl, rfl⟩
  | metadata => exact ⟨rfl, rfl⟩
  | xattr => exact ⟨rfl, rfl⟩
  | fullResync => exact ⟨rfl, rfl⟩

/-- The three outcomes for a checked change: the next number, a refused gap, a baseline. -/
theorem applySequenced_cases
    (hRename : kind = .rename → validateRenamePaths invalidation.oldPath invalidation.newPath = .ok
      ()) :
    let k' := (k.applySequenced kind invalidation baseline).2
    invalidation.sequence = wrappingSucc k.cache.lastSequence ∧
        k'.cache.lastSequence = invalidation.sequence ∧ k'.cache.poisoned = k.cache.poisoned ∨
      invalidation.sequence ≠ wrappingSucc k.cache.lastSequence ∧
        k'.cache.lastSequence = k.cache.lastSequence ∧ k'.cache.poisoned = true ∨
      invalidation.sequence ≠ wrappingSucc k.cache.lastSequence ∧ baseline = true ∧ Blank k ∧
        k'.cache.lastSequence = invalidation.sequence ∧ k'.cache.poisoned = k.cache.poisoned := by
  intro k'
  by_cases hNext : invalidation.sequence = wrappingSucc k.cache.lastSequence
  · have hMark := applyChange_mark (k := k) hRename
    refine .inl ⟨hNext, ?_⟩
    simp only [k', applySequenced, if_pos hNext]
    exact hMark
  · refine .inr ?_
    simp only [k', applySequenced, if_neg hNext]
    split
    · exact .inl ⟨hNext, poison_lastSequence _, poison_poisoned _⟩
    · rename_i hAccept
      simp only [not_or, Bool.not_eq_false, not_not] at hAccept
      obtain ⟨-, hBaseline, hHandles, hCache⟩ := hAccept
      have hMark := applyChange_mark (k := (k.followRename kind invalidation).withCache
        (fun c => { c with lastSequence := invalidation.sequence - 1 })) hRename
      refine .inr ⟨hNext, hBaseline, ?_, hMark⟩
      refine blank_of_canAccept ?_ hCache
      simp only [followRename] at hHandles
      split at hHandles
      · simpa [renameHandlePaths, Dict.mapValues] using hHandles
      · exact hHandles

/-- What one invalidation does to the poison and the sequence number. -/
theorem applyInvalidation_cases (name : Text) (invalidation : Invalidation) (baseline : Bool)
    (k : CacheKernel) :
    let k' := (k.applyInvalidation name invalidation baseline).2
    (invalidation.namespaceName = [] ∨ invalidation.namespaceName = name ∧
        validateInvalidation invalidation ≠ .ok ()) ∧ k' = k.poison ∨
      invalidation.namespaceName ≠ [] ∧ invalidation.namespaceName ≠ name ∧ k' = k ∨
      IsResync name invalidation ∧ k' = k.withCache (resetWithSequence invalidation.sequence) ∨
      IsChange name invalidation ∧ ∃ kind, ofWire invalidation.kind = .ok kind ∧
        k' = (k.applySequenced kind invalidation baseline).2 := by
  intro k'
  by_cases hEmpty : invalidation.namespaceName = []
  · refine .inl ⟨.inl hEmpty, ?_⟩
    simp [k', applyInvalidation, hEmpty]
  have hIsEmpty : invalidation.namespaceName.isEmpty = false := by simpa using hEmpty
  by_cases hName : invalidation.namespaceName = name
  · have hNonempty : name ≠ [] := hName ▸ hEmpty
    cases hValid : validateInvalidation invalidation with
    | error e =>
      refine .inl ⟨.inr ⟨hName, by simp⟩, ?_⟩
      simp [k', applyInvalidation, hNonempty, hName, hValid]
    | ok u =>
      obtain ⟨kind, hKind⟩ := ofWire_of_valid hValid
      by_cases hResync : kind = .fullResync
      · subst hResync
        refine .inr (.inr (.inl ⟨⟨hName, hNonempty, hValid, ?_⟩, ?_⟩))
        · exact ofWire_eq_ok.mp hKind
        · simp [k', applyInvalidation, hNonempty, hName, hValid, hKind]
      · refine .inr (.inr (.inr ⟨⟨hName, hNonempty, hValid, ?_⟩, kind, hKind, ?_⟩))
        · rw [ofWire_eq_ok.mp hKind]
          cases kind <;> first | exact absurd rfl hResync | decide
        · simp only [k', applyInvalidation, hName, hValid, hKind]
          rw [if_neg (by simpa using hNonempty), if_neg (by simp)]
  · refine .inr (.inl ⟨hEmpty, hName, ?_⟩)
    simp [k', applyInvalidation, hIsEmpty, hName]

theorem wrappingSucc_eq {n : Nat} (hBound : n < 2 ^ 64) (hLast : n ≠ 2 ^ 64 - 1) :
    wrappingSucc n = n + 1 := Nat.mod_eq_of_lt (by omega)

/-- Every invalidation is handled closed, unless its number is compared with the wrapped
one. -/
theorem smallClosed_apply (hBound : k.cache.lastSequence < 2 ^ 64)
    (hCount : Countable name (.apply invalidation baseline) k) :
    SmallClosed name invalidation baseline k
      (k.applyInvalidation name invalidation baseline).2 := by
  rcases applyInvalidation_cases name invalidation baseline k with
    ⟨hBad, hk⟩ | ⟨hEmpty, hName, hk⟩ | ⟨hResync, hk⟩ | ⟨hChange, kind, hKind, hk⟩
  · rw [hk]
    have hPoisoned : k.poison.cache.poisoned = true := poison_poisoned _
    exact ⟨fun _ => hPoisoned, fun _ _ _ => hPoisoned, fun _ _ => hPoisoned,
      .inl (poison_lastSequence _)⟩
  · rw [hk]
    refine ⟨?_, fun hChange => absurd hChange.1 hName, fun h _ => h, .inl rfl⟩
    rintro (h | h)
    · exact absurd h hEmpty
    · exact absurd h.1 hName
  · rw [hk]
    refine ⟨?_, fun hChange => absurd hResync.2.2.2 hChange.2.2.2, fun _ h => absurd hResync h,
      .inr (.inr (.inl ⟨hResync, reset_lastSequence _ _⟩))⟩
    rintro (h | h)
    · exact absurd (hResync.1.symm.trans h) hResync.2.1
    · exact absurd hResync.2.2.1 h.2
  · rw [hk]
    have hSucc := wrappingSucc_eq hBound (hCount.2 hChange)
    have hMalformed : ¬ (invalidation.namespaceName = [] ∨ invalidation.namespaceName = name ∧
        validateInvalidation invalidation ≠ .ok ()) := by
      rintro (h | h)
      · exact hChange.2.1 (hChange.1.symm.trans h)
      · exact h.2 hChange.2.2.1
    have hRename := hChange.renamePaths hKind
    rcases applySequenced_cases (k := k) hRename with
      ⟨hNext, hLast, hPoison⟩ | ⟨-, hLast, hPoison⟩ | ⟨hNext, hBase, hBlank, hLast, hPoison⟩
    · rw [hSucc] at hNext
      exact ⟨fun h => absurd h hMalformed, fun _ hGap => absurd hNext hGap,
        fun h _ => hPoison.trans h, .inr (.inl ⟨hLast.trans hNext, hNext⟩)⟩
    · exact ⟨fun _ => hPoison, fun _ _ _ => hPoison, fun _ _ => hPoison, .inl hLast⟩
    · exact ⟨fun h => absurd h hMalformed, fun _ _ h => absurd ⟨hBase, hBlank⟩ h,
        fun h _ => hPoison.trans h, .inr (.inr (.inr ⟨hBase, hBlank, hLast⟩))⟩

/-! ## Drains and calls as runs of small steps -/

/-- The poison that follows an uncertain outcome. -/
def uncertainTrace (request : RequestEnvelope) : List Small :=
  if request.payload.requiresPathInvalidation then [.poison] else []

/-- The invalidations of a response up to the first that is refused for its form. -/
def responseTrace (name : Text) : List Invalidation → CacheKernel → List Small
  | [], _ => []
  | invalidation :: rest, k =>
    .apply invalidation false ::
      match k.applySuccessResponseInvalidation name invalidation with
      | (.ok (), k) => responseTrace name rest k
      | (.error _, _) => []

/-- The small steps that a call takes on the cache. -/
def callTrace (name : Text) (request : RequestEnvelope) (requireHealthyCache : Bool)
    (reply : Except Unit ResponseEnvelope) (k : CacheKernel) : List Small :=
  if requireHealthyCache && k.cache.poisoned then []
  else
    match reply with
    | .error () => uncertainTrace request
    | .ok response =>
      if response.ok then
        match response.validateIdentityAndPayloadForRequest request with
        | .error _ => uncertainTrace request
        | .ok () =>
          responseTrace name response.invalidations k ++
            match (applyResponse name response.invalidations k).1 with
            | .error _ => []
            | .ok () => if isCovered request response then [] else [.poison]
      else
        match response.validateForRequest request with
        | .error _ => uncertainTrace request
        | .ok () => []

def drainTrace (drained : Except Unit (List Invalidation)) : List Small :=
  match drained with
  | .error () => [.poison]
  | .ok invalidations => invalidations.map (fun invalidation => .apply invalidation true)

/-- What one adapter does: it drains, it calls, or it stores and forgets what it learned. -/
inductive Event where
  | drain (drained : Except Unit (List Invalidation))
  | call (request : RequestEnvelope) (requireHealthyCache : Bool)
      (reply : Except Unit ResponseEnvelope)
  | keep (small : Small)

def step (name : Text) (event : Event) (k : CacheKernel) : CacheKernel :=
  match event with
  | .drain drained => (drainRemoteInvalidations name drained k).2
  | .call request requireHealthyCache reply =>
    (callWithCachePolicy name request requireHealthyCache reply k).2
  | .keep small => smallStep name small k

def trace (name : Text) (event : Event) (k : CacheKernel) : List Small :=
  match event with
  | .drain drained => drainTrace drained
  | .call request requireHealthyCache reply => callTrace name request requireHealthyCache reply k
  | .keep small => [small]

theorem applySuccess_eq_apply (name : Text) (invalidation : Invalidation) (k : CacheKernel) :
    (k.applySuccessResponseInvalidation name invalidation).2 =
      (k.applyInvalidation name invalidation false).2 := by
  unfold applySuccessResponseInvalidation
  split <;> simp_all

theorem applyResponse_eq_run (name : Text) (invalidations : List Invalidation) (k : CacheKernel) :
    (applyResponse name invalidations k).2 =
      run (smallStep name) (responseTrace name invalidations k) k := by
  induction invalidations generalizing k with
  | nil => rfl
  | cons invalidation rest ih =>
    have hApply := applySuccess_eq_apply name invalidation k
    rw [applyResponse, responseTrace, run_cons, smallStep, ← hApply]
    rcases k.applySuccessResponseInvalidation name invalidation with ⟨_ | u, k'⟩
    · rfl
    · exact ih k'

theorem applyBatch_eq_run (name : Text) (invalidations : List Invalidation)
    (batchError : Option FuseError) (k : CacheKernel) :
    (applyBatch name invalidations batchError k).2 =
      run (smallStep name) (drainTrace (.ok invalidations)) k := by
  induction invalidations generalizing batchError k with
  | nil => rfl
  | cons invalidation rest ih =>
    simp only [drainTrace, List.map_cons, run_cons, smallStep] at ih ⊢
    unfold applyBatch
    split <;> rename_i k' hk <;> rw [ih, hk]

theorem drain_eq_run (name : Text) (drained : Except Unit (List Invalidation)) (k : CacheKernel) :
    (drainRemoteInvalidations name drained k).2 = run (smallStep name) (drainTrace drained) k := by
  cases drained with
  | error u => rfl
  | ok invalidations =>
    rw [← applyBatch_eq_run name invalidations none k]
    unfold drainRemoteInvalidations
    split
    · cases ‹Except.ok _ = Except.error _›
    · rename_i hEq
      cases hEq
      split <;> rename_i h <;> rw [h]

theorem run_uncertainTrace (name : Text) (request : RequestEnvelope) (k : CacheKernel) :
    run (smallStep name) (uncertainTrace request) k =
      k.poisonAfterUncertainPathMutation request := by
  unfold uncertainTrace poisonAfterUncertainPathMutation
  split <;> rfl

attribute [local simp] callWithCachePolicy callTrace

theorem call_eq_run (name : Text) (request : RequestEnvelope) (requireHealthyCache : Bool)
    (reply : Except Unit ResponseEnvelope) (k : CacheKernel) :
    (callWithCachePolicy name request requireHealthyCache reply k).2 =
      run (smallStep name) (callTrace name request requireHealthyCache reply k) k := by
  cases hRefuse : requireHealthyCache && k.cache.poisoned with
  | true => simp [hRefuse]
  | false =>
    cases reply with
    | error u => simp [hRefuse, run_uncertainTrace]
    | ok response =>
      cases hOk : response.ok with
      | false =>
        cases hv : response.validateForRequest request with
        | error e => simp [hRefuse, hOk, hv, run_uncertainTrace]
        | ok u => simp [hRefuse, hOk, hv]
      | true =>
        cases hv : response.validateIdentityAndPayloadForRequest request with
        | error e => simp [hRefuse, hOk, hv, run_uncertainTrace]
        | ok u =>
          have hRun := applyResponse_eq_run name response.invalidations k
          simp only [callWithCachePolicy, callTrace, hRefuse, hOk, hv, run_append, ← hRun,
            Bool.false_eq_true, if_false, if_true]
          rcases applyResponse name response.invalidations k with ⟨_ | u, k'⟩
          · rfl
          · simp only [requireCoveringPathInvalidation]
            cases isCovered request response <;> rfl

theorem step_eq_run (name : Text) (event : Event) (k : CacheKernel) :
    step name event k = run (smallStep name) (trace name event k) k := by
  cases event with
  | drain drained => exact drain_eq_run name drained k
  | call request requireHealthyCache reply =>
    exact call_eq_run name request requireHealthyCache reply k
  | keep small => rfl

/-- The small steps of a whole run. -/
def runTrace (name : Text) : List Event → CacheKernel → List Small
  | [], _ => []
  | event :: events, k => trace name event k ++ runTrace name events (step name event k)

theorem run_eq_run (name : Text) (events : List Event) (k : CacheKernel) :
    run (step name) events k = run (smallStep name) (runTrace name events k) k := by
  induction events generalizing k with
  | nil => rfl
  | cons event events ih =>
    rw [run_cons, runTrace, run_append, ← step_eq_run]
    exact ih _

/-! ## Outcomes that poison -/

/-- The outcome of a mutation is not known: no answer, or one that does not fit. -/
def Uncertain (request : RequestEnvelope) (reply : Except Unit ResponseEnvelope) : Prop :=
  request.payload.requiresPathInvalidation = true ∧
    match reply with
    | .error () => True
    | .ok response =>
      if response.ok then response.validateIdentityAndPayloadForRequest request ≠ .ok ()
      else response.validateForRequest request ≠ .ok ()

/-- The invalidation tells of the change that the request made. -/
def Covers (request : RequestEnvelope) (payload : ResponsePayload)
    (invalidation : Invalidation) : Prop :=
  invalidation.namespaceName = request.namespaceName ∧ invalidation.requestId = request.requestId ∧
    (invalidation.kind = fullResync.wireValue ∨
      ∃ kind, invalidationKindForRequest request.payload = some kind ∧
        invalidation.kind = kind.wireValue ∧
        match kind with
        | .rename => request.payload.pathForRole .source = some invalidation.oldPath ∧
            request.payload.pathForRole .target = some invalidation.newPath
        | .create => request.payload.primaryPath = some invalidation.path ∧
            payload.createdInode = some invalidation.inode
        | _ => request.payload.primaryPath = some invalidation.path)

/-- A mutation succeeded and nothing in its answer tells of the change. -/
def Uncovered (request : RequestEnvelope) (reply : Except Unit ResponseEnvelope) : Prop :=
  request.payload.requiresPathInvalidation = true ∧
    ∃ response payload, reply = .ok response ∧ response.ok = true ∧
      response.payload = some payload ∧
      response.validateIdentityAndPayloadForRequest request = .ok () ∧
      ∀ invalidation ∈ response.invalidations, ¬ Covers request payload invalidation

/-- The invalidation a request must be covered by, from the kind of its change. -/
theorem forRequestAndResponse_eq (request : RequestPayload) (response : ResponsePayload) :
    RequiredPathInvalidation.forRequestAndResponse request response =
      match invalidationKindForRequest request with
      | none => none
      | some .create => request.primaryPath.bind fun path =>
          response.createdInode.map (RequiredPathInvalidation.create path)
      | some .delete => request.primaryPath.map RequiredPathInvalidation.delete
      | some .rename => (request.pathForRole .source).bind fun oldPath =>
          (request.pathForRole .target).map (RequiredPathInvalidation.rename oldPath)
      | some kind => request.primaryPath.map fun path => .update path kind := by
  cases request with
  | openObject path flags kind =>
    cases path <;>
      simp only [RequiredPathInvalidation.forRequestAndResponse, invalidationKindForRequest] <;>
      split <;> rfl
  | rename oldPath newPath => cases oldPath <;> cases newPath <;> rfl
  | create path | unlink path | mkdir path | rmdir path | symlink path | write path | setattr path
  | setxattr path | removexattr path | fallocate path | copyFileRange _ _ _ path
  | hardlink _ path =>
    cases path <;> cases hc : response.createdInode <;>
      simp [RequiredPathInvalidation.forRequestAndResponse, invalidationKindForRequest,
        RequestPayload.truncates, RequestPayload.operation, Operation.effect,
        invalidationKindForEffect, RequestPayload.primaryPath, Operation.primaryPathRole,
        RequestPayload.pathForRole, hc]
  | _ => rfl

theorem covers_of_matches {required : RequiredPathInvalidation}
    (hRequired : RequiredPathInvalidation.forRequestAndResponse request.payload payload = some
      required) (hCovers : required.covers request invalidation = true) :
    Covers request payload invalidation := by
  simp only [RequiredPathInvalidation.covers, Bool.and_eq_true, beq_iff_eq] at hCovers
  obtain ⟨⟨hName, hId⟩, hMatch⟩ := hCovers
  refine ⟨hName, hId, ?_⟩
  cases hWire : ofWire invalidation.kind with
  | error e => simp [hWire] at hMatch
  | ok kind =>
    rw [hWire] at hMatch
    have hWireKind := ofWire_eq_ok.mp hWire
    by_cases hResync : kind = .fullResync
    · exact .inl (hResync ▸ hWireKind)
    rw [forRequestAndResponse_eq] at hRequired
    refine .inr ⟨kind, ?_⟩
    cases hKind : invalidationKindForRequest request.payload with
    | none => simp [hKind] at hRequired
    | some actual =>
      rw [hKind] at hRequired
      cases actual with
      | create =>
        simp only [Option.bind_eq_some_iff, Option.map_eq_some_iff] at hRequired
        obtain ⟨path, hPath, inode, hInode, rfl⟩ := hRequired
        cases kind <;> simp_all [RequiredPathInvalidation.matchesKind]
      | rename =>
        simp only [Option.bind_eq_some_iff, Option.map_eq_some_iff] at hRequired
        obtain ⟨oldPath, hOld, newPath, hNew, rfl⟩ := hRequired
        cases kind <;> simp_all [RequiredPathInvalidation.matchesKind]
      | modify | delete | metadata | xattr | fullResync =>
        simp only [Option.map_eq_some_iff] at hRequired
        obtain ⟨path, hPath, rfl⟩ := hRequired
        cases kind <;> simp_all [RequiredPathInvalidation.matchesKind]

/-- A checked mutation with a checked answer has an invalidation it must be covered by. -/
theorem exists_required {request : RequestPayload} (hRequest : request.validate = .ok ())
    (hPayload : payload.validateForRequest request = .ok ())
    (hRequires : request.requiresPathInvalidation = true) :
    ∃ required, RequiredPathInvalidation.forRequestAndResponse request payload = some required := by
  rw [requiresPathInvalidation_iff, Option.isSome_iff_exists] at hRequires
  obtain ⟨kind, hKind⟩ := hRequires
  rw [forRequestAndResponse_eq, hKind]
  by_cases hRename : kind = .rename
  · subst hRename
    obtain ⟨oldPath, newPath, rfl, -⟩ := renamePaths_valid hRequest hKind
    exact ⟨_, rfl⟩
  · obtain ⟨path, hPath, -⟩ := primaryPath_valid hRequest hKind hRename
    simp only [ResponsePayload.validateForRequest, check_bind_eq_ok, require_eq_ok,
      beq_iff_eq] at hPayload
    cases kind with
    | create =>
      have hEffect := effect_of_create hKind
      rw [← hPayload.1] at hEffect
      obtain ⟨inode, hInode⟩ := createdInode_of_valid hPayload.2.1 hEffect
      exact ⟨_, by rw [hPath, hInode]; rfl⟩
    | rename => exact absurd rfl hRename
    | modify | delete | metadata | xattr | fullResync => exact ⟨_, by rw [hPath]; rfl⟩

theorem not_isCovered {response : ResponseEnvelope} (hPayload : response.payload = some payload)
    (hValid : response.validateIdentityAndPayloadForRequest request = .ok ())
    (hRequires : request.payload.requiresPathInvalidation = true)
    (hNone : ∀ invalidation ∈ response.invalidations, ¬ Covers request payload invalidation) :
    isCovered request response = false := by
  simp only [ResponseEnvelope.validateIdentityAndPayloadForRequest, check_bind_eq_ok,
    hPayload] at hValid
  obtain ⟨required, hRequired⟩ := exists_required (check_bind_eq_ok.mp hValid.1).2
    hValid.2.2.2.2.2 hRequires
  simp only [isCovered, hPayload, hRequired]
  rw [List.any_eq_false]
  intro invalidation hMem hCovers
  exact hNone invalidation hMem (covers_of_matches hRequired hCovers)

theorem poisoned_of_applyChange (h : (k.applyChange kind invalidation).1 = .error e) :
    (k.applyChange kind invalidation).2.cache.poisoned = true := by
  cases kind with
  | rename =>
    simp only [applyChange] at h ⊢
    split
    · exact poison_poisoned _
    · rename_i hr
      rw [hr] at h
      cases h
  | _ => cases h

/-- An invalidation is refused with an error only when the cache is poisoned. -/
theorem poisoned_of_error (h : (k.applyInvalidation name invalidation baseline).1 = .error e) :
    (k.applyInvalidation name invalidation baseline).2.cache.poisoned = true := by
  unfold applyInvalidation at h ⊢
  split
  · exact poison_poisoned _
  · rename_i hEmpty
    rw [if_neg hEmpty] at h
    split
    · rename_i hName
      rw [if_pos hName] at h
      cases h
    · rename_i hName
      rw [if_neg hName] at h
      split
      · exact poison_poisoned _
      · rename_i hValid hKind
        obtain ⟨kind, hOk⟩ := ofWire_of_valid hValid
        rw [hKind] at hOk
        cases hOk
      · rename_i hValid hKind
        rw [hValid, hKind] at h
        cases h
      · rename_i kind hResync hValid hKind
        simp only [hValid, hKind] at h
        simp only [applySequenced] at h ⊢
        split
        · rename_i hNext
          rw [if_pos hNext] at h
          exact poisoned_of_applyChange h
        · rename_i hNext
          rw [if_neg hNext] at h
          split
          · exact poison_poisoned _
          · rename_i hRefuse
            rw [if_neg hRefuse] at h
            exact poisoned_of_applyChange h

theorem poisoned_of_applyResponse {invalidations : List Invalidation}
    (h : (applyResponse name invalidations k).1 = .error e) :
    (applyResponse name invalidations k).2.cache.poisoned = true := by
  induction invalidations generalizing k with
  | nil => cases h
  | cons invalidation rest ih =>
    unfold applyResponse at h ⊢
    split
    · rename_i k' hk
      rw [hk] at h
      exact ih h
    · rename_i e' k' hk
      have hState := applySuccess_eq_apply name invalidation k
      rw [hk] at hState
      have hError : ∃ e, (k.applyInvalidation name invalidation false).1 = .error e := by
        unfold applySuccessResponseInvalidation at hk
        split at hk
        · cases hk
        · cases hk
        · rename_i hApply
          exact ⟨_, by rw [hApply]⟩
      obtain ⟨e, hError⟩ := hError
      have hPoisoned := poisoned_of_error hError
      rw [← hState] at hPoisoned
      exact hPoisoned

theorem poisoned_of_uncertain (h : request.payload.requiresPathInvalidation = true) :
    (k.poisonAfterUncertainPathMutation request).cache.poisoned = true := by
  rw [poisonAfterUncertainPathMutation, if_pos h]
  exact poison_poisoned _

theorem poisoned_after_uncertain {requireHealthyCache : Bool} {reply : Except Unit ResponseEnvelope}
    (h : Uncertain request reply) :
    (callWithCachePolicy name request requireHealthyCache reply k).2.cache.poisoned = true := by
  obtain ⟨hRequires, hReply⟩ := h
  unfold callWithCachePolicy
  split
  · rename_i hRefuse
    exact (Bool.and_eq_true_iff.mp hRefuse).2
  · split
    · exact poisoned_of_uncertain hRequires
    · rename_i response
      simp only at hReply
      split
      · rename_i hOk
        rw [if_pos hOk] at hReply
        split
        · exact poisoned_of_uncertain hRequires
        · rename_i hValid
          exact absurd hValid hReply
      · rename_i hOk
        rw [if_neg hOk] at hReply
        split
        · exact poisoned_of_uncertain hRequires
        · rename_i hValid
          exact absurd hValid hReply

theorem poisoned_after_uncovered {requireHealthyCache : Bool} {reply : Except Unit ResponseEnvelope}
    (h : Uncovered request reply) :
    (callWithCachePolicy name request requireHealthyCache reply k).2.cache.poisoned = true := by
  obtain ⟨hRequires, response, payload, rfl, hOk, hPayload, hValid, hNone⟩ := h
  have hCovered := not_isCovered hPayload hValid hRequires hNone
  cases hRefuse : requireHealthyCache && k.cache.poisoned with
  | true =>
    simp only [callWithCachePolicy, hRefuse, if_true]
    exact (Bool.and_eq_true_iff.mp hRefuse).2
  | false =>
    simp only [callWithCachePolicy, hRefuse, hOk, hValid, Bool.false_eq_true, if_false, if_true]
    split
    · rename_i hResponse
      have hPoisoned := poisoned_of_applyResponse (k := k) (congrArg Prod.fst hResponse)
      rw [hResponse] at hPoisoned
      exact hPoisoned
    · simp only [requireCoveringPathInvalidation, hCovered, Bool.false_eq_true, if_false]
      exact poison_poisoned _

/-- The event leaves the client unsure of what the server holds. -/
def Doubtful (event : Event) : Prop :=
  match event with
  | .drain drained => drained = .error ()
  | .call request _ reply => Uncertain request reply ∨ Uncovered request reply
  | .keep _ => False

theorem poisoned_after_doubt {event : Event} (h : Doubtful event) :
    (step name event k).cache.poisoned = true := by
  cases event with
  | drain drained =>
    obtain rfl : drained = .error () := h
    exact poison_poisoned _
  | call request requireHealthyCache reply =>
    rcases h with h | h
    · exact poisoned_after_uncertain h
    · exact poisoned_after_uncovered h
  | keep small => exact h.elim

/-! ## Runs -/

/-- No path question is answered from the cache. -/
structure Unresolved (k : CacheKernel) : Prop where
  path : ∀ inode, k.cache.pathForInode inode = .error .staleCache
  parent : ∀ inode, k.cache.parentInode inode = .error .staleCache
  child : ∀ parent name, ∃ e, k.cache.childPath parent name = .error e
  handle : ∀ inode handle, k.openHandles.lookup (inode, handle) = none →
    k.pathForHandleBoundCall inode handle = .error .staleCache

theorem unresolved_of_poisoned (h : k.cache.poisoned = true) :
    Unresolved k := by
  have hPath : ∀ inode, k.cache.pathForInode inode = .error .staleCache := fun inode => by
    simp [pathForInode, h]
  refine ⟨hPath, fun inode => ?_, fun parent name => ?_, fun inode handle hNone => ?_⟩
  · rw [parentInode, hPath]
    rfl
  · rw [childPath, hPath]
    cases validateChildName name with
    | error e => exact ⟨e, rfl⟩
    | ok u => exact ⟨_, rfl⟩
  · simp [pathForHandleBoundCall, hNone, h]

/-- The small steps that are not invalidations keep the sequence number and the poison. -/
theorem smallStep_mark {small : Small}
    (h : ∀ invalidation baseline, small ≠ .apply invalidation baseline) :
    (smallStep name small k).cache.lastSequence = k.cache.lastSequence ∧
      (k.cache.poisoned = true → (smallStep name small k).cache.poisoned = true) := by
  cases small with
  | apply invalidation baseline => exact absurd rfl (h invalidation baseline)
  | poison => exact ⟨poison_lastSequence _, fun _ => poison_poisoned _⟩
  | insertLookup path inode count =>
    have hMark := sameMark_insertLookup path inode count k.cache
    exact ⟨hMark.2, hMark.1.trans⟩
  | forget inode nlookup =>
    have hMark := sameMark_forget inode nlookup k.cache
    exact ⟨hMark.2, hMark.1.trans⟩
  | rememberHandle inode handle path => exact ⟨rfl, id⟩
  | forgetHandle inode handle => exact ⟨rfl, id⟩

theorem bounded_smallStep (small : Small) (k : CacheKernel) (h : k.cache.lastSequence < 2 ^ 64)
    (hCount : Countable name small k) :
    (smallStep name small k).cache.lastSequence < 2 ^ 64 := by
  by_cases hApply : ∃ invalidation baseline, small = .apply invalidation baseline
  · obtain ⟨invalidation, baseline, rfl⟩ := hApply
    have hSequence := hCount.1
    have hMoves := (smallClosed_apply h hCount).moves
    rcases hMoves with hSame | ⟨hNext, hEq⟩ | ⟨-, hEq⟩ | ⟨-, -, hEq⟩
    · exact lt_of_eq_of_lt hSame h
    · exact lt_of_eq_of_lt (hNext.trans hEq.symm) hSequence
    · exact lt_of_eq_of_lt hEq hSequence
    · exact lt_of_eq_of_lt hEq hSequence
  · have hSame : (smallStep name small k).cache.lastSequence = k.cache.lastSequence :=
      (smallStep_mark (fun invalidation baseline hEq => hApply ⟨invalidation, baseline, hEq⟩)).1
    exact lt_of_eq_of_lt hSame h

theorem poisoned_run {smalls : List Small} (hBound : k.cache.lastSequence < 2 ^ 64)
    (h : k.cache.poisoned = true) (hCount : Runs.Along (smallStep name) (Countable name) smalls k)
    (hNone : ∀ invalidation baseline, Small.apply invalidation baseline ∈ smalls → ¬ IsResync name
      invalidation) :
    (run (smallStep name) smalls k).cache.poisoned = true := by
  induction smalls generalizing k with
  | nil => exact h
  | cons small smalls ih =>
    refine ih (bounded_smallStep small k hBound hCount.1) ?_ hCount.2
      (fun invalidation baseline hMem => hNone invalidation baseline (.tail _ hMem))
    by_cases hApply : ∃ invalidation baseline, small = .apply invalidation baseline
    · obtain ⟨invalidation, baseline, rfl⟩ := hApply
      exact (smallClosed_apply hBound hCount.1).stays h (hNone invalidation baseline (.head _))
    · exact (smallStep_mark
        (fun invalidation baseline hEq => hApply ⟨invalidation, baseline, hEq⟩)).2 h

/-- The cache fails closed at every step of every run in which no invalidation is compared
with the number after `2^64 - 1`. -/
theorem failsClosed_run (name : Text) (events : List Event)
    (hCount : Runs.Along (smallStep name) (Countable name) (runTrace name events new) new) :
    let smalls := runTrace name events new
    let after := fun smalls => run (smallStep name) smalls new
    run (step name) events new = after smalls ∧
      (∀ first invalidation baseline rest, smalls = first ++ .apply invalidation baseline :: rest →
        SmallClosed name invalidation baseline (after first)
          (after (first ++ [.apply invalidation baseline]))) ∧
      (∀ first small rest, smalls = first ++ small :: rest →
        (∀ invalidation baseline, small ≠ .apply invalidation baseline) →
        (after (first ++ [small])).cache.lastSequence = (after first).cache.lastSequence) ∧
      (∀ first between rest, smalls = first ++ between ++ rest →
        (after first).cache.poisoned = true →
        (∀ invalidation baseline, Small.apply invalidation baseline ∈ between →
          ¬ IsResync name invalidation) →
        Unresolved (after (first ++ between))) ∧
      ∀ first event rest, events = first ++ event :: rest → Doubtful event →
        (run (step name) (first ++ [event]) new).cache.poisoned = true := by
  intro smalls after
  have hBound : ∀ first rest, smalls = first ++ rest →
      (after first).cache.lastSequence < 2 ^ 64 ∧
        Runs.Along (smallStep name) (Countable name) rest (after first) := by
    intro first rest hEq
    have hSplit := hCount
    change Runs.Along _ _ smalls _ at hSplit
    rw [hEq, along_append] at hSplit
    have hZero : new.cache.lastSequence < 2 ^ 64 := Nat.two_pow_pos 64
    exact ⟨run_invariant bounded_smallStep hZero hSplit.1, hSplit.2⟩
  refine ⟨run_eq_run name events _, ?_, ?_, ?_, ?_⟩
  · intro first invalidation baseline rest hEq
    obtain ⟨hLast, hAlong⟩ := hBound first _ hEq
    simp only [after, run_append]
    exact smallClosed_apply hLast hAlong.1
  · intro first small rest hEq hSmall
    simp only [after, run_append]
    exact (smallStep_mark hSmall).1
  · intro first between rest hEq hPoisoned hNone
    obtain ⟨hLast, hAlong⟩ := hBound first (between ++ rest) (by rw [hEq, List.append_assoc])
    simp only [after, run_append]
    exact unresolved_of_poisoned (poisoned_run hLast hPoisoned (along_append.mp hAlong).1 hNone)
  · intro first event rest hEq hDoubt
    rw [run_append]
    exact poisoned_after_doubt hDoubt

/-- An invalidation of the namespace `n` about the path. -/
def sampleInvalidation (kind : InvalidationKind) (sequence : Nat) (path : Text) (inode : Nat) :
    Invalidation :=
  ⟨[110], sequence, kind.wireValue, path, [], [], inode, [1]⟩

/-- The number 2 is missing: the third change poisons the cache. -/
theorem failsClosed_run_gap :
    let first := sampleInvalidation .create 1 [slash, 97] 7
    let third := sampleInvalidation .create 3 [slash, 98] 8
    let after := fun smalls => run (smallStep [110]) smalls new
    (run (step [110]) [.drain (.ok [first, third])] new).cache.poisoned = true ∧
      SmallClosed [110] third true (after [.apply first true])
        (after [.apply first true, .apply third true]) := by
  intro first third after
  refine ⟨by decide +kernel, ?_⟩
  refine (failsClosed_run [110] [.drain (.ok [first, third])] ?_).2.1 [.apply first true] third
    true [] rfl
  refine ⟨⟨by decide, fun _ => by decide⟩, ⟨by decide, fun _ => ?_⟩, trivial⟩
  decide +kernel

/-- After the number `2^64 - 1` the next one is computed as 0, and a change with the number
0 is taken for the next while `/b` is cached. -/
theorem contiguous_after_wrap :
    let resync := sampleInvalidation .fullResync (2 ^ 64 - 1) [] 0
    let change := sampleInvalidation .create 0 [slash, 97] 7
    let k := run (step [110]) [.drain (.ok [resync]), .keep (.insertLookup [slash, 98] 5 1)] new
    let k' := step [110] (.drain (.ok [change])) k
    k.cache.lastSequence = 2 ^ 64 - 1 ∧ k.cache.pathToInode.lookup [slash, 98] = some 5 ∧
      k'.cache.lastSequence = 0 ∧ k'.cache.poisoned = false ∧
      k'.cache.representativePath 7 = some [slash, 97] := by
  decide +kernel

end FabricFs.Client
