import FabricFs.Client.Handles
import FabricFs.Client.Rename

/-!
# The client cache against the server's namespace

The server is a map from paths to inodes that creations, deletions and renames change;
every change is kept in a log, and its place in the log is its sequence number. The
changes of other clients reach the adapter in order, with a drain; those of the adapter
itself are answered. The adapter stores the inodes that replies name, and a reply tells of
the server at some moment since the last drain, which may be later than the changes the
adapter has applied.

* `Change.track`: where the entry of a path ends up when a change is applied, for the
  cache (`lookup_applyChange_invalidation`) and for the server (`apply_track`) alike.
* `agrees_run`: in every run whose steps are all `Timely`, an adapter that is not poisoned
  and has applied every change has each cached path where the server has its inode, and
  `path_for_inode` returns a path at which the server has the inode.
* `reply_ahead_of_rename`: a reply that runs ahead of a queued rename leaves a wrong entry.
-/

namespace FabricFs.Client

open Lib Protocol PathCache CacheKernel List

/-! ## The server's namespace -/

/-- Which inode the server has at which path. -/
abbrev Namespace : Type := Text → Option Nat

/-- What the log of the server holds. Contents, attributes and full resyncs take sequence
numbers too and leave the namespace alone. -/
inductive Change where
  | create (path : Text) (inode : Nat)
  | delete (path : Text)
  | rename (oldPath newPath : Text)
  | update (path : Text)
  | resync
  deriving DecidableEq, Repr

namespace Change

/-- The change is one that a checked request can make. -/
def valid : Change → Bool
  | create path inode => validPath path && path != rootPath && inode != 0
  | delete path => validPath path && path != rootPath
  | rename oldPath newPath => decide (validateRenamePaths oldPath newPath = .ok ())
  | update path => validPath path
  | resync => true

def apply (change : Change) (ns : Namespace) : Namespace :=
  match change with
  | create path inode => fun q => if q = path then some inode else ns q
  | delete path => fun q => if pathIsInSubtree q path then none else ns q
  | rename oldPath newPath => fun q =>
    if pathIsInSubtree q newPath then ns (renamed newPath oldPath q)
    else if pathIsInSubtree q oldPath then none
    else ns q
  | update _ | resync => ns

def kind : Change → InvalidationKind
  | create .. => .create
  | delete _ => .delete
  | rename .. => .rename
  | update _ => .modify
  | resync => .fullResync

def invalidation (name : Text) (sequence : Nat) (change : Change) : Invalidation :=
  match change with
  | create path inode => ⟨name, sequence, change.kind.wireValue, path, [], [], inode, []⟩
  | delete path | update path => ⟨name, sequence, change.kind.wireValue, path, [], [], 0, []⟩
  | rename oldPath newPath => renameInvalidation name oldPath newPath sequence
  | resync => fullResyncInvalidation name [] sequence

/-- Where an entry at the path is after the change; a full resync drops all entries. -/
def track (change : Change) (p : Text) : Option Text :=
  match change with
  | create path _ => if p = path then none else some p
  | delete path => if pathIsInSubtree p path then none else some p
  | rename oldPath newPath =>
    if pathIsInSubtree p oldPath then some (renamed oldPath newPath p)
    else if pathIsInSubtree p newPath then none
    else some p
  | update _ => some p
  | resync => none

end Change

open Change

variable {change : Change} {ns : Namespace} {q : Text} {i : Nat} {log : List Change}
  {k : CacheKernel}

/-- The namespace after the changes of a log. -/
def namespaceAfter (initial : Namespace) (log : List Change) : Namespace :=
  log.foldl (fun ns change => change.apply ns) initial

/-- Where an entry at the path is after several changes. -/
def trackAll (log : List Change) (p : Text) : Option Text :=
  log.foldl (fun place change => place.bind change.track) (some p)

theorem namespaceAfter_append (initial : Namespace) (log rest : List Change) :
    namespaceAfter initial (log ++ rest) = namespaceAfter (namespaceAfter initial log) rest := by
  simp [namespaceAfter]

theorem foldl_track_none (log : List Change) :
    log.foldl (fun place change => place.bind change.track) (none : Option Text) = none := by
  induction log with
  | nil => rfl
  | cons change rest ih => exact ih

theorem foldl_track (log : List Change) (place : Option Text) :
    log.foldl (fun place change => place.bind change.track) place = place.bind (trackAll log) := by
  cases place with
  | none => exact foldl_track_none log
  | some p => rfl

theorem trackAll_cons (change : Change) (log : List Change) (p : Text) :
    trackAll (change :: log) p = (change.track p).bind (trackAll log) := by
  rw [trackAll, foldl_cons, foldl_track]
  rfl

theorem trackAll_append (log rest : List Change) (p : Text) :
    trackAll (log ++ rest) p = (trackAll log p).bind (trackAll rest) := by
  rw [trackAll, foldl_append, foldl_track]
  rfl

/-- The server moves its entries as a cache does. -/
theorem apply_track {p : Text} (hValid : change.valid = true) (hp : ns p = some i)
    (hTrack : change.track p = some q) :
    change.apply ns q = some i := by
  cases change with
  | create path inode =>
    simp only [track] at hTrack
    split at hTrack
    · cases hTrack
    · rename_i hNe
      cases hTrack
      simp only [apply, if_neg hNe, hp]
  | delete path =>
    simp only [track] at hTrack
    split at hTrack
    · cases hTrack
    · rename_i hOut
      cases hTrack
      simp only [apply, if_neg hOut, hp]
  | rename oldPath newPath =>
    simp only [track] at hTrack
    split at hTrack
    · rename_i hIn
      cases hTrack
      simp only [apply, if_pos (renamed_inSubtree _ hIn), renamed_renamed hIn, hp]
    · rename_i hOld
      split at hTrack
      · cases hTrack
      · rename_i hNew
        cases hTrack
        simp only [apply, if_neg hNew, if_neg hOld, hp]
  | update path =>
    cases hTrack
    exact hp
  | resync => cases hTrack

theorem namespaceAfter_track {p : Text} (hValid : ∀ change ∈ log, change.valid = true)
    (hp : ns p = some i) (hTrack : trackAll log p = some q) : namespaceAfter ns log q = some i := by
  induction log generalizing ns p with
  | nil =>
    cases hTrack
    exact hp
  | cons change rest ih =>
    rw [trackAll_cons, Option.bind_eq_some_iff] at hTrack
    obtain ⟨p', hFirst, hRest⟩ := hTrack
    exact ih (fun c hc => hValid c (.tail _ hc)) (apply_track (hValid change (.head _)) hp hFirst)
      hRest

theorem apply_root (hValid : change.valid = true) (hRoot : ns rootPath = some 1) :
    change.apply ns rootPath = some 1 := by
  cases change with
  | create path inode =>
    simp only [valid, Bool.and_eq_true, bne_iff_ne] at hValid
    simp only [apply, if_neg hValid.1.2.symm, hRoot]
  | delete path =>
    simp only [valid, Bool.and_eq_true, bne_iff_ne] at hValid
    simp only [apply, root_not_inSubtree hValid.1 hValid.2, hRoot]
    rfl
  | rename oldPath newPath =>
    obtain ⟨hOld, hNew, -⟩ := validateRenamePaths_eq_ok.mp (of_decide_eq_true hValid)
    simp only [apply, root_not_inSubtree hOld.1 hOld.2, root_not_inSubtree hNew.1 hNew.2, hRoot]
    rfl
  | update path => exact hRoot
  | resync => exact hRoot

theorem track_root (hValid : change.valid = true) (hTrack : change.track rootPath = some q) :
    q = rootPath := by
  cases change with
  | create path inode =>
    simp only [track] at hTrack
    split at hTrack <;> cases hTrack
    rfl
  | delete path =>
    simp only [track] at hTrack
    split at hTrack <;> cases hTrack
    rfl
  | rename oldPath newPath =>
    obtain ⟨hOld, hNew, -⟩ := validateRenamePaths_eq_ok.mp (of_decide_eq_true hValid)
    simp only [track, root_not_inSubtree hOld.1 hOld.2, root_not_inSubtree hNew.1 hNew.2] at hTrack
    cases hTrack
    rfl
  | update path =>
    cases hTrack
    rfl
  | resync => cases hTrack

theorem namespaceAfter_root (hValid : ∀ change ∈ log, change.valid = true)
    (hRoot : ns rootPath = some 1) :
    namespaceAfter ns log rootPath = some 1 := by
  induction log generalizing ns with
  | nil => exact hRoot
  | cons change rest ih =>
    exact ih (fun c hc => hValid c (.tail _ hc)) (apply_root (hValid change (.head _)) hRoot)

theorem trackAll_root (hValid : ∀ change ∈ log, change.valid = true)
    (hTrack : trackAll log rootPath = some q) :
    q = rootPath := by
  induction log with
  | nil =>
    cases hTrack
    rfl
  | cons change rest ih =>
    rw [trackAll_cons, Option.bind_eq_some_iff] at hTrack
    obtain ⟨p, hFirst, hRest⟩ := hTrack
    obtain rfl := track_root (hValid change (.head _)) hFirst
    exact ih (fun c hc => hValid c (.tail _ hc)) hRest

/-! ## A change in the cache -/

/-- A cached path after an accepted change is the one that was created, or comes from a
path that was cached before. -/
theorem lookup_applyChange_invalidation {name : Text} {sequence : Nat}
    (hValid : change.valid = true) (hSound : k.cache.Sound) (hResync : change ≠ .resync)
    (hLookup : (k.applyChange change.kind (change.invalidation name
      sequence)).2.cache.pathToInode.lookup q = some i) :
    change = .create q i ∨
      ∃ p, k.cache.pathToInode.lookup p = some i ∧ change.track p = some q := by
  cases change with
  | create path inode =>
    simp only [valid, Bool.and_eq_true, bne_iff_ne] at hValid
    have hInsert : (k.cache.insert path inode).pathToInode.lookup q = some i := by
      rw [← hLookup]
      simp [kind, applyChange, withCache, Change.invalidation, hValid.2]
    rcases lookup_insert hInsert with ⟨rfl, rfl⟩ | ⟨hNe, hOld⟩
    · exact .inl rfl
    · refine .inr ⟨q, hOld, ?_⟩
      rw [track, if_neg (hNe.resolve_left hValid.2)]
  | delete path =>
    simp only [valid, Bool.and_eq_true, bne_iff_ne] at hValid
    have hPath : ¬ (path = [] ∨ path = rootPath) :=
      not_or.mpr ⟨validPath_ne_nil hValid.1, hValid.2⟩
    obtain ⟨hOld, hOut⟩ := ((unlinked_removePath hSound hPath).entries q i).mp hLookup
    refine .inr ⟨q, hOld, ?_⟩
    simp [track, hOut]
  | rename oldPath newPath =>
    have hPaths : validateRenamePaths oldPath newPath = .ok () := of_decide_eq_true hValid
    have hMoved := moved_rename hSound hPaths
    have hOk := rename_ok (c := k.cache) hPaths
    simp only [kind, invalidation, renameInvalidation, applyChange] at hLookup
    rcases hr : k.cache.rename oldPath newPath with ⟨_ | u, c⟩
    · rw [hr] at hOk
      cases hOk
    · rw [hr] at hMoved hLookup
      rcases (hMoved.entries q i).mp hLookup with ⟨rest, hRest, rfl, hp⟩ | ⟨hq, hOld, hNew⟩
      · refine .inr ⟨oldPath ++ rest, hp, ?_⟩
        rw [track, if_pos (inSubtree_iff.mpr ⟨rest, hRest, rfl⟩), renamed_append]
      · exact .inr ⟨q, hq, by simp [track, hOld, hNew]⟩
  | update path => exact .inr ⟨q, hLookup, rfl⟩
  | resync => exact absurd rfl hResync

theorem sound_applyChange {kind : InvalidationKind} {invalidation : Invalidation}
    (h : k.cache.Sound)
    (hRename : kind = .rename → validateRenamePaths invalidation.oldPath invalidation.newPath = .ok
      ()) :
    (k.applyChange kind invalidation).2.cache.Sound := by
  have hSame : ∀ {c : PathCache} {n : Nat}, c.Sound → { c with lastSequence := n }.Sound :=
    fun hc => hc.of_tables rfl rfl hc.counted
  cases kind with
  | create =>
    simp only [applyChange, withCache]
    split
    · exact hSame (sound_removePath h _)
    · exact hSame (sound_insert h _ _)
  | delete => exact hSame (sound_removePath h _)
  | rename =>
    have hMoved := moved_rename h (hRename rfl)
    have hOk := rename_ok (c := k.cache) (hRename rfl)
    simp only [applyChange]
    rcases hr : k.cache.rename invalidation.oldPath invalidation.newPath with ⟨_ | u, c⟩
    · rw [hr] at hOk
      cases hOk
    · rw [hr] at hMoved
      exact hSame hMoved.sound
  | modify | metadata | xattr | fullResync => exact hSame h

theorem sound_applyInvalidation (name : Text) (invalidation : Invalidation) (baseline : Bool)
    (h : k.cache.Sound) :
    (k.applyInvalidation name invalidation baseline).2.cache.Sound := by
  rcases applyInvalidation_cases name invalidation baseline k with
    ⟨-, hk⟩ | ⟨-, -, hk⟩ | ⟨-, hk⟩ | ⟨hChange, kind, hKind, hk⟩
  · rw [hk]
    exact sound_cleared _
  · rwa [hk]
  · rw [hk]
    exact sound_cleared _
  · rw [hk]
    have hRename := hChange.renamePaths hKind
    simp only [applySequenced]
    split
    · exact sound_applyChange h hRename
    · split
      · exact sound_cleared _
      · exact sound_applyChange (h.of_tables rfl rfl h.counted) hRename

/-! ## The server, the network and the adapter -/

namespace Agreement

structure State where
  log : List Change
  /-- The sequence numbers of the broadcasts that are under way. -/
  queue : List Nat
  /-- The sequence numbers of own changes that have not been answered. -/
  unanswered : List Nat
  /-- How many changes the server had made at the adapter's last drain. -/
  drained : Nat
  client : CacheKernel

def start : State := ⟨[], [], [], 0, new⟩

inductive Act where
  | execute (own : Bool) (change : Change)
  | answer (sequence : Nat)
  | answerLost (sequence : Nat)
  | drain (count : Nat)
  | drainFailed
  | learn (path : Text) (moment : Nat)
  | forget (inode nlookup : Nat)
  | rememberHandle (inode handle : Nat) (path : Text)
  | forgetHandle (inode handle : Nat)

/-- The invalidation with the given number. -/
def State.broadcast (name : Text) (s : State) (sequence : Nat) : Invalidation :=
  ((s.log[sequence - 1]?).getD .resync).invalidation name sequence

/-- One step of the system. A reply that names an inode tells of the namespace after the
first `moment` changes. -/
def act (name : Text) (initial : Namespace) (a : Act) (s : State) : State :=
  match a with
  | .execute own change =>
    if change.valid then
      let sequence := s.log.length + 1
      { s with
        log := s.log ++ [change]
        queue := if own then s.queue else s.queue ++ [sequence]
        unanswered := if own then s.unanswered ++ [sequence] else s.unanswered }
    else s
  | .answer sequence =>
    if sequence ∈ s.unanswered then
      { s with
        unanswered := s.unanswered.erase sequence
        client := (s.client.applySuccessResponseInvalidation name (s.broadcast name sequence)).2 }
    else s
  | .answerLost sequence =>
    if sequence ∈ s.unanswered then
      { s with
        unanswered := s.unanswered.erase sequence
        queue := s.queue ++ [sequence]
        client := s.client.poison }
    else s
  | .drain count =>
    { s with
      queue := s.queue.drop count
      drained := s.log.length
      client := (drainRemoteInvalidations name
        (.ok ((s.queue.take count).map (s.broadcast name))) s.client).2 }
  | .drainFailed => { s with client := (drainRemoteInvalidations name (.error ()) s.client).2 }
  | .learn path moment =>
    if s.drained ≤ moment ∧ moment ≤ s.log.length then
      match namespaceAfter initial (s.log.take moment) path with
      | none => s
      | some inode => { s with client := s.client.withCache (insertLookup path inode 1) }
    else s
  | .forget inode nlookup =>
    { s with client := s.client.withCache (forget inode nlookup) }
  | .rememberHandle inode handle path =>
    { s with client := s.client.rememberHandlePath inode handle path }
  | .forgetHandle inode handle => { s with client := s.client.forgetHandlePath inode handle }

/-- The condition on one step. The sequence numbers have 64 bits. A stored reply that is
ahead of the adapter stays right under the changes in between, and one that is behind is
still right. -/
def Timely (initial : Namespace) (a : Act) (s : State) : Prop :=
  match a with
  | .execute .. => s.log.length + 1 < 2 ^ 64
  | .learn path moment =>
    let applied := s.client.cache.lastSequence
    s.client.cache.poisoned = false → ∀ inode,
      namespaceAfter initial (s.log.take moment) path = some inode →
      if applied ≤ moment then
        ∀ q, trackAll ((s.log.take moment).drop applied) path = some q →
          namespaceAfter initial (s.log.take moment) q = some inode
      else namespaceAfter initial (s.log.take applied) path = some inode
  | _ => True

/-! ## The invariant -/

/-- Every cached entry is right once the changes that the adapter has not applied have
moved it. -/
def Right (initial : Namespace) (log : List Change) (c : PathCache) : Prop :=
  ∀ p i, c.pathToInode.lookup p = some i → ∀ q, trackAll (log.drop c.lastSequence) p = some q →
    namespaceAfter initial log q = some i

structure Agrees (initial : Namespace) (s : State) : Prop where
  valid : ∀ change ∈ s.log, change.valid = true
  bounded : s.log.length < 2 ^ 64
  numbers : ∀ n, n ∈ s.queue ∨ n ∈ s.unanswered → 0 < n ∧ n ≤ s.log.length
  applied : s.client.cache.lastSequence ≤ s.log.length
  sound : s.client.cache.Sound
  right : s.client.cache.poisoned = false → Right initial s.log s.client.cache

variable {name : Text} {initial : Namespace}

variable {log : List Change} {c : PathCache} {change : Change} {s : State} {path : Text}

theorem right_of_root (hInitial : initial rootPath = some 1)
    (hValid : ∀ change ∈ log, change.valid = true)
    (hOnly : ∀ p i, c.pathToInode.lookup p = some i → p = rootPath ∧ i = 1) :
    Right initial log c := by
  intro p i hLookup q hTrack
  obtain ⟨rfl, rfl⟩ := hOnly p i hLookup
  have hDrop : ∀ change ∈ log.drop c.lastSequence, change.valid = true :=
    fun change hMem => hValid change (mem_of_mem_drop hMem)
  obtain rfl := trackAll_root hDrop hTrack
  exact namespaceAfter_root hValid hInitial

theorem root_of_canAccept {p : Text} {i : Nat} (h : c.canAcceptNoncontiguousSequence = true)
    (hp : c.pathToInode.lookup p = some i) :
    p = rootPath ∧ i = 1 := by
  have hBlank := blank_of_canAccept (k := ⟨c, ∅⟩) rfl h
  obtain rfl := hBlank.paths p i hp
  simp only [canAcceptNoncontiguousSequence, Bool.and_eq_true, beq_iff_eq] at h
  rw [h.1.1.1.2] at hp
  exact ⟨rfl, (Option.some.inj hp).symm⟩

theorem right_applyChange {k : CacheKernel} (hValid : ∀ change ∈ log, change.valid = true)
    (hSound : k.cache.Sound) (hRight : Right initial log k.cache)
    (hNext : log[k.cache.lastSequence]? = some change) (hResync : change ≠ .resync)
    (hLast : (k.applyChange change.kind (change.invalidation name (k.cache.lastSequence +
      1))).2.cache.lastSequence = k.cache.lastSequence + 1) :
    Right initial log (k.applyChange change.kind (change.invalidation name
      (k.cache.lastSequence + 1))).2.cache := by
  obtain ⟨hBound, hGet⟩ := List.getElem?_eq_some_iff.mp hNext
  have hDrop : log.drop k.cache.lastSequence =
      change :: log.drop (k.cache.lastSequence + 1) := by
    rw [← hGet, getElem_cons_drop]
  intro q i hLookup r hTrack
  rw [hLast] at hTrack
  rcases lookup_applyChange_invalidation (hValid change (mem_of_getElem? hNext)) hSound
    hResync hLookup with rfl | ⟨p, hp, hStep⟩
  · -- the created entry is right after its own change, and the server moves it on
    have hAfter : namespaceAfter initial log = namespaceAfter
        ((create q i).apply (namespaceAfter initial (log.take k.cache.lastSequence)))
        (log.drop (k.cache.lastSequence + 1)) := by
      conv_lhs => rw [← take_append_drop k.cache.lastSequence log, hDrop]
      rw [namespaceAfter_append]
      rfl
    rw [hAfter]
    refine namespaceAfter_track (fun c hc => hValid c (mem_of_mem_drop hc)) ?_ hTrack
    simp [apply]
  · refine hRight p i hp r ?_
    rw [hDrop, trackAll_cons, hStep]
    exact hTrack

/-- A change with a number of the log is applied, if it is the next one, or refused. -/
theorem right_applySequenced {k : CacheKernel} {sequence : Nat} (baseline : Bool)
    (hInitial : initial rootPath = some 1) (hValid : ∀ change ∈ log, change.valid = true)
    (hBounded : log.length < 2 ^ 64) (hApplied : k.cache.lastSequence ≤ log.length)
    (hSound : k.cache.Sound) (hRight : k.cache.poisoned = false → Right initial log k.cache)
    (hPos : 0 < sequence) (hLog : log[sequence - 1]? = some change) (hResync : change ≠ .resync) :
    let k' := (k.applySequenced change.kind (change.invalidation name sequence) baseline).2
    k'.cache.lastSequence ≤ log.length ∧
      (k'.cache.poisoned = false → Right initial log k'.cache) := by
  intro k'
  have hLe : sequence ≤ log.length := by
    have := (List.getElem?_eq_some_iff.mp hLog).1
    omega
  have hSequence : (change.invalidation name sequence).sequence = sequence := by
    cases change <;> rfl
  have hRename : change.kind = .rename →
      validateRenamePaths (change.invalidation name sequence).oldPath
        (change.invalidation name sequence).newPath = .ok () := by
    intro hKind
    have hOk := hValid change (mem_of_getElem? hLog)
    cases change <;> cases hKind
    exact of_decide_eq_true hOk
  have hNext : ∀ k₀ : CacheKernel, k₀.cache.lastSequence + 1 = sequence → k₀.cache.Sound →
      (k₀.cache.poisoned = false → Right initial log k₀.cache) →
      (k₀.applyChange change.kind (change.invalidation name sequence)).2.cache.lastSequence ≤
        log.length ∧
      ((k₀.applyChange change.kind (change.invalidation name sequence)).2.cache.poisoned = false →
        Right initial log
          (k₀.applyChange change.kind (change.invalidation name sequence)).2.cache) := by
    rintro k₀ rfl hSound₀ hRight₀
    obtain ⟨hLast, hPoisoned⟩ := applyChange_mark (k := k₀) hRename
    rw [hSequence] at hLast
    refine ⟨hLast.trans_le hLe, fun hHealthy => ?_⟩
    exact right_applyChange hValid hSound₀ (hRight₀ (hPoisoned.symm.trans hHealthy))
      (by simpa using hLog) hResync hLast
  simp only [k', applySequenced, hSequence]
  split
  · rename_i hSucc
    refine hNext k ?_ hSound hRight
    -- the number after `2^64 - 1` is 0, which no change of the log has
    by_cases hWrap : k.cache.lastSequence = 2 ^ 64 - 1
    · rw [hWrap] at hSucc
      exact absurd hSucc (by simpa [wrappingSucc] using hPos.ne')
    · rw [hSucc, wrappingSucc_eq (hApplied.trans_lt hBounded) hWrap]
  · split
    · refine ⟨(poison_lastSequence _).trans_le hApplied, fun hHealthy => ?_⟩
      have hPoisoned := poison_poisoned
        (k.followRename change.kind (change.invalidation name sequence)).cache
      rw [CacheKernel.poison, CacheKernel.withCache, hPoisoned] at hHealthy
      cases hHealthy
    · rename_i hAccept
      simp only [not_or, Bool.not_eq_false] at hAccept
      refine hNext _ (Nat.succ_pred_eq_of_pos hPos) (hSound.of_tables rfl rfl hSound.counted)
        fun _ => ?_
      exact right_of_root hInitial hValid fun p i hp => root_of_canAccept hAccept.2.2.2 hp

/-- The invalidation that carries a number of the log is applied, however it came. -/
theorem agrees_apply (name : Text) {sequence : Nat} (baseline : Bool)
    (hInitial : initial rootPath = some 1) (h : Agrees initial s) (hPos : 0 < sequence)
    (hLe : sequence ≤ s.log.length) :
    Agrees initial { s with
      client := (s.client.applyInvalidation name (s.broadcast name sequence) baseline).2 } := by
  have hSound := sound_applyInvalidation name (s.broadcast name sequence) baseline h.sound
  suffices hMain :
      (s.client.applyInvalidation name (s.broadcast name sequence) baseline).2.cache.lastSequence ≤
        s.log.length ∧
      ((s.client.applyInvalidation name (s.broadcast name sequence) baseline).2.cache.poisoned =
          false →
        Right initial s.log
          (s.client.applyInvalidation name (s.broadcast name sequence) baseline).2.cache) from
    ⟨h.valid, h.bounded, h.numbers, hMain.1, hSound, hMain.2⟩
  obtain ⟨change, hChange⟩ : ∃ change, s.log[sequence - 1]? = some change :=
    ⟨_, List.getElem?_eq_getElem (by omega)⟩
  have hBroadcast : s.broadcast name sequence = change.invalidation name sequence := by
    rw [State.broadcast, hChange]
    rfl
  have hSequence : (change.invalidation name sequence).sequence = sequence := by
    cases change <;> rfl
  have hKindOf : InvalidationKind.ofWire (change.invalidation name sequence).kind =
      .ok change.kind := by
    cases change <;> rfl
  rw [hBroadcast]
  rcases applyInvalidation_cases name (change.invalidation name sequence) baseline s.client with
    ⟨-, hk⟩ | ⟨-, -, hk⟩ | ⟨-, hk⟩ | ⟨hIsChange, kind, hKind, hk⟩
  · rw [hk]
    refine ⟨?_, fun hHealthy => ?_⟩
    · exact (poison_lastSequence _).trans_le h.applied
    · have hPoisoned : s.client.poison.cache.poisoned = true := poison_poisoned _
      rw [hPoisoned] at hHealthy
      cases hHealthy
  · rw [hk]
    exact ⟨h.applied, h.right⟩
  · rw [hk]
    refine ⟨?_, fun _ => right_of_root hInitial h.valid fun p i hp => lookup_cleared hp⟩
    exact (reset_lastSequence _ _).trans_le (hSequence.trans_le hLe)
  · rw [hk]
    rw [hKindOf] at hKind
    cases hKind
    refine right_applySequenced baseline hInitial h.valid h.bounded h.applied h.sound h.right
      hPos hChange ?_
    rintro rfl
    exact hIsChange.2.2.2 rfl

/-! ## Every step -/

theorem agrees_drain (name : Text) (numbers : List Nat) (hInitial : initial rootPath = some 1)
    (h : Agrees initial s) (hNumbers : ∀ n ∈ numbers, 0 < n ∧ n ≤ s.log.length) :
    Agrees initial { s with
      client := (drainRemoteInvalidations name (.ok (numbers.map (s.broadcast name)))
        s.client).2 } := by
  rw [drain_eq_run, drainTrace]
  induction numbers generalizing s with
  | nil => exact h
  | cons n rest ih =>
    obtain ⟨hPos, hLe⟩ := hNumbers n (.head _)
    have hNext := agrees_apply name true hInitial h hPos hLe
    exact ih hNext fun m hm => hNumbers m (.tail _ hm)

theorem agrees_poison (h : Agrees initial s) :
    Agrees initial { s with client := s.client.poison } := by
  refine ⟨h.valid, h.bounded, h.numbers, ?_, sound_cleared _, fun hHealthy => ?_⟩
  · exact (poison_lastSequence _).trans_le h.applied
  · have hPoisoned : s.client.poison.cache.poisoned = true := poison_poisoned _
    rw [hPoisoned] at hHealthy
    cases hHealthy

/-- An entry that fits when it is stored is right once the remaining changes have moved
it. -/
theorem entry_of_fits {applied moment inode : Nat} {q : Text}
    (hValid : ∀ change ∈ log, change.valid = true) (hMoment : moment ≤ log.length)
    (hFits : if applied ≤ moment then ∀ q, trackAll ((log.take moment).drop applied) path = some q
      → namespaceAfter initial (log.take moment) q = some inode else namespaceAfter initial
      (log.take applied) path = some inode) (hTrack : trackAll (log.drop applied) path = some q) :
    namespaceAfter initial log q = some inode := by
  have hSplit : ∀ n, namespaceAfter initial log =
      namespaceAfter (namespaceAfter initial (log.take n)) (log.drop n) := by
    intro n
    rw [← namespaceAfter_append, take_append_drop]
  have hDrop : ∀ n, ∀ change ∈ log.drop n, change.valid = true :=
    fun n change hMem => hValid change (mem_of_mem_drop hMem)
  split at hFits
  · rename_i hLe
    have hBetween : log.drop applied = (log.take moment).drop applied ++ log.drop moment := by
      conv_lhs => rw [← take_append_drop moment log]
      rw [drop_append_of_le_length]
      rwa [length_take_of_le hMoment]
    rw [hBetween, trackAll_append, Option.bind_eq_some_iff] at hTrack
    obtain ⟨q', hFirst, hRest⟩ := hTrack
    rw [hSplit moment]
    exact namespaceAfter_track (hDrop moment) (hFits q' hFirst) hRest
  · rw [hSplit applied]
    exact namespaceAfter_track (hDrop applied) hFits hTrack

theorem agrees_learn {moment : Nat} (h : Agrees initial s)
    (hTimely : Timely initial (.learn path moment) s) :
    Agrees initial (act name initial (.learn path moment) s) := by
  simp only [act]
  split
  · rename_i hMoment
    cases hReply : namespaceAfter initial (s.log.take moment) path with
    | none => exact h
    | some inode =>
      have hMark := sameMark_insertLookup path inode 1 s.client.cache
      dsimp only [withCache]
      refine ⟨h.valid, h.bounded, h.numbers, hMark.2.trans_le h.applied,
        sound_insertLookup h.sound path inode 1, fun hHealthy => ?_⟩
      have hOld : s.client.cache.poisoned = false := hMark.1.symm.trans hHealthy
      have hFits := hTimely hOld inode hReply
      intro p i hLookup q hTrack
      dsimp only at hTrack hLookup
      rw [hMark.2] at hTrack
      rw [insertLookup, (addLookup_tables _ _ _).1] at hLookup
      rcases lookup_insert hLookup with ⟨rfl, rfl⟩ | ⟨-, hBefore⟩
      · exact entry_of_fits h.valid hMoment.2 hFits hTrack
      · exact h.right hOld p i hBefore q hTrack
  · exact h

theorem agrees_execute {own : Bool} (h : Agrees initial s)
    (hTimely : Timely initial (.execute own change) s) :
    Agrees initial (act name initial (.execute own change) s) := by
  simp only [act]
  split
  · rename_i hOk
    refine ⟨?_, ?_, ?_, ?_, h.sound, ?_⟩
    · intro c hc
      rcases mem_append.mp hc with hc | hc
      · exact h.valid c hc
      · rwa [mem_singleton.mp hc]
    · rw [length_append]
      exact hTimely
    · have hOld : ∀ n, n ∈ s.queue ∨ n ∈ s.unanswered ∨ n = s.log.length + 1 →
          0 < n ∧ n ≤ (s.log ++ [change]).length := by
        rintro n (hn | hn | rfl)
        · have := h.numbers n (.inl hn)
          simp
          omega
        · have := h.numbers n (.inr hn)
          simp
          omega
        · simp
      cases own
      · rintro n (hn | hn)
        · rcases mem_append.mp hn with hn | hn
          · exact hOld n (.inl hn)
          · exact hOld n (.inr (.inr (mem_singleton.mp hn)))
        · exact hOld n (.inr (.inl hn))
      · rintro n (hn | hn)
        · exact hOld n (.inl hn)
        · rcases mem_append.mp hn with hn | hn
          · exact hOld n (.inr (.inl hn))
          · exact hOld n (.inr (.inr (mem_singleton.mp hn)))
    · exact h.applied.trans (by simp)
    · intro hHealthy p i hLookup q hTrack
      rw [drop_append_of_le_length h.applied, trackAll_append,
        Option.bind_eq_some_iff] at hTrack
      obtain ⟨q', hFirst, hLast⟩ := hTrack
      rw [namespaceAfter, foldl_append]
      refine apply_track hOk (h.right hHealthy p i hLookup q' hFirst) ?_
      simpa [trackAll] using hLast
  · exact h

theorem agrees_act (hInitial : initial rootPath = some 1) (a : Act) (h : Agrees initial s)
    (hTimely : Timely initial a s) :
    Agrees initial (act name initial a s) := by
  cases a with
  | execute own change => exact agrees_execute h hTimely
  | answer sequence =>
    simp only [act, applySuccess_eq_apply]
    split
    · rename_i hMem
      obtain ⟨hPos, hLe⟩ := h.numbers sequence (.inr hMem)
      have hApplied := agrees_apply name false hInitial h hPos hLe
      exact ⟨h.valid, h.bounded, fun n hn => h.numbers n (hn.imp id mem_of_mem_erase),
        hApplied.applied, hApplied.sound, hApplied.right⟩
    · exact h
  | answerLost sequence =>
    simp only [act]
    split
    · rename_i hMem
      have hPoisoned := agrees_poison h
      refine ⟨h.valid, h.bounded, ?_, hPoisoned.applied, hPoisoned.sound, hPoisoned.right⟩
      rintro n (hn | hn)
      · rcases mem_append.mp hn with hn | hn
        · exact h.numbers n (.inl hn)
        · exact h.numbers n (.inr (mem_singleton.mp hn ▸ hMem))
      · exact h.numbers n (.inr (mem_of_mem_erase hn))
    · exact h
  | drain count =>
    have hDrained := agrees_drain name (s.queue.take count) hInitial h
      fun n hn => h.numbers n (.inl (mem_of_mem_take hn))
    exact ⟨h.valid, h.bounded, fun n hn => h.numbers n (hn.imp mem_of_mem_drop id),
      hDrained.applied, hDrained.sound, hDrained.right⟩
  | drainFailed => exact agrees_poison h
  | learn path moment => exact agrees_learn h hTimely
  | forget inode nlookup =>
    have hMark := sameMark_forget inode nlookup s.client.cache
    refine ⟨h.valid, h.bounded, h.numbers, hMark.2.trans_le h.applied,
      sound_forget h.sound inode nlookup, fun hHealthy p i hLookup q hTrack => ?_⟩
    exact h.right (hMark.1.symm.trans hHealthy) p i (lookup_forget hLookup) q (hMark.2 ▸ hTrack)
  | rememberHandle inode handle path => exact ⟨h.valid, h.bounded, h.numbers, h.applied, h.sound,
      h.right⟩
  | forgetHandle inode handle => exact ⟨h.valid, h.bounded, h.numbers, h.applied, h.sound, h.right⟩

theorem agrees_start (hInitial : initial rootPath = some 1) : Agrees initial start where
  valid _ h := by cases h
  bounded := by decide
  numbers n h := by rcases h with h | h <;> cases h
  applied := (sameMark_cleared _).2.le
  sound := sound_cleared _
  right _ := right_of_root hInitial (fun _ h => by cases h) fun _ _ hp => lookup_cleared hp

/-! ## Whole runs -/

theorem lookup_of_pathForInode {inode : Nat} (h : c.Sound)
    (hPath : c.pathForInode inode = .ok path) : c.pathToInode.lookup path = some inode := by
  refine (h.entry path inode).mpr ?_
  unfold pathForInode at hPath
  split at hPath
  · cases hPath
  · rw [representativePath] at hPath
    rw [aliases]
    cases hSet : c.inodeToPaths.lookup inode with
    | none =>
      rw [hSet] at hPath
      cases hPath
    | some paths =>
      rw [hSet, Option.bind_some] at hPath
      cases paths with
      | nil => cases hPath
      | cons first rest =>
        cases hPath
        exact .head _

/-- An adapter that is not poisoned and has applied every change agrees with the server. -/
theorem agrees_run (name : Text) (initial : Namespace) (hInitial : initial rootPath = some 1)
    (acts : List Act) (hTimely : Runs.Along (act name initial) (Timely initial) acts start) :
    let s := Runs.run (act name initial) acts start
    s.client.cache.poisoned = false → s.client.cache.lastSequence = s.log.length →
      (∀ path inode, s.client.cache.pathToInode.lookup path = some inode →
        namespaceAfter initial s.log path = some inode) ∧
      ∀ inode path, s.client.cache.pathForInode inode = .ok path →
        namespaceAfter initial s.log path = some inode := by
  intro s hHealthy hApplied
  have hAgrees : Agrees initial s :=
    Runs.run_invariant (fun a _ h hT => agrees_act hInitial a h hT) (agrees_start hInitial) hTimely
  have hEntries : ∀ path inode, s.client.cache.pathToInode.lookup path = some inode →
      namespaceAfter initial s.log path = some inode := by
    intro path inode hLookup
    refine hAgrees.right hHealthy path inode hLookup path ?_
    rw [hApplied, drop_length]
    rfl
  exact ⟨hEntries, fun inode path hPath =>
    hEntries path inode (lookup_of_pathForInode hAgrees.sound hPath)⟩

/-! ## A reply ahead of a queued rename -/

/-- The server has the file 7 at `/a`. -/
def sampleNamespace : Namespace := fun path =>
  if path = rootPath then some 1 else if path = [slash, 97] then some 7 else none

/-- Another client renames `/a` to `/b` and creates a new file 9 at `/a`; the adapter looks
`/a` up before it drains the two changes, `moment` tells which of them the reply reflects. -/
def renamedAway (moment : Nat) : List Act :=
  [.execute false (.rename [slash, 97] [slash, 98]), .execute false (.create [slash, 97] 9),
    .learn [slash, 97] moment, .drain 2]

/-- The reply tells of the server as the adapter knows it. -/
theorem agrees_run_reply_in_time :
    let s := Runs.run (act [110] sampleNamespace) (renamedAway 0) start
    namespaceAfter sampleNamespace s.log [slash, 98] = some 7 ∧
      s.client.cache.pathToInode.lookup [slash, 98] = some 7 := by
  have hReply : ∀ s : State, s.client.cache.lastSequence = 0 →
      Timely sampleNamespace (.learn [slash, 97] 0) s := by
    intro s hZero _ inode hInode
    rw [hZero, if_pos le_rfl]
    intro q hTrack
    rw [take_zero, drop_nil] at hTrack
    cases hTrack
    exact hInode
  have h := agrees_run [110] sampleNamespace rfl (renamedAway 0)
    ⟨by simp only [Timely]; decide +kernel, by simp only [Timely]; decide +kernel,
      hReply _ (by decide +kernel), trivial, trivial⟩
    (by decide +kernel) (by decide +kernel)
  have hEntry : (Runs.run (act [110] sampleNamespace) (renamedAway 0)
      start).client.cache.pathToInode.lookup [slash, 98] = some 7 := by decide +kernel
  exact ⟨h.1 _ _ hEntry, hEntry⟩

/-- The reply already names the new file; the rename then takes that entry to `/b`. -/
theorem reply_ahead_of_rename :
    let s := Runs.run (act [110] sampleNamespace) (renamedAway 2) start
    s.client.cache.poisoned = false ∧ s.client.cache.lastSequence = s.log.length ∧
      s.client.cache.pathToInode.lookup [slash, 98] = some 9 ∧
      s.client.cache.pathForInode 9 = .ok [slash, 97] ∧
      namespaceAfter sampleNamespace s.log [slash, 98] = some 7 := by
  decide +kernel

end Agreement

end FabricFs.Client
