import FabricFs.Server.Paths
import FabricFs.Server.Runtime

/-!
# Open handles under the server's path

The server keeps the path of every open handle and rewrites it when a rename is executed
(`rewrite_paths`). The client keeps the path under which it addresses each handle it has
opened and rewrites it when the rename reaches it: as the answer to its own request, or
with a drained broadcast. The broadcasts of other clients wait in a queue, in order; the
own ones are not delivered again once they have been answered.

* `renamePath_eq`, `rewritePath_eq`: client and server rewrite a path `old ++ suffix` to
  `new ++ suffix` and leave the other paths alone.
* `follow`: what the queued renames will do to a path.
* `handlesAgree_run`: in every run whose steps are all `Orderly`, following the queue from
  the client's path of a handle leads to the server's path; with an empty queue the two
  are equal and the server's check accepts the client's path.
* `open_ahead_of_rename`: a file is opened under a name that a queued rename freed; the
  rename then takes the client's path of the new handle with it.
-/

namespace FabricFs.Client

open Lib Protocol CacheKernel InvalidationKind List Option Dict
open Server (descendantSuffix Part render)
open Segments (joined joined_append)

variable {name path oldPath newPath : Text} {invalidation : Invalidation} {s : System}
  {origin : Origin} {sequence : Nat}

/-! ## What a rename does to a path -/

/-- Where a rename takes a path: at or below the old path, what follows the old path comes
after the new one. -/
def movedPath (oldPath newPath path : Text) : Text :=
  if path = oldPath ∨ oldPath ++ [slash] <+: path then newPath ++ path.drop oldPath.length
  else path

/-- The body of the loop of `rewrite_paths`, for the path of one handle of the server. -/
def rewritePath (oldPath newPath path : Text) : Text :=
  if path = oldPath then newPath
  else
    match descendantSuffix path oldPath with
    | some suffix => newPath ++ suffix
    | none => path

theorem movedPath_append {rest : Text} (hRest : IsRest rest) :
    movedPath oldPath newPath (oldPath ++ rest) = newPath ++ rest := by
  rw [movedPath, if_pos, drop_left]
  rcases hRest with rfl | ⟨tail, rfl⟩
  · exact .inl (append_nil _)
  · exact .inr ⟨tail, by simp⟩

theorem movedPath_of_not (h : pathIsInSubtree path oldPath = false) :
    movedPath oldPath newPath path = path := by
  refine if_neg fun hBelow => absurd (pathIsInSubtree_iff.mpr ?_) (Bool.eq_false_iff.mp h)
  refine hBelow.imp_right fun ⟨tail, hTail⟩ => ⟨tail, ?_⟩
  rw [← hTail, append_assoc, singleton_append]

/-- The client rewrites its paths rightly. -/
theorem renamePath_eq (hOld : oldPath ≠ []) (newPath path : Text) :
    renamePath oldPath newPath path = movedPath oldPath newPath path := by
  rw [renamePath, inCachedSubtree hOld]
  split
  · rename_i hIn
    obtain ⟨rest, hRest, rfl⟩ := inSubtree_iff.mp hIn
    rw [renamed_append, movedPath_append hRest]
  · rename_i hOut
    exact (movedPath_of_not (Bool.eq_false_iff.mpr hOut)).symm

/-- The server does so too. -/
theorem rewritePath_eq (hOld : oldPath ≠ rootPath) (newPath path : Text) :
    rewritePath oldPath newPath path = movedPath oldPath newPath path := by
  by_cases hIn : pathIsInSubtree path oldPath = true
  · obtain ⟨rest, hRest, rfl⟩ := inSubtree_iff.mp hIn
    rw [movedPath_append hRest]
    rcases hRest with rfl | ⟨tail, rfl⟩
    · simp [rewritePath]
    · simp [rewritePath, descendantSuffix, hOld, stripPrefix_eq_some.mpr]
  · have hNot := mt pathIsInSubtree_iff.mpr hIn
    rw [movedPath_of_not (Bool.eq_false_iff.mpr hIn), rewritePath,
      if_neg fun hEq => hNot (.inl hEq), descendantSuffix, if_neg fun hEq => hNot (.inl hEq),
      if_neg hOld]
    cases hStrip : stripPrefix oldPath path with
    | none => rfl
    | some suffix =>
      have hPath := stripPrefix_eq_some.mp hStrip
      have hSlash : suffix.head? ≠ some slash := fun hHead =>
        hNot (.inr ⟨suffix.tail, by rw [hPath, cons_head?_tail hHead]⟩)
      simp [hSlash]

/-- On components this is what the runtime's model of `rewrite_paths` does. -/
theorem rewritePath_render {first next : Text} {old new ps : List Text}
    (hOld : ∀ p ∈ first :: old, Part p) (hPath : ∀ p ∈ ps, Part p) :
    rewritePath (render (first :: old)) (render (next :: new)) (render ps) =
      render (Server.rewritePath (first :: old) (next :: new) ps) := by
  rw [rewritePath_eq (Server.render_ne_root hOld), Server.rewritePath]
  cases hStrip : stripPrefix (first :: old) ps with
  | none =>
    refine movedPath_of_not (Bool.eq_false_iff.mpr fun hIn => ?_)
    obtain ⟨suffix, rfl⟩ := (Server.inSubtree_render_iff hOld hPath).mp hIn
    rw [stripPrefix_eq_some.mpr rfl] at hStrip
    cases hStrip
  | some suffix =>
    obtain rfl := stripPrefix_eq_some.mp hStrip
    have hRest : IsRest (joined slash suffix) := by
      cases suffix with
      | nil => exact .inl rfl
      | cons part rest => exact .inr ⟨_, rfl⟩
    have hMoved := @movedPath_append (render (first :: old)) (render (next :: new)) _ hRest
    simpa [render, joined_append] using hMoved

/-! ## What an invalidation does to the paths of handles -/

/-- The invalidation is a checked rename of this namespace. -/
def isRename (name : Text) (invalidation : Invalidation) : Bool :=
  invalidation.namespaceName == name && !name.isEmpty &&
    decide (validateInvalidation invalidation = .ok ()) &&
    invalidation.kind == rename.wireValue

/-- What the invalidation does to a path. -/
def followOne (name : Text) (path : Text) (invalidation : Invalidation) : Text :=
  if isRename name invalidation then
    movedPath invalidation.oldPath invalidation.newPath path
  else path

/-- What the queued invalidations will do to a path. -/
def follow (name : Text) (queue : List Invalidation) (path : Text) : Text :=
  queue.foldl (followOne name) path

theorem lookup_renameHandlePaths (oldPath newPath : Text) (handles : Dict OpenHandleKey Text)
    (key : OpenHandleKey) :
    (renameHandlePaths oldPath newPath handles).lookup key =
      (handles.lookup key).map (renamePath oldPath newPath) :=
  lookup_mapValues _ _ _

theorem isRename_iff :
    isRename name invalidation = true ↔
      IsChange name invalidation ∧ ofWire invalidation.kind = .ok .rename := by
  simp only [isRename, Bool.and_eq_true, beq_iff_eq, Bool.not_eq_true', isEmpty_eq_false_iff,
    decide_eq_true_eq, ofWire_eq_ok, IsChange]
  constructor
  · rintro ⟨⟨⟨hName, hNonempty⟩, hValid⟩, hKind⟩
    refine ⟨⟨hName, hNonempty, hValid, ?_⟩, hKind⟩
    rw [hKind]
    decide
  · rintro ⟨⟨hName, hNonempty, hValid, -⟩, hKind⟩
    exact ⟨⟨⟨hName, hNonempty⟩, hValid⟩, hKind⟩

theorem followOne_of_not
    (h : ¬ (IsChange name invalidation ∧ ofWire invalidation.kind = .ok .rename)) :
    followOne name path invalidation = path := by
  rw [followOne, if_neg (mt isRename_iff.mp h)]

theorem lookup_applyChange {kind : InvalidationKind} {k : CacheKernel} (key : OpenHandleKey)
    (hRename : kind = .rename → validateRenamePaths invalidation.oldPath invalidation.newPath = .ok
      ()) :
    (k.applyChange kind invalidation).2.openHandles.lookup key =
      (k.openHandles.lookup key).map (fun path =>
        if kind = .rename then renamePath invalidation.oldPath invalidation.newPath path
        else path) := by
  cases kind with
  | rename =>
    have hOk := rename_ok (c := k.cache) (hRename rfl)
    rcases hr : k.cache.rename invalidation.oldPath invalidation.newPath with ⟨_ | u, c⟩
    · rw [hr] at hOk
      cases hOk
    · simp only [applyChange, hr, withCache]
      exact lookup_renameHandlePaths _ _ _ _
  | _ => simp [applyChange, withCache]

/-- The handles follow a rename once, whether or not its number is accepted. -/
theorem lookup_applySequenced {kind : InvalidationKind} {baseline : Bool} {k : CacheKernel}
    (key : OpenHandleKey)
    (hRename : kind = .rename → validateRenamePaths invalidation.oldPath invalidation.newPath = .ok
      ()) :
    (k.applySequenced kind invalidation baseline).2.openHandles.lookup key =
      (k.openHandles.lookup key).map (fun path =>
        if kind = .rename then renamePath invalidation.oldPath invalidation.newPath path
        else path) := by
  have hFollow : (k.followRename kind invalidation).openHandles.lookup key =
      (k.openHandles.lookup key).map (fun path =>
        if kind = .rename then renamePath invalidation.oldPath invalidation.newPath path
        else path) := by
    simp only [followRename]
    split
    · exact lookup_renameHandlePaths _ _ _ _
    · simp
  simp only [applySequenced]
  split
  · exact lookup_applyChange key hRename
  · split
    · exact hFollow
    · rename_i hAccept
      -- a baseline is taken only without open handles, so the second rename finds none
      simp only [not_or, not_not] at hAccept
      have hNone : (k.followRename kind invalidation).openHandles.lookup key = none := by
        rw [AList.lookup, hAccept.2.2.1]
        rfl
      rw [lookup_applyChange key hRename]
      rw [hNone] at hFollow
      simp only [withCache, hNone, map_none]
      exact hFollow

theorem lookup_applyInvalidation (name : Text) (invalidation : Invalidation) (baseline : Bool)
    (k : CacheKernel) (key : OpenHandleKey) :
    (k.applyInvalidation name invalidation baseline).2.openHandles.lookup key =
      (k.openHandles.lookup key).map (fun path => followOne name path invalidation) := by
  rcases applyInvalidation_cases name invalidation baseline k with
    ⟨hBad, hk⟩ | ⟨-, hName, hk⟩ | ⟨hResync, hk⟩ | ⟨hChange, kind, hKind, hk⟩
  · have hNot : ∀ path, followOne name path invalidation = path := fun path =>
      followOne_of_not (fun h => by
        rcases hBad with hEmpty | ⟨-, hInvalid⟩
        · exact h.1.2.1 (h.1.1.symm.trans hEmpty)
        · exact hInvalid h.1.2.2.1)
    simp [hk, hNot, poison, withCache]
  · have hNot : ∀ path, followOne name path invalidation = path := fun path =>
      followOne_of_not (fun h => hName h.1.1)
    simp [hk, hNot]
  · have hNot : ∀ path, followOne name path invalidation = path := fun path =>
      followOne_of_not (fun h => h.1.2.2.2 hResync.2.2.2)
    simp [hk, hNot, withCache]
  · rw [hk, lookup_applySequenced key]
    · congr 1
      funext path
      by_cases hRename : kind = .rename
      · subst hRename
        have hOld := (validateRenamePaths_eq_ok.mp (hChange.renamePaths hKind rfl)).1.1
        rw [if_pos rfl, followOne, if_pos (isRename_iff.mpr ⟨hChange, hKind⟩),
          renamePath_eq (validPath_ne_nil hOld)]
      · rw [if_neg hRename, followOne_of_not]
        rintro ⟨-, hEq⟩
        rw [hKind] at hEq
        exact hRename (Except.ok.inj hEq)
    · rintro rfl
      exact renamePaths_of_valid hChange.2.2.1 hKind

/-! ## The server, the network and the client -/

/-- An open that the server has executed and the client has not yet taken note of. -/
structure PendingOpen where
  inode : Nat
  handle : Nat
  path : Text
  deriving DecidableEq, Repr

structure System where
  /-- The paths of the server's handle table. -/
  server : Dict Nat Text
  queue : List Invalidation
  pending : List PendingOpen
  client : CacheKernel

def System.new : System := ⟨∅, [], [], CacheKernel.new⟩

/-- Who made a change, and whether the answer to an own one arrived. -/
inductive Origin where
  | other | answered | lost
  deriving DecidableEq, Repr

/-- The steps of the system. A rename may be reported as a full resync when the dispatcher
recovers its numbers; any other change may be any invalidation that is not a rename. -/
inductive Act where
  | rename (origin : Origin) (oldPath newPath : Text) (sequence : Nat) (resync : Bool)
  | change (origin : Origin) (invalidation : Invalidation)
  | executeOpen (opened : PendingOpen)
  | finishOpen (opened : PendingOpen)
  | release (inode handle : Nat) (served : Bool)
  | drain (count : Nat)
  | drainFailed

/-- The invalidation of a rename in this namespace. -/
def renameInvalidation (name oldPath newPath : Text) (sequence : Nat) : Invalidation :=
  ⟨name, sequence, rename.wireValue, [], oldPath, newPath, 0, []⟩

/-- How the client hears of a change. -/
def report (name : Text) (origin : Origin) (invalidation : Invalidation) (s : System) : System :=
  match origin with
  | .other => { s with queue := s.queue ++ [invalidation] }
  | .answered =>
    { s with client := (s.client.applySuccessResponseInvalidation name invalidation).2 }
  | .lost => { s with queue := s.queue ++ [invalidation], client := s.client.poison }

/-- A step of the server or of the mount. A rename moves the server's handles and is reported. -/
def act (name : Text) (a : Act) (s : System) : System :=
  match a with
  | .rename origin oldPath newPath sequence resync =>
    if validateRenamePaths oldPath newPath = .ok () then
      report name origin
        (if resync then fullResyncInvalidation name [] sequence
          else renameInvalidation name oldPath newPath sequence)
        { s with server := s.server.mapValues (rewritePath oldPath newPath) }
    else s
  | .change origin invalidation =>
    if isRename name invalidation then s else report name origin invalidation s
  | .executeOpen opened =>
    if s.server.lookup opened.handle = none then
      { s with
        server := s.server.insert opened.handle opened.path
        pending := opened :: s.pending }
    else s
  | .finishOpen opened =>
    if opened ∈ s.pending then
      { s with
        pending := s.pending.erase opened
        client := s.client.rememberHandlePath opened.inode opened.handle opened.path }
    else s
  | .release inode handle served =>
    if s.client.openHandles.lookup (inode, handle) = none then s
    else
      { s with
        server := if served then s.server.erase handle else s.server
        client := s.client.forgetHandlePath inode handle }
  | .drain count =>
    { s with
      queue := s.queue.drop count
      client := (drainRemoteInvalidations name (.ok (s.queue.take count)) s.client).2 }
  | .drainFailed => { s with client := (drainRemoteInvalidations name (.error ()) s.client).2 }

/-- The path leaves the invalidations of the list alone, one after the other. -/
def Unmoved (name : Text) (invalidations : List Invalidation) (path : Text) : Prop :=
  ∀ invalidation ∈ invalidations, followOne name path invalidation = path

/-- The rename may be reported before what is queued. -/
def Commutes (name : Text) (queue : List Invalidation) (oldPath newPath path : Text) : Prop :=
  follow name queue (movedPath oldPath newPath path) =
    movedPath oldPath newPath (follow name queue path)

/-- The condition on one step. -/
def Orderly (name : Text) (a : Act) (s : System) : Prop :=
  match a with
  | .rename origin oldPath newPath _ resync =>
    validateRenamePaths oldPath newPath = .ok () →
      if resync then ∀ handle path, s.server.lookup handle = some path →
        movedPath oldPath newPath path = path
      else origin = .answered →
        (∀ key path, s.client.openHandles.lookup key = some path →
          Commutes name s.queue oldPath newPath path) ∧
        ∀ opened ∈ s.pending, movedPath oldPath newPath opened.path = opened.path ∧
          Commutes name s.queue oldPath newPath opened.path
  | .executeOpen opened => follow name s.queue opened.path = opened.path
  | .drain count => ∀ opened ∈ s.pending, Unmoved name (s.queue.take count) opened.path
  | _ => True

/-! ## The invariant -/

/-- Following the queue from the client's path of a handle leads to the server's path, and
a handle number belongs to one handle of the client. -/
structure HandlesAgree (name : Text) (s : System) : Prop where
  opened : ∀ inode handle path, s.client.openHandles.lookup (inode, handle) = some path →
    s.server.lookup handle = some (follow name s.queue path)
  pending : ∀ opened ∈ s.pending,
    s.server.lookup opened.handle = some (follow name s.queue opened.path)
  distinct : ∀ inode inode' handle path path',
    s.client.openHandles.lookup (inode, handle) = some path →
    s.client.openHandles.lookup (inode', handle) = some path' → inode = inode'
  fresh : ∀ opened ∈ s.pending, ∀ inode, s.client.openHandles.lookup (inode, opened.handle) = none
  pendingDistinct : s.pending.Pairwise (fun a b => a.handle ≠ b.handle)

theorem handlesAgree_new (name : Text) : HandlesAgree name System.new where
  opened _ _ _ h := by cases h
  pending _ h := by cases h
  distinct _ _ _ _ _ h := by cases h
  fresh _ h := by cases h
  pendingDistinct := .nil

theorem follow_concat (name : Text) (queue : List Invalidation) (invalidation : Invalidation)
    (path : Text) :
    follow name (queue ++ [invalidation]) path =
      followOne name (follow name queue path) invalidation := by
  simp [follow]

theorem follow_unmoved {invalidations : List Invalidation} (h : Unmoved name invalidations path) :
    follow name invalidations path = path := by
  induction invalidations with
  | nil => rfl
  | cons invalidation rest ih =>
    rw [follow, foldl_cons, h invalidation (.head _)]
    exact ih fun other hMem => h other (.tail _ hMem)

/-- The handles after a client has applied several invalidations. -/
theorem lookup_run_apply (name : Text) (baseline : Bool) (invalidations : List Invalidation)
    (k : CacheKernel) (key : OpenHandleKey) :
    (Runs.run (smallStep name) (invalidations.map (Small.apply · baseline))
      k).openHandles.lookup key = (k.openHandles.lookup key).map (follow name invalidations) := by
  induction invalidations generalizing k with
  | nil => exact (map_id' (x := k.openHandles.lookup key)).symm
  | cons invalidation rest ih =>
    rw [map_cons, Runs.run_cons, ih, smallStep, lookup_applyInvalidation, Option.map_map]
    rfl

theorem lookup_drain (name : Text) (invalidations : List Invalidation) (k : CacheKernel)
    (key : OpenHandleKey) :
    (drainRemoteInvalidations name (.ok invalidations) k).2.openHandles.lookup key =
      (k.openHandles.lookup key).map (follow name invalidations) := by
  rw [drain_eq_run]
  exact lookup_run_apply name true invalidations k key

/-- A change that the server has carried out on its table by `g` is reported. -/
theorem handlesAgree_report {server : Dict Nat Text} {g : Text → Text} (h : HandlesAgree name s)
    (hServer : ∀ handle, server.lookup handle = (s.server.lookup handle).map g)
    (hQueued : origin ≠ .answered → ∀ handle path, s.server.lookup handle = some path → followOne
      name path invalidation = g path)
    (hOpened : origin = .answered → ∀ key path, s.client.openHandles.lookup key = some path →
      follow name s.queue (followOne name path invalidation) = g (follow name s.queue path))
    (hPending : origin = .answered → ∀ opened ∈ s.pending, g (follow name s.queue opened.path) =
      follow name s.queue opened.path) :
    HandlesAgree name (report name origin invalidation { s with server := server }) := by
  cases origin with
  | other | lost =>
    refine ⟨?_, ?_, h.distinct, h.fresh, h.pendingDistinct⟩
    · intro inode handle path hLookup
      have hAgree := h.opened inode handle path hLookup
      simp only [report, hServer, hAgree, map_some, follow_concat]
      rw [hQueued (by simp) handle _ hAgree]
    · intro opened hMem
      have hAgree := h.pending opened hMem
      simp only [report, hServer, hAgree, map_some, follow_concat]
      rw [hQueued (by simp) opened.handle _ hAgree]
  | answered =>
    have hLookup : ∀ key, (s.client.applySuccessResponseInvalidation name
        invalidation).2.openHandles.lookup key =
        (s.client.openHandles.lookup key).map (fun path => followOne name path invalidation) := by
      intro key
      rw [applySuccess_eq_apply]
      exact lookup_applyInvalidation name invalidation false s.client key
    refine ⟨?_, ?_, ?_, ?_, h.pendingDistinct⟩
    · intro inode handle path hPath
      simp only [report, hLookup, map_eq_some_iff] at hPath
      obtain ⟨path, hPath, rfl⟩ := hPath
      simp only [report, hServer, h.opened inode handle path hPath, map_some]
      rw [hOpened rfl _ path hPath]
    · intro opened hMem
      simp only [report, hServer, h.pending opened hMem, map_some]
      rw [hPending rfl opened hMem]
    · intro inode inode' handle path path' hPath hPath'
      simp only [report, hLookup, map_eq_some_iff] at hPath hPath'
      obtain ⟨_, hPath, -⟩ := hPath
      obtain ⟨_, hPath', -⟩ := hPath'
      exact h.distinct inode inode' handle _ _ hPath hPath'
    · intro opened hMem inode
      simp only [report, hLookup, map_eq_none_iff]
      exact h.fresh opened hMem inode

theorem followOne_rename {oldPath newPath : Text} (hName : name ≠ [])
    (hPaths : validateRenamePaths oldPath newPath = .ok ()) (path : Text) :
    followOne name path (renameInvalidation name oldPath newPath sequence) =
      movedPath oldPath newPath path := by
  have hValid : validateInvalidation (renameInvalidation name oldPath newPath sequence) = .ok () :=
    validateInvalidation_rename hName rfl rfl hPaths
  rw [followOne, if_pos]
  · rfl
  · refine isRename_iff.mpr ⟨⟨rfl, hName, hValid, ?_⟩, rfl⟩
    change rename.wireValue ≠ fullResync.wireValue
    decide

theorem followOne_resync {requestId : Text} :
    followOne name path (fullResyncInvalidation name requestId sequence) = path :=
  followOne_of_not (fun h => h.1.2.2.2 rfl)

theorem handlesAgree_rename {oldPath newPath : Text} {resync : Bool} (hName : name ≠ [])
    (h : HandlesAgree name s)
    (hOrderly : Orderly name (.rename origin oldPath newPath sequence resync) s) :
    HandlesAgree name (act name (.rename origin oldPath newPath sequence resync) s) := by
  simp only [act]
  split
  · rename_i hPaths
    have hCondition := hOrderly hPaths
    have hServer : ∀ handle, (s.server.mapValues (rewritePath oldPath newPath)).lookup handle =
        (s.server.lookup handle).map (movedPath oldPath newPath) := by
      have hOld := (validateRenamePaths_eq_ok.mp hPaths).1.2
      rw [funext (rewritePath_eq hOld newPath)]
      exact lookup_mapValues _ _
    cases resync with
    | true =>
      simp only [if_true] at hCondition ⊢
      refine handlesAgree_report h hServer ?_ ?_ ?_
      · intro _ handle path hPath
        rw [followOne_resync, hCondition handle path hPath]
      · intro _ key path hPath
        rw [followOne_resync, hCondition key.2 _ (h.opened key.1 key.2 path hPath)]
      · intro _ opened hMem
        exact hCondition opened.handle _ (h.pending opened hMem)
    | false =>
      simp only [Bool.false_eq_true, if_false] at hCondition ⊢
      refine handlesAgree_report h hServer ?_ ?_ ?_
      · intro _ handle path _
        exact followOne_rename hName hPaths path
      · intro hAnswered key path hPath
        rw [followOne_rename hName hPaths]
        exact (hCondition hAnswered).1 key path hPath
      · intro hAnswered opened hMem
        obtain ⟨hStill, hCommutes⟩ := (hCondition hAnswered).2 opened hMem
        rw [Commutes, hStill] at hCommutes
        exact hCommutes.symm
  · exact h

theorem handlesAgree_change (h : HandlesAgree name s) :
    HandlesAgree name (act name (.change origin invalidation) s) := by
  simp only [act]
  split
  · exact h
  · rename_i hNot
    have hStill : ∀ path, followOne name path invalidation = path := fun path => if_neg hNot
    refine handlesAgree_report (g := id) h (fun _ => map_id.symm ▸ rfl) ?_ ?_ ?_
    · intro _ _ path _
      exact hStill path
    · intro _ _ path _
      rw [hStill]
      rfl
    · intro _ _ _
      rfl

theorem handlesAgree_executeOpen {opened : PendingOpen} (h : HandlesAgree name s)
    (hOrderly : Orderly name (.executeOpen opened) s) :
    HandlesAgree name (act name (.executeOpen opened) s) := by
  simp only [act]
  split
  · rename_i hFree
    have hOther : ∀ handle path, s.server.lookup handle = some path → handle ≠ opened.handle := by
      rintro handle path hPath rfl
      rw [hFree] at hPath
      cases hPath
    have hNone : ∀ inode, s.client.openHandles.lookup (inode, opened.handle) = none := by
      intro inode
      cases hLookup : s.client.openHandles.lookup (inode, opened.handle) with
      | none => rfl
      | some path => exact absurd rfl (hOther _ _ (h.opened inode opened.handle path hLookup))
    refine ⟨?_, ?_, h.distinct, ?_, ?_⟩
    · intro inode handle path hPath
      have hAgree := h.opened inode handle path hPath
      rw [lookup_insert_eq, if_neg (hOther _ _ hAgree)]
      exact hAgree
    · intro other hMem
      rcases mem_cons.mp hMem with rfl | hMem
      · rw [lookup_insert_eq, if_pos rfl, hOrderly]
      · have hAgree := h.pending other hMem
        rw [lookup_insert_eq, if_neg (hOther _ _ hAgree)]
        exact hAgree
    · intro other hMem inode
      rcases mem_cons.mp hMem with rfl | hMem
      · exact hNone inode
      · exact h.fresh other hMem inode
    · refine pairwise_cons.mpr ⟨fun other hMem hEq => ?_, h.pendingDistinct⟩
      exact hOther _ _ (h.pending other hMem) hEq.symm
  · exact h

theorem handlesAgree_finishOpen {opened : PendingOpen} (h : HandlesAgree name s) :
    HandlesAgree name (act name (.finishOpen opened) s) := by
  simp only [act]
  split
  · rename_i hMem
    have hErase : ∀ other ∈ s.pending.erase opened,
        other ∈ s.pending ∧ other.handle ≠ opened.handle := by
      intro other hOther
      have hNodup : s.pending.Nodup :=
        h.pendingDistinct.imp fun hNe hEq => hNe (congrArg PendingOpen.handle hEq)
      obtain ⟨hNe, hPending⟩ := hNodup.mem_erase_iff.mp hOther
      have : Std.Symm fun a b : PendingOpen => a.handle ≠ b.handle := ⟨fun _ _ => Ne.symm⟩
      exact ⟨hPending, h.pendingDistinct.forall hPending hMem hNe⟩
    have hLookup : ∀ inode handle, (s.client.rememberHandlePath opened.inode opened.handle
        opened.path).openHandles.lookup (inode, handle) =
        if (inode, handle) = (opened.inode, opened.handle) then some opened.path
        else s.client.openHandles.lookup (inode, handle) := fun _ _ =>
      lookup_insert_eq _ _ _ _
    refine ⟨?_, ?_, ?_, ?_, ?_⟩
    · intro inode handle path hPath
      rw [hLookup] at hPath
      split at hPath
      · rename_i hKey
        cases hPath
        cases hKey
        exact h.pending opened hMem
      · exact h.opened inode handle path hPath
    · intro other hOther
      exact h.pending other (hErase other hOther).1
    · intro inode inode' handle path path' hPath hPath'
      rw [hLookup] at hPath hPath'
      split at hPath
      · rename_i hKey
        cases hKey
        split at hPath'
        · rename_i hKey'
          cases hKey'
          rfl
        · rw [h.fresh opened hMem] at hPath'
          cases hPath'
      · split at hPath'
        · rename_i hKey'
          cases hKey'
          rw [h.fresh opened hMem] at hPath
          cases hPath
        · exact h.distinct inode inode' handle path path' hPath hPath'
    · intro other hOther inode
      obtain ⟨hPending, hNe⟩ := hErase other hOther
      rw [hLookup, if_neg (fun hKey => hNe (congrArg Prod.snd hKey))]
      exact h.fresh other hPending inode
    · exact h.pendingDistinct.sublist erase_sublist
  · exact h

theorem handlesAgree_release {inode handle : Nat} {served : Bool} (h : HandlesAgree name s) :
    HandlesAgree name (act name (.release inode handle served) s) := by
  simp only [act]
  split
  · exact h
  · rename_i hOpen
    obtain ⟨path, hPath⟩ := ne_none_iff_exists'.mp hOpen
    have hLookup : ∀ key, (s.client.forgetHandlePath inode handle).openHandles.lookup key =
        if key = (inode, handle) then none else s.client.openHandles.lookup key := fun _ =>
      lookup_erase_eq _ _ _
    have hServer : ∀ other, other ≠ handle →
        (if served then s.server.erase handle else s.server).lookup other =
          s.server.lookup other := by
      intro other hNe
      split
      · rw [lookup_erase_eq, if_neg hNe]
      · rfl
    refine ⟨?_, ?_, ?_, ?_, h.pendingDistinct⟩
    · intro inode' handle' path' hPath'
      rw [hLookup] at hPath'
      split at hPath'
      · cases hPath'
      · rename_i hKey
        rw [hServer handle' ?_]
        · exact h.opened inode' handle' path' hPath'
        · rintro rfl
          exact hKey (by rw [h.distinct inode' inode handle' path' path hPath' hPath])
    · intro other hMem
      rw [hServer other.handle ?_]
      · exact h.pending other hMem
      · intro hEq
        have hFresh := h.fresh other hMem inode
        rw [hEq, hPath] at hFresh
        cases hFresh
    · intro inode₁ inode₂ handle' path₁ path₂ h₁ h₂
      rw [hLookup] at h₁ h₂
      split at h₁
      · cases h₁
      · split at h₂
        · cases h₂
        · exact h.distinct inode₁ inode₂ handle' path₁ path₂ h₁ h₂
    · intro other hMem inode'
      rw [hLookup]
      split
      · rfl
      · exact h.fresh other hMem inode'

theorem handlesAgree_drain {count : Nat} (h : HandlesAgree name s)
    (hOrderly : Orderly name (.drain count) s) :
    HandlesAgree name (act name (.drain count) s) := by
  have hLookup := lookup_drain name (s.queue.take count) s.client
  have hQueue : ∀ path, follow name (s.queue.drop count) (follow name (s.queue.take count) path) =
      follow name s.queue path := fun path => by
    rw [follow, follow, ← foldl_append, take_append_drop, ← follow]
  refine ⟨?_, ?_, ?_, ?_, h.pendingDistinct⟩
  · intro inode handle path hPath
    simp only [act, hLookup, map_eq_some_iff] at hPath ⊢
    obtain ⟨path, hPath, rfl⟩ := hPath
    rw [hQueue]
    exact h.opened inode handle path hPath
  · intro opened hMem
    have hStill := follow_unmoved (hOrderly opened hMem)
    have hAgree := h.pending opened hMem
    rw [← hQueue, hStill] at hAgree
    exact hAgree
  · intro inode inode' handle path path' hPath hPath'
    simp only [act, hLookup, map_eq_some_iff] at hPath hPath'
    obtain ⟨_, hPath, -⟩ := hPath
    obtain ⟨_, hPath', -⟩ := hPath'
    exact h.distinct inode inode' handle _ _ hPath hPath'
  · intro opened hMem inode
    simp only [act, hLookup, map_eq_none_iff]
    exact h.fresh opened hMem inode

theorem handlesAgree_act (hName : name ≠ []) (a : Act) (s : System) (h : HandlesAgree name s)
    (hOrderly : Orderly name a s) : HandlesAgree name (act name a s) := by
  cases a with
  | rename origin oldPath newPath sequence resync => exact handlesAgree_rename hName h hOrderly
  | change origin invalidation => exact handlesAgree_change h
  | executeOpen opened => exact handlesAgree_executeOpen h hOrderly
  | finishOpen opened => exact handlesAgree_finishOpen h
  | release inode handle served => exact handlesAgree_release h
  | drain count => exact handlesAgree_drain h hOrderly
  | drainFailed => exact ⟨h.opened, h.pending, h.distinct, h.fresh, h.pendingDistinct⟩

/-- In every run of orderly steps, once the queue is drained, the client's path of each of
its open handles is the server's path. -/
theorem handlesAgree_run (name : Text) (hName : name ≠ []) (acts : List Act)
    (hOrderly : Runs.Along (act name) (Orderly name) acts System.new) :
    let s := Runs.run (act name) acts System.new
    s.queue = [] → ∀ inode handle path, s.client.openHandles.lookup (inode, handle) = some path →
      s.server.lookup handle = some path := by
  intro s hQueue inode handle path hPath
  have hAgree := Runs.run_invariant (handlesAgree_act hName) (handlesAgree_new name) hOrderly
  have hServer := hAgree.opened inode handle path hPath
  change s.server.lookup handle = some (follow name s.queue path) at hServer
  rw [hQueue] at hServer
  exact hServer

/-- An open file that another client renames. -/
theorem handlesAgree_run_renamed :
    let acts := [.executeOpen ⟨7, 1, [slash, 97]⟩, .finishOpen ⟨7, 1, [slash, 97]⟩,
      .rename .other [slash, 97] [slash, 98] 1 false, Act.drain 1]
    let s := Runs.run (act [110]) acts System.new
    s.client.openHandles.lookup (7, 1) = some [slash, 98] ∧
      s.server.lookup 1 = some [slash, 98] := by
  intro acts s
  have hClient : s.client.openHandles.lookup (7, 1) = some [slash, 98] := by decide +kernel
  refine ⟨hClient, handlesAgree_run [110] (by simp) acts ?_ (by decide +kernel) 7 1 _ hClient⟩
  refine ⟨rfl, trivial, fun _ hOrigin => absurd hOrigin (by decide), ?_, trivial⟩
  exact fun opened hMem => absurd hMem (not_mem_nil)

/-- Another client renames `/a` to `/b` and creates a new `/a`. Before it hears of that,
the client opens `/a`; the queued rename then takes the path of the new handle to `/b`,
while the server has the handle at `/a`. -/
theorem open_ahead_of_rename :
    let acts := [.rename .other [slash, 97] [slash, 98] 1 false,
      .change .other (sampleInvalidation .create 2 [slash, 97] 9),
      .executeOpen ⟨7, 1, [slash, 97]⟩, .finishOpen ⟨7, 1, [slash, 97]⟩, Act.drain 2]
    let s := Runs.run (act [110]) acts System.new
    s.queue = [] ∧ s.client.openHandles.lookup (7, 1) = some [slash, 98] ∧
      s.server.lookup 1 = some [slash, 97] := by
  decide +kernel

end FabricFs.Client
