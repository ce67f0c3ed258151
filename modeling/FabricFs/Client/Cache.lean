import Mathlib.Data.List.Sort
import FabricFs.Protocol.Messages

/-!
# The path cache of the client adapter

`fs-fuse/src/cache.rs`: which inode the client knows at which path, under which paths it
addresses its open handles, and how both follow the invalidations of the server. A
poisoned cache answers no path question until a full resync empties it.

The sequence numbers are 64 bits wide. `last_sequence + 1` is computed as a release build
computes it, where it wraps.
-/

namespace FabricFs.Client

open Lib Protocol

inductive FuseError where
  | protocol (error : ProtocolError)
  | invalidChildName
  | staleCache
  | transport
  | response (errno : Nat)
  | unexpectedPayload (operation : Operation)
  deriving DecidableEq, Repr

/-- `u64` addition of one in a release build. -/
def wrappingSucc (n : Nat) : Nat := (n + 1) % 2 ^ 64

/-! ## Sets of paths -/

/-- A `BTreeSet<String>`: the paths in increasing order. -/
abbrev PathSet : Type := List Text

def PathSet.insert (paths : PathSet) (path : Text) : PathSet :=
  if path ∈ paths then paths else paths.orderedInsert (· ≤ ·) path

theorem PathSet.mem_insert {paths : PathSet} {path q : Text} :
    q ∈ PathSet.insert paths path ↔ q = path ∨ q ∈ paths := by
  unfold PathSet.insert
  split
  · rename_i h
    constructor
    · exact .inr
    · rintro (rfl | hq)
      · exact h
      · exact hq
  · exact List.mem_orderedInsert _

/-! ## The cache -/

structure PathCache where
  pathToInode : Dict Text Nat
  inodeToPaths : Dict Nat PathSet
  lookupCounts : Dict Nat Nat
  poisoned : Bool
  lastSequence : Nat

namespace PathCache

/-- The caller keeps a set only while it has paths. -/
def detachInodePathForRename (inode : Nat) (path : Text) (c : PathCache) : PathCache :=
  match c.inodeToPaths.lookup inode with
  | none => c
  | some paths =>
    let paths := paths.filter (· != path)
    { c with inodeToPaths :=
        if paths.isEmpty then c.inodeToPaths.erase inode else c.inodeToPaths.insert inode paths }

/-- The last path of an inode takes its count with it. -/
def removeInodePath (inode : Nat) (path : Text) (c : PathCache) : PathCache :=
  match c.inodeToPaths.lookup inode with
  | none => { c with lookupCounts := c.lookupCounts.erase inode }
  | some paths =>
    let c' := c.detachInodePathForRename inode path
    if (paths.filter (· != path)).isEmpty then
      { c' with lookupCounts := c.lookupCounts.erase inode }
    else c'

/-- The two entries of one path. -/
def link (path : Text) (inode : Nat) (c : PathCache) : PathCache :=
  { c with
    pathToInode := c.pathToInode.insert path inode
    inodeToPaths :=
      c.inodeToPaths.insert inode (PathSet.insert ((c.inodeToPaths.lookup inode).getD []) path) }

def insert (path : Text) (inode : Nat) (c : PathCache) : PathCache :=
  if inode = 0 then c
  else
    match (c.pathToInode.lookup path).filter (· != inode) with
    | some oldInode => (c.removeInodePath oldInode path).link path inode
    | none => c.link path inode

def addLookup (inode count : Nat) (c : PathCache) : PathCache :=
  if inode = 0 ∨ inode = 1 ∨ count = 0 ∨ c.inodeToPaths.lookup inode = none then c
  else
    let current := (c.lookupCounts.lookup inode).getD 0
    { c with lookupCounts := c.lookupCounts.insert inode (min (current + count) (2 ^ 64 - 1)) }

def insertLookup (path : Text) (inode count : Nat) (c : PathCache) : PathCache :=
  (c.insert path inode).addLookup inode count

def removeInode (inode : Nat) (c : PathCache) : PathCache :=
  if inode = 1 then c
  else
    let paths := (c.inodeToPaths.lookup inode).getD []
    { c with
      inodeToPaths := c.inodeToPaths.erase inode
      pathToInode := c.pathToInode.retain (fun path => !paths.contains path)
      lookupCounts := c.lookupCounts.erase inode }

/-- The inode goes with its last reference; the root stays. -/
def forget (inode nlookup : Nat) (c : PathCache) : PathCache :=
  if inode = 1 ∨ nlookup = 0 then c
  else
    match c.lookupCounts.lookup inode with
    | none => c.removeInode inode
    | some count =>
      if nlookup < count then
        { c with lookupCounts := c.lookupCounts.insert inode (count - nlookup) }
      else { c with lookupCounts := c.lookupCounts.erase inode }.removeInode inode

/-- `path_is_in_subtree` of the cache: nothing is in the subtree of the empty path. -/
def pathIsInCachedSubtree (path root : Text) : Bool :=
  if root.isEmpty then false
  else
    path == root ||
      match stripPrefix root path with
      | some suffix => suffix.head? == some slash
      | none => false

def pathsInSubtree (path : Text) (c : PathCache) : List (Nat × Text) :=
  (c.pathToInode.entries.filter (fun e => pathIsInCachedSubtree e.1 path)).map
    (fun e => (e.2, e.1))

/-- One entry leaves both tables. -/
def unlinkEntry (c : PathCache) (entry : Nat × Text) : PathCache :=
  { c with pathToInode := c.pathToInode.erase entry.2 }.removeInodePath entry.1 entry.2

def removePath (path : Text) (c : PathCache) : PathCache :=
  if path = [] ∨ path = rootPath then c
  else (c.pathsInSubtree path).foldl unlinkEntry c

def removeSubtreeExcept (path : Text) (except : List (Nat × Text)) (c : PathCache) : PathCache :=
  ((c.pathsInSubtree path).filter (fun entry => !(except.map Prod.snd).contains entry.2)).foldl
    unlinkEntry c

/-- What follows the root of a subtree in one of its paths. -/
def subtreeSuffix (path root : Text) : Text := (stripPrefix root path).getD []

/-- The path to which a rename takes an entry. -/
def renamed (oldPath newPath path : Text) : Text := newPath ++ subtreeSuffix path oldPath

/-- One entry of a renamed subtree. -/
def moveEntry (oldPath newPath : Text) (c : PathCache) (entry : Nat × Text) : PathCache :=
  ({ c with pathToInode := c.pathToInode.erase entry.2 }.detachInodePathForRename
    entry.1 entry.2).link (renamed oldPath newPath entry.2) entry.1

def rename (oldPath newPath : Text) (c : PathCache) : Except ProtocolError Unit × PathCache :=
  match validateRenamePaths oldPath newPath with
  | .error e => (.error e, c)
  | .ok () =>
    let moved := c.pathsInSubtree oldPath
    (.ok (), moved.foldl (moveEntry oldPath newPath) (c.removeSubtreeExcept newPath moved))

/-- No entry but that of the root. -/
def cleared (c : PathCache) : PathCache :=
  { c with pathToInode := ∅, inodeToPaths := ∅, lookupCounts := ∅ }.insert rootPath 1

def poison (c : PathCache) : PathCache := { c with poisoned := true }.cleared

def resetWithSequence (sequence : Nat) (c : PathCache) : PathCache :=
  { c with poisoned := false, lastSequence := sequence }.cleared

def new : PathCache := PathCache.cleared ⟨∅, ∅, ∅, false, 0⟩

def canAcceptNoncontiguousSequence (c : PathCache) : Bool :=
  !c.poisoned && c.pathToInode.entries.length == 1 && c.pathToInode.lookup rootPath == some 1 &&
    c.inodeToPaths.entries.length == 1 && c.inodeToPaths.lookup 1 == some [rootPath] &&
    c.lookupCounts.entries.isEmpty

def representativePath (inode : Nat) (c : PathCache) : Option Text :=
  (c.inodeToPaths.lookup inode).bind List.head?

/-- An answer that the cache may lack. -/
def found {α : Type} : Option α → Except FuseError α
  | some a => .ok a
  | none => .error .staleCache

def pathForInode (inode : Nat) (c : PathCache) : Except FuseError Text :=
  if c.poisoned then .error .staleCache else found (c.representativePath inode)

def validateChildName (name : Text) : Except FuseError Unit :=
  require (!name.isEmpty && !name.contains slash && !name.contains 0) .invalidChildName

def joinChildPath (parentPath name : Text) : Text :=
  if parentPath = rootPath then slash :: name else parentPath ++ slash :: name

def childPath (parent : Nat) (name : Text) (c : PathCache) : Except FuseError Text := do
  validateChildName name
  let parentPath ← c.pathForInode parent
  pure (joinChildPath parentPath name)

/-- `parent_path`: everything before the last slash. -/
def parentPath (path : Text) : Text :=
  match (path.reverse.dropWhile (· != slash)).drop 1 with
  | [] => rootPath
  | reversed => reversed.reverse

def parentInodeForPath (path : Text) (c : PathCache) : Except FuseError Nat :=
  if c.poisoned then .error .staleCache
  else if path = rootPath then .ok 1
  else found (c.pathToInode.lookup (parentPath path))

def parentInode (inode : Nat) (c : PathCache) : Except FuseError Nat := do
  let path ← c.pathForInode inode
  c.parentInodeForPath path

end PathCache

/-! ## The cache and the open handles -/

/-- The key of an open handle: the inode it was opened at and its number. -/
abbrev OpenHandleKey : Type := Nat × Nat

structure CacheKernel where
  cache : PathCache
  openHandles : Dict OpenHandleKey Text

/-- The new path of something at the given path after a rename. -/
def renamePath (oldPath newPath path : Text) : Text :=
  if PathCache.pathIsInCachedSubtree path oldPath then PathCache.renamed oldPath newPath path
  else path

def renameHandlePaths (oldPath newPath : Text) (handles : Dict OpenHandleKey Text) :
    Dict OpenHandleKey Text :=
  handles.mapValues (renamePath oldPath newPath)

namespace CacheKernel

def new : CacheKernel := ⟨PathCache.new, ∅⟩

/-- The same handles with another cache. -/
def withCache (k : CacheKernel) (f : PathCache → PathCache) : CacheKernel :=
  { k with cache := f k.cache }

def poison (k : CacheKernel) : CacheKernel := k.withCache PathCache.poison

/-- The part of `apply_invalidation` after the sequence number has been accepted. -/
def applyChange (kind : InvalidationKind) (invalidation : Invalidation) (k : CacheKernel) :
    Except FuseError Bool × CacheKernel :=
  let accepted := fun k : CacheKernel =>
    k.withCache (fun c => { c with lastSequence := invalidation.sequence })
  match kind with
  | .create =>
    (.ok false, accepted (k.withCache (fun c =>
      if invalidation.inode = 0 then c.removePath invalidation.path
      else c.insert invalidation.path invalidation.inode)))
  | .delete => (.ok false, accepted (k.withCache (fun c => c.removePath invalidation.path)))
  | .rename =>
    match k.cache.rename invalidation.oldPath invalidation.newPath with
    | (.error e, c) => (.error (.protocol e), { k with cache := c.poison })
    | (.ok (), c) =>
      (.ok false, accepted ⟨c,
        renameHandlePaths invalidation.oldPath invalidation.newPath k.openHandles⟩)
  | .modify | .metadata | .xattr | .fullResync => (.ok false, accepted k)

/-- The open handles follow a rename even when its number is refused. -/
def followRename (kind : InvalidationKind) (invalidation : Invalidation) (k : CacheKernel) :
    CacheKernel :=
  { k with openHandles :=
      if kind = .rename then
        renameHandlePaths invalidation.oldPath invalidation.newPath k.openHandles
      else k.openHandles }

/-- The part of `apply_invalidation` for a checked invalidation of this namespace that is
not a full resync. -/
def applySequenced (kind : InvalidationKind) (invalidation : Invalidation)
    (allowEmptySequenceBaseline : Bool) (k : CacheKernel) :
    Except FuseError Bool × CacheKernel :=
  if invalidation.sequence = wrappingSucc k.cache.lastSequence then
    k.applyChange kind invalidation
  else
    let k := k.followRename kind invalidation
    if invalidation.sequence = 0 ∨ allowEmptySequenceBaseline = false ∨
        k.openHandles.entries ≠ [] ∨ k.cache.canAcceptNoncontiguousSequence = false then
      (.error .staleCache, k.poison)
    else
      (k.withCache (fun c => { c with lastSequence := invalidation.sequence - 1 })).applyChange
        kind invalidation

/-- The result tells whether a full resync was applied. -/
def applyInvalidation (name : Text) (invalidation : Invalidation)
    (allowEmptySequenceBaseline : Bool) (k : CacheKernel) :
    Except FuseError Bool × CacheKernel :=
  if invalidation.namespaceName.isEmpty then
    (.error (.protocol (.invalidEnvelope "invalidation namespace must not be empty")), k.poison)
  else if invalidation.namespaceName ≠ name then (.ok false, k)
  else
    match validateInvalidation invalidation, InvalidationKind.ofWire invalidation.kind with
    | .error e, _ => (.error (.protocol e), k.poison)
    | .ok (), .error e => (.error (.protocol e), k)
    | .ok (), .ok .fullResync =>
      (.ok true, k.withCache (PathCache.resetWithSequence invalidation.sequence))
    | .ok (), .ok kind => k.applySequenced kind invalidation allowEmptySequenceBaseline

def applySuccessResponseInvalidation (name : Text) (invalidation : Invalidation)
    (k : CacheKernel) : Except FuseError Unit × CacheKernel :=
  match k.applyInvalidation name invalidation false with
  | (.ok _, k) => (.ok (), k)
  | (.error .staleCache, k) => (.ok (), k)
  | (.error e, k) => (.error e, k)

/-- `path_for_handle_bound_call`. -/
def pathForHandleBoundCall (inode handle : Nat) (k : CacheKernel) : Except FuseError Text :=
  match k.openHandles.lookup (inode, handle) with
  | some path => .ok path
  | none =>
    if k.cache.poisoned then .error .staleCache
    else PathCache.found (k.cache.representativePath inode)

def rememberHandlePath (inode handle : Nat) (path : Text) (k : CacheKernel) : CacheKernel :=
  { k with openHandles := k.openHandles.insert (inode, handle) path }

def forgetHandlePath (inode handle : Nat) (k : CacheKernel) : CacheKernel :=
  { k with openHandles := k.openHandles.erase (inode, handle) }

end CacheKernel

/-! ## Covering invalidations -/

inductive RequiredPathInvalidation where
  | create (path : Text) (inode : Nat)
  | delete (path : Text)
  | rename (oldPath newPath : Text)
  | update (path : Text) (kind : InvalidationKind)
  deriving DecidableEq, Repr

namespace RequiredPathInvalidation

/-- The invalidation that the response to a successful change has to carry. -/
def forRequestAndResponse (request : RequestPayload) (response : ResponsePayload) :
    Option RequiredPathInvalidation :=
  match request with
  | .openObject .. =>
    if request.truncates then do
      pure (update (← request.primaryPath) .modify)
    else none
  | _ =>
    match request.operation.effect with
    | .createNode => do
      pure (create (← request.primaryPath) (← response.createdInode))
    | .deleteNode => do
      pure (delete (← request.primaryPath))
    | .renameNode => do
      pure (rename (← request.pathForRole .source) (← request.pathForRole .target))
    | effect => do
      let kind ← invalidationKindForEffect effect
      pure (update (← request.primaryPath) kind)

/-- An invalidation of this kind names the paths that are required; a full resync always does. -/
def matchesKind (required : RequiredPathInvalidation) (invalidation : Invalidation) :
    InvalidationKind → Bool
  | .fullResync => true
  | .create =>
    match required with
    | create path inode => invalidation.path == path && invalidation.inode == inode
    | update path kind => kind == .create && invalidation.path == path
    | _ => false
  | .delete =>
    match required with
    | delete path => invalidation.path == path
    | update path kind => kind == .delete && invalidation.path == path
    | _ => false
  | .rename =>
    match required with
    | rename oldPath newPath => invalidation.oldPath == oldPath && invalidation.newPath == newPath
    | update path kind => kind == .rename && invalidation.path == path
    | _ => false
  | actual =>
    match required with
    | update path kind => actual == kind && invalidation.path == path
    | _ => false

/-- `RequiredPathInvalidation::matches`. -/
def covers (required : RequiredPathInvalidation) (request : RequestEnvelope)
    (invalidation : Invalidation) : Bool :=
  invalidation.namespaceName == request.namespaceName &&
    invalidation.requestId == request.requestId &&
    match InvalidationKind.ofWire invalidation.kind with
    | .ok kind => required.matchesKind invalidation kind
    | .error _ => false

end RequiredPathInvalidation

namespace CacheKernel

/-- Whether the response holds what the request must be covered by. -/
def isCovered (request : RequestEnvelope) (response : ResponseEnvelope) : Bool :=
  match response.payload with
  | none => true
  | some payload =>
    match RequiredPathInvalidation.forRequestAndResponse request.payload payload with
    | none => true
    | some required => response.invalidations.any (required.covers request)

def requireCoveringPathInvalidation (request : RequestEnvelope) (response : ResponseEnvelope)
    (k : CacheKernel) : Except FuseError Unit × CacheKernel :=
  if isCovered request response then (.ok (), k) else (.error .staleCache, k.poison)

def poisonAfterUncertainPathMutation (request : RequestEnvelope) (k : CacheKernel) :
    CacheKernel :=
  if request.payload.requiresPathInvalidation then k.poison else k

end CacheKernel

/-! ## Drains and calls -/

/-- `drain_remote_invalidations`: the transport fails or hands over a batch. -/
def applyBatch (name : Text) : List Invalidation → Option FuseError → CacheKernel →
    Option FuseError × CacheKernel
  | [], batchError, k => (batchError, k)
  | invalidation :: rest, batchError, k =>
    match k.applyInvalidation name invalidation true with
    | (.ok true, k) => applyBatch name rest none k
    | (.ok false, k) => applyBatch name rest batchError k
    | (.error e, k) => applyBatch name rest (batchError.or (some e)) k

/-- A drain that fails poisons the cache. -/
def drainRemoteInvalidations (name : Text) (drained : Except Unit (List Invalidation))
    (k : CacheKernel) : Except FuseError Unit × CacheKernel :=
  match drained with
  | .error () => (.error .transport, k.poison)
  | .ok invalidations =>
    match applyBatch name invalidations none k with
    | (none, k) => (.ok (), k)
    | (some e, k) => (.error e, k)

/-- The invalidations of a successful response, up to the first that is refused. -/
def applyResponse (name : Text) : List Invalidation → CacheKernel →
    Except FuseError Unit × CacheKernel
  | [], k => (.ok (), k)
  | invalidation :: rest, k =>
    match k.applySuccessResponseInvalidation name invalidation with
    | (.ok (), k) => applyResponse name rest k
    | (.error e, k) => (.error e, k)

/-- `call_with_cache_policy` from the request on; `reply` is what the transport returns. -/
def callWithCachePolicy (name : Text) (request : RequestEnvelope) (requireHealthyCache : Bool)
    (reply : Except Unit ResponseEnvelope) (k : CacheKernel) :
    Except FuseError ResponseEnvelope × CacheKernel :=
  if requireHealthyCache && k.cache.poisoned then (.error .staleCache, k)
  else
    match reply with
    | .error () => (.error .transport, k.poisonAfterUncertainPathMutation request)
    | .ok response =>
      if response.ok then
        match response.validateIdentityAndPayloadForRequest request with
        | .error e => (.error (.protocol e), k.poisonAfterUncertainPathMutation request)
        | .ok () =>
          match applyResponse name response.invalidations k with
          | (.error e, k) => (.error e, k)
          | (.ok (), k) =>
            match k.requireCoveringPathInvalidation request response with
            | (.error e, k) => (.error e, k)
            | (.ok (), k) => (.ok response, k)
      else
        match response.validateForRequest request with
        | .error e => (.error (.protocol e), k.poisonAfterUncertainPathMutation request)
        | .ok () => (.error (.response (response.errno.getD 5)), k)

end FabricFs.Client
