import FabricFs.Server.ByteIo
import FabricFs.Server.Permissions

/-!
# Open handles

`storage_runtime.rs`: the table of open handles and the operations on them. A handle
remembers the virtual path it was opened under, what it may be used for and the host
object that the open found. An operation on a handle names the path again and is refused
when it is not the one on record.
-/

namespace FabricFs.Server

open Lib Lib.Prog

/-- An object as the overlay has resolved it. The host path of a request on a handle is not
used, so it is absent there. -/
structure ResolvedObject where
  virtualPath : Path
  hostPath : Loc
  permissionUpdatesBlocked : Bool

/-- The state of the handle table before any handle was opened has `next = 0`. -/
def minHandleId : Nat := 1

/-! ## The table -/

/-- Handle numbers only grow, up to the largest 64-bit number. -/
def allocateHandle (path : Path) (kind : HandleKind) (accessBits : Nat) (blocked : Bool)
    (file : Option Node) : Op Nat := do
  let next ← state World.nextHandle
  let fh := max next minHandleId
  change (fun w => { w with
    nextHandle := min (fh + 1) u64Max
    handles := w.handles.insert fh ⟨path, kind, accessBits, 0, blocked, file⟩ })
  pure fh

def handleMatches (entry : HandleEntry) (path : Path) (expected : HandleKind) : Bool :=
  entry.path == path && entry.kind == expected

/-- The entry of a handle that is used under its own path and kind. -/
def matchingHandle (path : Path) (handle : Nat) (expected : HandleKind) : Op HandleEntry := do
  let found ← state (fun w => w.handles.lookup handle)
  match found with
  | none => throw .ebadf
  | some entry => do
    ensure (handleMatches entry path expected) .ebadf
    pure entry

def openFileOf (entry : HandleEntry) : Op Node :=
  match entry.file with
  | some file => pure file
  | none => throw .ebadf

/-- `try_clone` of the file of a handle that has all of the access bits. -/
def cloneFileHandleWithPolicy (path : Path) (handle requiredAccess : Nat) :
    Op (Node × Nat × Bool) := do
  let entry ← matchingHandle path handle .file
  ensure (entry.accessBits &&& requiredAccess == requiredAccess) .ebadf
  let file ← openFileOf entry
  query (fun _ _ => .ok (file, entry.accessBits, entry.permissionUpdatesBlocked))

def cloneFileHandle (path : Path) (handle requiredAccess : Nat) : Op Node := do
  let cloned ← cloneFileHandleWithPolicy path handle requiredAccess
  pure cloned.1

/-! ## Paths -/

def readPath (object : ResolvedObject) (offset size : Int) (ctx : FuseContext) : Op Bytes := do
  let env ← ask
  let file ← openFile object.hostPath false
  let info ← fileMetadata file
  ensureReadAllowed info ctx.uid ctx.gid
  readFileAt file offset size env.limits.validated

def writePath (object : ResolvedObject) (offset : Int) (data : Bytes) (ctx : FuseContext) :
    Op Nat := do
  let file ← openFile object.hostPath true
  let info ← fileMetadata file
  ensureWriteAllowed info ctx.uid ctx.gid
  writeFileAt file offset data

/-- The metadata of an object, of its target if it is a link. -/
def followedMetadata (loc : Loc) : Op Meta := do
  let linkMeta ← symlinkMetadata loc
  if linkMeta.kind = .symlink then metadata loc else pure linkMeta

/-- The kind of handle has to fit the object. -/
def ensureKind (kind : HandleKind) (info : Meta) : Op Unit :=
  match kind, info.kind == .dir with
  | .dir, false => throw .enotdir
  | .file, true => throw .eisdir
  | _, _ => pure ()

/-- Open by kind: the access bits of a file are checked, a directory must be searchable. -/
def openExisting (object : ResolvedObject) (kind : HandleKind) (flags : Nat)
    (ctx : FuseContext) : Op (Nat × Meta) := do
  let info ← followedMetadata object.hostPath
  ensureKind kind info
  match kind with
  | .file => do
    ensureRegularFile info
    let accessBits ← ensureOpenFlagsAllowed info ctx.uid ctx.gid flags
    let file ← openFile object.hostPath (hasBit accessBits 0o2)
    onlyIf (hasBit flags oTrunc) (setLen file 0)
    let stat ← fileMetadata file
    let fh ← allocateHandle object.virtualPath kind accessBits
      object.permissionUpdatesBlocked (some file)
    pure (fh, stat)
  | .dir => do
    ensureSearchAllowed info ctx.uid ctx.gid
    let file ← openFile object.hostPath false
    let fh ← allocateHandle object.virtualPath kind 0 object.permissionUpdatesBlocked (some file)
    pure (fh, info)

def registerFileHandle (object : ResolvedObject) (accessBits : Nat) (file : Node) :
    Op (Nat × Meta) := do
  let stat ← fileMetadata file
  let fh ← allocateHandle object.virtualPath .file accessBits object.permissionUpdatesBlocked
    (some file)
  pure (fh, stat)

/-! ## Handles -/

def readFh (path : Path) (handle : Nat) (offset size : Int) : Op Bytes := do
  let env ← ask
  let entry ← matchingHandle path handle .file
  ensure (hasBit entry.accessBits 0o4) .ebadf
  let file ← openFileOf entry
  readFileAt file offset size env.limits.validated

def writeFh (path : Path) (handle : Nat) (offset : Int) (data : Bytes) : Op Nat := do
  let entry ← matchingHandle path handle .file
  ensure (hasBit entry.accessBits 0o2) .ebadf
  let file ← openFileOf entry
  writeFileAt file offset data

def setattrFh (path : Path) (handle : Nat) (change : Setattr) (ctx : FuseContext) : Op Meta := do
  let required := if change.size.isSome then 0o2 else 0
  let (file, accessBits, blocked) ← cloneFileHandleWithPolicy path handle required
  ensure (!(change.permissions && blocked)) .eacces
  applyHandleSetattr file accessBits change ctx

def syncHandle (path : Path) (handle : Nat) (expected : HandleKind) : Op Unit := do
  let entry ← matchingHandle path handle expected
  let file ← openFileOf entry
  fsync file

def checkHandle (path : Path) (handle : Option Nat) (expected : HandleKind) : Op Unit :=
  match handle with
  | none => throw .einval
  | some handle => do
    let _ ← matchingHandle path handle expected

def releaseHandle (handle : Nat) : Op Unit :=
  change (fun w => { w with
    handles := w.handles.erase handle
    locks := LockTable.releaseHandle w.locks handle
    flocks := FlockTable.releaseHandle w.flocks handle })

/-- The path of a handle after a rename. -/
def rewritePath (oldPath newPath path : Path) : Path :=
  match stripPrefix oldPath path with
  | some suffix => newPath ++ suffix
  | none => path

/-- `rewrite_paths`. The keys of the lock tables are not paths, so the tables keep their
locks. -/
def rewritePaths (oldPath newPath : Path) : Op Unit :=
  change (fun w => { w with
    handles := Dict.mapValues (fun entry =>
      { entry with path := rewritePath oldPath newPath entry.path }) w.handles
    locks := LockTable.renamePath w.locks })

/-! ## Locks -/

def releasePosixLocks (path : Path) (handle owner : Nat) : Op Unit := do
  let file ← cloneFileHandle path handle 0
  let info ← fileMetadata file
  change (fun w => { w with locks := LockTable.releaseOwner w.locks info.ino owner })

def getlk (path : Path) (handle owner first last : Nat) (typ : Int) : Op (Option FileLock) := do
  let required ← result (lockRequiredAccess typ)
  let file ← cloneFileHandle path handle required
  let info ← fileMetadata file
  let locks ← state World.locks
  result (LockTable.getlk locks info.ino owner first last typ)

def setlk (path : Path) (handle owner first last : Nat) (typ : Int) (pid : Nat) : Op Unit := do
  let required ← result (lockRequiredAccess typ)
  let file ← cloneFileHandle path handle required
  let info ← fileMetadata file
  let locks ← state World.locks
  let locks ← result (LockTable.setlk locks info.ino handle owner first last typ pid)
  change (fun w => { w with locks := locks })

def flock (path : Path) (handle owner operation : Nat) : Op Unit := do
  let file ← cloneFileHandle path handle 0
  let info ← fileMetadata file
  let flocks ← state World.flocks
  let flocks ← result (FlockTable.flock flocks info.ino handle owner operation)
  change (fun w => { w with flocks := flocks })

/-! ## Bulk operations -/

def copyFileRange (input output : Path) (fhIn fhOut : Nat) (offsetIn offsetOut : Int)
    (len : Nat) : Op Nat := do
  let env ← ask
  ensure (decide (0 ≤ offsetIn) && decide (0 ≤ offsetOut)) .einval
  let src ← cloneFileHandle input fhIn 0o4
  let dst ← cloneFileHandle output fhOut 0o2
  copyFileRangeAt src dst offsetIn offsetOut len env.limits.validated

def fallocate (path : Path) (handle : Nat) (offset length : Int) (mode : Nat) : Op Unit := do
  ensureFallocateModeSupported mode
  let file ← cloneFileHandle path handle 0o2
  applyModeZeroFallocate file offset length

def lseek (path : Path) (handle : Nat) (offset : Int) (whence : Nat) : Op Nat := do
  let entry ← matchingHandle path handle .file
  let file ← openFileOf entry
  let info ← fileMetadata file
  let newOffset ← result (seekOffset entry.offset info.size offset whence)
  change (fun w => { w with
    handles := w.handles.insert handle { entry with offset := newOffset } })
  pure newOffset

end FabricFs.Server
