import FabricFs.Overlay.NamespaceOps

/-!
# The requests of the overlay

`overlay/metadata_ops.rs`, `overlay/directory_ops.rs`, the operations of
`overlay/xattrs.rs` and `overlay/runtime_ops.rs`, and the type of all requests with their
execution. A request on a handle resolves its path without using the result, so the path
itself is all that matters there.
-/

namespace FabricFs.Overlay

open Lib Lib.Prog Server

/-! ## Metadata -/

def readlink (rel : Path) : Op Bytes := do
  let resolved ← resolveExisting rel
  readLink resolved

/-- The metadata of the object that the mount shows; a link is not followed. -/
def stat (rel : Path) : Op Meta := do
  let resolved ← resolveExisting rel
  symlinkMetadata resolved

/-- The size change of `setattr`, or the check alone. -/
def setSize (target : Loc) (change : Setattr) (ctx : FuseContext) : Op Unit :=
  match change.size with
  | some size => do
    let file ← openFile target true
    let info ← fileMetadata file
    ensureSetattrAllowed info ctx change
    setLen file size
  | none => do
    let info ← metadata target
    ensureSetattrAllowed info ctx change

def setattr (rel : Path) (change : Setattr) (ctx : Option FuseContext) : Op Meta := do
  let env ← ask
  let ctx ← requireContext ctx
  let current ← resolveExisting rel
  ensureNotSymlink current
  let currentMeta ← metadata current
  ensureSetattrAllowed currentMeta ctx change
  let target ← materializeForWrite rel
  ensure (!(change.permissions && permissionUpdatesBlocked env target)) .eacces
  setSize target change ctx
  ifSome change.mode (setPermissions target)
  onlyIf (change.uid.isSome || change.gid.isSome)
    (chown target (change.uid.getD u32Max) (change.gid.getD u32Max) true)
  symlinkMetadata target

/-- The numbers of `statvfs` are left out. -/
def statfs : Op Unit := do
  let env ← ask
  ensure (env.layout.cowRoot || env.layout.backingRoot) .enoent
  query (fun _ _ => .ok ())

/-! ## Directories -/

/-- The loops of `list_dir`: the entries of one host directory that are not hidden and not
among the names seen before. -/
def listEntries (rel : Path) (dir : Loc) (seen : List Name) : List Name → Op (List (Name × Meta))
  | [] => pure []
  | n :: names => do
    nextEntry
    let name := toStringLossy n
    if name ∈ seen then listEntries rel dir seen names
    else do
      let hidden ← probe (fun env w => isTombstoned env w.fs (rel ++ [name]))
      if hidden then listEntries rel dir seen names
      else do
        let info ← symlinkMetadata (childLoc dir n)
        let rest ← listEntries rel dir seen names
        pure ((name, info) :: rest)

def listSide (rel : Path) (dir : Option Loc) (seen : List Name) : Op (List (Name × Meta)) :=
  match dir with
  | none => pure []
  | some dir => do
    let names ← readDir dir
    listEntries rel dir seen names

def listDir (rel : Path) : Op (List (Name × Meta)) := do
  let view ← resolveDir rel
  let upper ← listSide rel view.overlay []
  let lower ← listSide rel view.backing (upper.map (·.1))
  pure (upper ++ lower)

/-! ## Extended attributes -/

def setxattr (rel : Path) (name value : Bytes) (flags : Nat) : Op Unit := do
  let env ← ask
  let target ← materializeForXattr rel
  ensure (!xattrUpdatesBlocked env target) .eacces
  if isAclName name then setXattr target name value flags true
  else do
    let key ← keyForPath target
    updateTable key (fun table =>
      (checkXattrFlags table name flags).map (fun _ => table.insert name value))

/-- ACLs are read from the object, other attributes from its table. Size 0 asks for the length. -/
def getxattr (rel : Path) (name : Bytes) (size : Nat) : Op Bytes := do
  let resolved ← resolveExisting rel
  if isAclName name then do
    let value ← getXattr resolved name true
    if size = 0 then pure (List.replicate value.length 0)
    else do
      ensure (decide (value.length ≤ size)) .erange
      pure value
  else do
    let key ← keyForPath resolved
    let table ← loadTable key
    match table.lookup name with
    | none => throw .enodata
    | some value =>
      if size = 0 then pure (List.replicate value.length 0)
      else do
        ensure (decide (value.length ≤ size)) .erange
        pure value

def listxattr (rel : Path) : Op (List Bytes) := do
  let resolved ← resolveExisting rel
  let names ← listXattrNames resolved true
  let key ← keyForPath resolved
  let table ← loadTable key
  pure (names.filter isAclName ++ table.keys)

def removexattr (rel : Path) (name : Bytes) : Op Unit := do
  let env ← ask
  let target ← materializeForXattr rel
  ensure (!xattrUpdatesBlocked env target) .eacces
  if isAclName name then removeXattr target name
  else do
    let key ← keyForPath target
    updateTable key (fun table =>
      if (table.lookup name).isSome then .ok (table.erase name) else .error .enodata)

/-! ## Files -/

def read (rel : Path) (offset size : Int) (ctx : Option FuseContext) : Op Bytes := do
  let ctx ← requireContext ctx
  let resolved ← resolveExisting rel
  readPath ⟨rel, resolved, false⟩ offset size ctx

def write (rel : Path) (offset : Int) (data : Bytes) (ctx : Option FuseContext) : Op Nat := do
  let ctx ← requireContext ctx
  let resolved ← resolveExisting rel
  ensureNotSymlink resolved
  let target ← prepareFileForWrite rel
  writePath ⟨rel, target, false⟩ offset data ctx

/-- The object that an `open` of a file works on. -/
def openFileTarget (rel : Path) (resolved : Loc) (info : Meta) (flags : Nat)
    (ctx : FuseContext) : Op Loc := do
  let env ← ask
  ensureRegularFile info
  let accessBits ← ensureOpenFlagsAllowed info ctx.uid ctx.gid flags
  if hasBit accessBits 0o2 then do
    ensureNotSymlink resolved
    if hasBit flags oTrunc && env.layout.cowRoot then do
      copyUpEmptyFileForTruncate rel
      clearTombstone rel
      pure ⟨.cow, rel⟩
    else prepareFileForWrite rel
  else pure resolved

def openOp (rel : Path) (kind : HandleKind) (flags : Nat) (ctx : Option FuseContext) :
    Op (Nat × Meta) := do
  let env ← ask
  let ctx ← requireContext ctx
  let resolved ← resolveExisting rel
  let info ← followedMetadata resolved
  ensureKind kind info
  let target ← (match kind with
    | .file => openFileTarget rel resolved info flags ctx
    | .dir => do
      ensureSearchAllowed info ctx.uid ctx.gid
      pure resolved)
  openExisting ⟨rel, target, permissionUpdatesBlocked env target⟩ kind flags ctx

def syncFile (rel : Path) : Op Unit := do
  let resolved ← resolveExisting rel
  let file ← openFile resolved false
  fsync file

/-! ## Requests -/

/-- All operations of the storage traits. -/
inductive Request where
  | readlink (path : Path)
  | stat (path : Path)
  | exists (path : Path)
  | statfs
  | setattr (path : Path) (change : Setattr) (ctx : Option FuseContext)
  | setxattr (path : Path) (name value : Bytes) (flags : Nat)
  | getxattr (path : Path) (name : Bytes) (size : Nat)
  | listxattr (path : Path)
  | removexattr (path : Path) (name : Bytes)
  | listDir (path : Path)
  | mkdir (path : Path) (mode : Nat) (ctx : Option FuseContext)
  | unlink (path : Path) (ctx : Option FuseContext)
  | rmdir (path : Path) (ctx : Option FuseContext)
  | rename (source target : Path) (ctx : Option FuseContext)
  | create (path : Path) (mode flags : Nat) (ctx : Option FuseContext)
  | mknod (path : Path) (mode : Nat) (ctx : Option FuseContext)
  | link (source target : Path) (ctx : Option FuseContext)
  | symlink (path : Path) (target : Bytes) (ctx : Option FuseContext)
  | openAt (path : Path) (kind : HandleKind) (flags : Nat) (ctx : Option FuseContext)
  | releaseFh (handle : Nat)
  | read (path : Path) (offset size : Int) (ctx : Option FuseContext)
  | readFh (path : Path) (handle : Nat) (offset size : Int) (ctx : Option FuseContext)
  | write (path : Path) (offset : Int) (data : Bytes) (ctx : Option FuseContext)
  | writeFh (path : Path) (handle : Nat) (offset : Int) (data : Bytes) (ctx : Option FuseContext)
  | setattrFh (path : Path) (handle : Nat) (change : Setattr) (ctx : Option FuseContext)
  | syncFile (path : Path)
  | syncFh (path : Path) (handle : Nat) (kind : HandleKind)
  | checkHandle (path : Path) (handle : Option Nat) (kind : HandleKind)
  | releasePosixLocks (path : Path) (handle owner : Nat)
  | getlk (path : Path) (handle owner : Nat) (first last : UInt64) (typ : Int)
  | setlk (path : Path) (handle owner : Nat) (first last : UInt64) (typ : Int) (pid : Nat)
  | flock (path : Path) (handle owner operation : Nat)
  | copyFileRange (input output : Path) (fhIn fhOut : Nat) (offsetIn offsetOut : Int)
      (len : Nat) (ctx : Option FuseContext)
  | fallocate (path : Path) (handle : Nat) (offset length : Int) (mode : Nat)
  | lseek (path : Path) (handle : Nat) (offset : Int) (whence : Nat)

/-- What a request returns. -/
inductive Response where
  | done
  | info (stat : Meta)
  | opened (handle : Nat) (stat : Meta)
  | bytes (data : Bytes)
  | number (value : Nat)
  | names (names : List Bytes)
  | listing (entries : List (Name × Meta))
  | conflict (lock : Option FileLock)

/-- The result of an operation as a response. -/
def respond {α : Type} (f : α → Response) (x : Op α) : Op Response := do
  let a ← x
  pure (f a)

/-- The method that a request calls, with its answer. -/
def exec : Request → Op Response
  | .readlink path => respond .bytes (readlink path)
  | .stat path => respond .info (stat path)
  | .exists path => respond (fun _ => .done) (resolveExisting path)
  | .statfs => respond (fun _ => .done) statfs
  | .setattr path change ctx => respond .info (setattr path change ctx)
  | .setxattr path name value flags => respond (fun _ => .done) (setxattr path name value flags)
  | .getxattr path name size => respond .bytes (getxattr path name size)
  | .listxattr path => respond .names (listxattr path)
  | .removexattr path name => respond (fun _ => .done) (removexattr path name)
  | .listDir path => respond .listing (listDir path)
  | .mkdir path mode ctx => respond (fun _ => .done) (mkdir path mode ctx)
  | .unlink path ctx => respond (fun _ => .done) (unlink path ctx)
  | .rmdir path ctx => respond (fun _ => .done) (rmdir path ctx)
  | .rename source target ctx => respond (fun _ => .done) (rename source target ctx)
  | .create path mode flags ctx =>
    respond (fun r => .opened r.1 r.2) (createFileOp path mode flags ctx)
  | .mknod path mode ctx => respond .info (mknod path mode ctx)
  | .link source target ctx => respond (fun _ => .done) (link source target ctx)
  | .symlink path target ctx => respond (fun _ => .done) (symlink path target ctx)
  | .openAt path kind flags ctx => respond (fun r => .opened r.1 r.2) (openOp path kind flags ctx)
  | .releaseFh handle => respond (fun _ => .done) (releaseHandle handle)
  | .read path offset size ctx => respond .bytes (read path offset size ctx)
  | .readFh path handle offset size ctx => respond .bytes (do
      let _ ← requireContext ctx
      readFh path handle offset size)
  | .write path offset data ctx => respond .number (write path offset data ctx)
  | .writeFh path handle offset data ctx => respond .number (do
      let _ ← requireContext ctx
      writeFh path handle offset data)
  | .setattrFh path handle change ctx => respond .info (do
      let ctx ← requireContext ctx
      setattrFh path handle change ctx)
  | .syncFile path => respond (fun _ => .done) (syncFile path)
  | .syncFh path handle kind => respond (fun _ => .done) (syncHandle path handle kind)
  | .checkHandle path handle kind => respond (fun _ => .done) (checkHandle path handle kind)
  | .releasePosixLocks path handle owner =>
    respond (fun _ => .done) (releasePosixLocks path handle owner)
  | .getlk path handle owner first last typ =>
    respond .conflict (getlk path handle owner first.toNat last.toNat typ)
  | .setlk path handle owner first last typ pid =>
    respond (fun _ => .done) (setlk path handle owner first.toNat last.toNat typ pid)
  | .flock path handle owner operation =>
    respond (fun _ => .done) (flock path handle owner operation)
  | .copyFileRange input output fhIn fhOut offsetIn offsetOut len ctx => respond .number (do
      let _ ← requireContext ctx
      copyFileRange input output fhIn fhOut offsetIn offsetOut len)
  | .fallocate path handle offset length mode =>
    respond (fun _ => .done) (fallocate path handle offset length mode)
  | .lseek path handle offset whence => respond .number (lseek path handle offset whence)

/-- The state after a request. A failed request keeps the changes made before it failed. -/
def step (env : Env) (request : Request) (w : World) : World := (exec request env w).2

end FabricFs.Overlay
