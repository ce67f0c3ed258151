import FabricFs.Overlay.CopyUp

/-!
# Operations on names

`overlay/namespace_ops.rs`: `mkdir`, `unlink`, `rmdir`, `rename`, `create`, `mknod`,
`link` and `symlink`.
-/

namespace FabricFs.Overlay

open Lib Lib.Prog Server

/-- The two gates of every operation that changes names. -/
def ensureMutable : Op Unit := do
  ensureWritable
  ensureBackingMutable

/-- The name must be free in both trees, and a tombstone of it goes. -/
def mkdir (rel : Path) (mode : Nat) (ctx : Option FuseContext) : Op Unit := do
  let env ← ask
  let ctx ← requireContext ctx
  ensureMutable
  let parentMeta ← parentMetadata rel
  ensureDirCreationAllowed parentMeta ctx.uid ctx.gid
  ensureUnionEntryAbsent rel
  let target ← targetFileForWrite rel
  clearTombstone rel
  createDir target
  setPermissions target (applyUmask env mode)
  applyOwnership target ctx.uid ctx.gid true

/-- Remove the copy of a file, with the attributes of its last name. -/
def removeOverlayFile (rel : Path) (info : Meta) : Op Unit := do
  let present ← nodeExists ⟨.cow, rel⟩
  onlyIf present (do
    removeFile ⟨.cow, rel⟩
    purgeIfLastLink info)

/-- The copy goes and a tombstone hides the backing file; without an overlay the file goes. -/
def unlink (rel : Path) (ctx : Option FuseContext) : Op Unit := do
  let env ← ask
  let ctx ← requireContext ctx
  ensureMutable
  let resolved ← resolveExisting rel
  let info ← symlinkMetadata resolved
  ensure (info.kind != .dir) .eisdir
  let parentMeta ← parentMetadata rel
  ensureRemovalAllowed parentMeta info ctx.uid ctx.gid
  ensureStickyAllowed parentMeta info ctx.uid
  if env.layout.cowRoot then do
    removeOverlayFile rel info
    markTombstone rel
  else do
    removeFile resolved
    purgeIfLastLink info

/-- As `unlink`, for a directory that shows no entries. -/
def rmdir (rel : Path) (ctx : Option FuseContext) : Op Unit := do
  let env ← ask
  let ctx ← requireContext ctx
  ensureMutable
  let empty ← dirIsEmpty rel
  ensure empty .enotempty
  let parentMeta ← parentMetadata rel
  let resolved ← resolveExisting rel
  let info ← symlinkMetadata resolved
  ensureRemovalAllowed parentMeta info ctx.uid ctx.gid
  ensureStickyAllowed parentMeta info ctx.uid
  if env.layout.cowRoot then do
    let present ← nodeExists ⟨.cow, rel⟩
    onlyIf present (removeDir ⟨.cow, rel⟩)
    markTombstone rel
  else removeDir resolved

/-- Make room for a renamed object: an empty directory or any other object goes away. -/
def replaceTarget (dst : Loc) : Op Unit := do
  let present ← nodeExists dst
  onlyIf present (do
    let info ← symlinkMetadata dst
    if info.kind = .dir then do
      let names ← readDir dst
      ensure (names == []) .enotempty
      removeDir dst
      purgeIfLastLink info
    else do
      removeFile dst
      purgeIfLastLink info)

/-- The metadata of the object that a rename replaces, if it can be had. -/
def destMetadata (rel : Path) : Op (Option Meta) := do
  let found ← probe (fun env w => resolve env w.fs rel)
  match found with
  | none => pure none
  | some loc => tryCatch (do
      let info ← symlinkMetadata loc
      pure (some info)) (fun _ => pure none)

/-- The checks of `rename`. -/
def checkRename (fromRel toRel : Path) (ctx : FuseContext) : Op Unit := do
  let src ← resolveExisting fromRel
  let srcMeta ← symlinkMetadata src
  let fromParentMeta ← parentMetadata fromRel
  ensureRemovalAllowed fromParentMeta srcMeta ctx.uid ctx.gid
  let toParentMeta ← parentMetadata toRel
  ensureDirCreationAllowed toParentMeta ctx.uid ctx.gid
  let destMeta ← destMetadata toRel
  ensureStickyAllowed toParentMeta (destMeta.getD srcMeta) ctx.uid

/-- The move of one object of a tree over another. -/
def moveOver (src dst : Loc) (beforeMove : Op Unit) : Op Unit := do
  let present ← nodeExists src
  ensure present .enoent
  createDirAll dst.parent
  replaceTarget dst
  beforeMove
  renameNode src dst

/-- The tree is copied up, moved over the target and hidden at its old name. -/
def rename (fromRel toRel : Path) (ctx : Option FuseContext) : Op Unit := do
  let env ← ask
  let ctx ← requireContext ctx
  ensureMutable
  checkRename fromRel toRel ctx
  (if env.layout.cowRoot then do
    copyUpTree fromRel
    moveOver ⟨.cow, fromRel⟩ ⟨.cow, toRel⟩ (clearTombstone toRel)
    markTombstone fromRel
  else do
    ensure env.layout.backingRoot .erofs
    moveOver ⟨.backing, fromRel⟩ ⟨.backing, toRel⟩ (pure ()))
  rewritePaths fromRel toRel

/-! ## Creation -/

/-- The checks of `create` on what the path stands for: an existing file has to admit the
open, a new one needs a directory that may be written. -/
def checkCreate (rel : Path) (existing : Option Loc) (flags : Nat) (ctx : FuseContext) :
    Op Unit :=
  match existing with
  | some loc => do
    let parentMeta ← metadata loc.parent
    ensureSearchAllowed parentMeta ctx.uid ctx.gid
    ensure (!hasBit flags oExcl) .eexist
    ensureNotSymlink loc
    let info ← metadata loc
    ensureRegularFile info
    let _ ← ensureOpenFlagsAllowed info ctx.uid ctx.gid flags
  | none => do
    let parentMeta ← parentMetadata rel
    ensureDirCreationAllowed parentMeta ctx.uid ctx.gid

/-- The checks of `create` on the object at the target that the path does not show. -/
def checkTarget (targetMeta : Option Meta) (checked : Bool) (flags : Nat) (ctx : FuseContext) :
    Op Unit :=
  ifSome targetMeta (fun info => do
    ensure (info.kind != .symlink) .eloop
    onlyIf (!checked) (do
      ensureRegularFile info
      let _ ← ensureOpenFlagsAllowed info ctx.uid ctx.gid flags))

/-- Open the target, or make it with the mode and the owner of the request. -/
def openTarget (target : Loc) (existed : Bool) (accessBits mode : Nat) (ctx : FuseContext) :
    Op Node :=
  if existed then openFile target (hasBit accessBits 0o2)
  else do
    let file ← openOrCreate target mode
    setPermissions target mode
    applyOwnership target ctx.uid ctx.gid true
    pure file

/-- Create or open a file: the existing object, if any, is checked and copied first. -/
def createFileOp (rel : Path) (mode flags : Nat) (ctx : Option FuseContext) : Op (Nat × Meta) := do
  let env ← ask
  let ctx ← requireContext ctx
  ensureMutable
  let truncate := hasBit flags oTrunc
  let accessBits ← result (openAccessBits flags)
  let existing ← probe (fun env w => resolve env w.fs rel)
  checkCreate rel existing flags ctx
  onlyIf (existing.isSome && env.layout.cowRoot)
    (if truncate then copyUpEmptyFileForTruncate rel else copyUpFile rel)
  let target ← targetFileForWrite rel
  let targetMeta ← lstat target
  checkTarget targetMeta existing.isSome flags ctx
  clearTombstone rel
  let existed := existing.isSome || targetMeta.isSome
  createDirAll target.parent
  let file ← openTarget target existed accessBits (applyUmask env mode) ctx
  let _ ← fileMetadata file
  onlyIf (existed && truncate) (setLen file 0)
  registerFileHandle ⟨rel, target, permissionUpdatesBlocked env target⟩ accessBits file

/-- The checks that `mkdir`, `mknod`, `symlink` and `link` make on the new name. -/
def checkNewEntry (rel : Path) (ctx : FuseContext) : Op Unit := do
  let parentMeta ← parentMetadata rel
  ensureFileCreationAllowed parentMeta ctx.uid ctx.gid
  ensureUnionEntryAbsent rel

def mknod (rel : Path) (mode : Nat) (ctx : Option FuseContext) : Op Meta := do
  let env ← ask
  let ctx ← requireContext ctx
  ensureMutable
  checkNewEntry rel ctx
  let target ← targetFileForWrite rel
  clearTombstone rel
  makeNod target (applyUmask env mode)
  setPermissions target (applyUmask env mode)
  applyOwnership target ctx.uid ctx.gid true
  symlinkMetadata target

/-- `ensure_parent_search_allowed` with the check that `link` makes on every directory above
the existing name, in both trees. -/
def checkSearch (ctx : FuseContext) (rel : Path) : Op Unit := do
  let view ← resolveDir rel
  ifSome view.overlay (fun dir => do
    let info ← metadata dir
    ensureSearchAllowed info ctx.uid ctx.gid)
  ifSome view.backing (fun dir => do
    let info ← metadata dir
    ensureSearchAllowed info ctx.uid ctx.gid)

/-- The file is copied up before it gets a second name. -/
def link (fromRel toRel : Path) (ctx : Option FuseContext) : Op Unit := do
  let env ← ask
  let ctx ← requireContext ctx
  ensureMutable
  let srcExisting ← resolveExisting fromRel
  each (checkSearch ctx) (segments fromRel.dropLast).reverse
  let _ ← symlinkMetadata srcExisting
  checkNewEntry toRel ctx
  if env.layout.cowRoot then do
    copyUpFile fromRel
    createDirAll (Loc.parent ⟨.cow, toRel⟩)
    clearTombstone toRel
    hardLink ⟨.cow, fromRel⟩ ⟨.cow, toRel⟩
  else do
    let src ← resolveExisting fromRel
    let dst ← backingTarget toRel
    hardLink src dst

def symlink (rel : Path) (target : Bytes) (ctx : Option FuseContext) : Op Unit := do
  let ctx ← requireContext ctx
  ensureMutable
  checkNewEntry rel ctx
  let linkPath ← targetFileForWrite rel
  clearTombstone rel
  createDirAll linkPath.parent
  makeSymlink target linkPath
  applyOwnership linkPath ctx.uid ctx.gid false

end FabricFs.Overlay
