import FabricFs.Overlay.XattrStore

/-!
# Copy-up

`overlay/fs_ops.rs` and `overlay/copy_up.rs`: an object of the backing tree is copied to
the copy-on-write tree before it is changed, with its contents, ownership, mode, ACLs and
extended attributes. The missing parents are made by `create_dir_all`.
-/

namespace FabricFs.Overlay

open Lib Lib.Prog Server

/-! ## Contents -/

/-- `preserve_ownership`: a server that is not the superuser keeps what it may. -/
def preserveOwnership (loc : Loc) (sourceMeta : Meta) : Op Unit := do
  let env ← ask
  let followSymlink := sourceMeta.kind != .symlink
  tryCatch (applyOwnership loc sourceMeta.uid sourceMeta.gid followSymlink) (fun e =>
    if e = .eperm ∧ env.euid ≠ 0 then
      tryCatch (applyOwnership loc u32Max sourceMeta.gid followSymlink) (fun e =>
        if e = .eperm then pure () else throw e)
    else throw e)

/-- The `FICLONE` request on two open files. -/
def cloneBlocks (src dst : Node) : Op Unit :=
  update (fun env w =>
    if env.ficlone && src.kind == .file then
      .ok ((), w.fs.writeAt dst.ino 0 (w.fs.inode src.ino).data)
    else .error .eopnotsupp)

def tryReflinkCopy (src dst : Loc) : Op Unit := do
  let srcFile ← openFile src false
  let dstFile ← createFile dst
  cloneBlocks srcFile dstFile

def isSparse (loc : Loc) : Op Bool :=
  query (fun env w => (followNode env w.fs loc).map (fun node => env.sparse (w.fs.inode node.ino)))

/-- The loop of `copy_sparse_file` over the data regions. -/
def copyRegions (src dst : Node) (size : Nat) : Nat → Nat → Op Unit
  | 0, _ => pure ()
  | rounds + 1, offset =>
    if size ≤ offset then pure ()
    else do
      let env ← ask
      let data ← probe (fun env w => env.seekData (w.fs.inode src.ino) offset)
      match data with
      | none => pure ()
      | some dataOffset =>
        if size ≤ dataOffset then pure ()
        else do
          let hole ← probe (fun env w => env.seekHole (w.fs.inode src.ino) dataOffset)
          let endOffset := min size (hole.getD size)
          let _ ← copyFileRangeAt src dst dataOffset dataOffset (endOffset - dataOffset) env.limits
          copyRegions src dst size rounds endOffset

def copySparseFile (src dst : Loc) : Op Unit := do
  let srcFile ← openFile src false
  let dstFile ← createFile dst
  let srcMeta ← fileMetadata srcFile
  setLen dstFile srcMeta.size
  copyRegions srcFile dstFile srcMeta.size (srcMeta.size + 1) 0

/-- `fs::copy`: open, check, create with the mode of the source, copy. -/
def fsCopy (src dst : Loc) : Op Unit := do
  let srcFile ← openFile src false
  let srcMeta ← fileMetadata srcFile
  ensure (srcMeta.kind == .file) .eio
  let dstFile ← createFile dst
  fchmod dstFile srcMeta.perm
  copyData srcFile dstFile

def copyFileFallback (src dst : Loc) : Op Unit := do
  let env ← ask
  let sparse ← (if env.preserveSparseFiles then tryCatch (isSparse src) (fun _ => pure false)
    else pure false : Op Bool)
  if sparse then copySparseFile src dst else fsCopy src dst

def copyWithReflinkFallback (src dst : Loc) : Op Unit := do
  let env ← ask
  if env.enableReflinks then
    tryCatch (tryReflinkCopy src dst) (fun _ => copyFileFallback src dst)
  else copyFileFallback src dst

/-! ## One object -/

/-- The copy of a link, with its ownership and attributes. -/
def copyLink (src dst : Loc) (info : Meta) : Op Unit := do
  let target ← readLink src
  makeSymlink target dst
  preserveOwnership dst info
  copyAcls src dst false false

/-- Ownership, mode and ACLs of a file or directory. -/
def copyAttributes (src dst : Loc) (info : Meta) : Op Unit := do
  preserveOwnership dst info
  setPermissions dst info.perm
  copyAcls src dst true true

def copyRegular (src dst : Loc) (info : Meta) : Op Unit := do
  copyWithReflinkFallback src dst
  copyAttributes src dst info

def copyDirNode (src dst : Loc) (info : Meta) : Op Unit := do
  createDirAll dst
  copyAttributes src dst info

/-- The attributes of the copy start as those of the source. -/
def seedXattrs (src dst : Loc) (followSrc : Bool) : Op Unit := do
  let destMeta ← symlinkMetadata dst
  seedFromHost destMeta src followSrc

/-- Copy one object to the overlay, unless it is there or not in the backing tree. -/
def copyUpNode (rel : Path) : Op Unit := do
  let env ← ask
  match overlayPath env rel with
  | none => throw .erofs
  | some overlay => do
    let present ← nodeExists overlay
    if present then pure ()
    else
      match backingPath env rel with
      | none => pure ()
      | some backing => do
        let inBacking ← nodeExists backing
        if !inBacking then pure ()
        else do
          let info ← symlinkMetadata backing
          createDirAll overlay.parent
          (match info.kind with
            | .symlink => copyLink backing overlay info
            | .dir => copyDirNode backing overlay info
            | _ => copyRegular backing overlay info)
          seedXattrs backing overlay (info.kind != .symlink)

/-- `copyUpNode` for a file: a link in the overlay and a directory below are errors. -/
def copyUpFile (rel : Path) : Op Unit := do
  let env ← ask
  match overlayPath env rel with
  | none => throw .erofs
  | some overlay => do
    let found ← lstat overlay
    match found with
    | some info => ensure (info.kind != .symlink) .eloop
    | none =>
      match backingPath env rel with
      | none => pure ()
      | some backing => do
        let inBacking ← nodeExists backing
        if !inBacking then pure ()
        else do
          let info ← symlinkMetadata backing
          ensure (info.kind != .dir) .eisdir
          createDirAll overlay.parent
          (match info.kind with
            | .symlink => copyLink backing overlay info
            | _ => copyRegular backing overlay info)
          seedXattrs backing overlay (info.kind != .symlink)

/-- A file about to be truncated is copied without its contents. -/
def copyUpEmptyFileForTruncate (rel : Path) : Op Unit := do
  let env ← ask
  match overlayPath env rel with
  | none => throw .erofs
  | some overlay => do
    let found ← lstat overlay
    match found with
    | some info => do
      ensure (info.kind != .symlink) .eloop
      ensureRegularFile info
    | none =>
      match backingPath env rel with
      | none => pure ()
      | some backing => do
        let inBacking ← nodeExists backing
        if !inBacking then pure ()
        else do
          let info ← symlinkMetadata backing
          ensure (info.kind != .symlink) .eloop
          ensureRegularFile info
          createDirAll overlay.parent
          let _ ← createNew overlay info.perm
          copyAttributes backing overlay info
          seedXattrs backing overlay true

/-! ## Trees -/

/-- `copy_up_tree`. The depth bounds the recursion; the height of the backing tree is
enough, since an object of the backing tree is found at every level. -/
def copyUpTreeAux : Nat → Path → Op Unit
  | depth, rel => do
    let env ← ask
    match overlayPath env rel with
    | none => throw .erofs
    | some overlay => do
      let present ← nodeExists overlay
      if present then pure ()
      else
        match backingPath env rel with
        | none => throw .enoent
        | some backing => do
          let inBacking ← nodeExists backing
          ensure inBacking .enoent
          let info ← symlinkMetadata backing
          match info.kind with
          | .dir => do
            copyDirNode backing overlay info
            seedXattrs backing overlay true
            let names ← readDir backing
            each (fun n => do
              nextEntry
              match depth with
              | 0 => pure ()
              | depth + 1 => copyUpTreeAux depth (rel ++ [toStringLossy n])) names
          | .symlink => do
            createDirAll overlay.parent
            copyLink backing overlay info
            seedXattrs backing overlay false
          | _ => do
            createDirAll overlay.parent
            copyRegular backing overlay info
            seedXattrs backing overlay true

def copyUpTree (rel : Path) : Op Unit := do
  let height ← state (fun w => (w.fs.tree .backing).height)
  copyUpTreeAux height rel

/-! ## Targets of changes -/

/-- The overlay path if there is one, otherwise the backing path. -/
def targetFileForWrite (rel : Path) : Op Loc := do
  let env ← ask
  ensure (isWritable env) .erofs
  ensureBackingMutable
  match (overlayPath env rel).or (backingPath env rel) with
  | some loc => pure loc
  | none => throw .erofs

/-- The path in the backing tree, where the mount has no copy-on-write root. -/
def backingTarget (rel : Path) : Op Loc := do
  let env ← ask
  match backingPath env rel with
  | some loc => pure loc
  | none => throw .erofs

/-- The copy of a file that is about to be written. -/
def prepareFileForWrite (rel : Path) : Op Loc := do
  let env ← ask
  ensureWritable
  ensureBackingMutable
  if env.layout.cowRoot then do
    copyUpFile rel
    let overlay : Loc := ⟨.cow, rel⟩
    let present ← nodeExists overlay
    ensure present .enoent
    clearTombstone rel
    pure overlay
  else backingTarget rel

/-- The copy of a whole tree, which is then visible in the overlay. -/
def materializeForWrite (rel : Path) : Op Loc := do
  let env ← ask
  ensureWritable
  ensureBackingMutable
  if env.layout.cowRoot then do
    copyUpTree rel
    clearTombstone rel
    pure ⟨.cow, rel⟩
  else backingTarget rel

def materializeForXattr (rel : Path) : Op Loc := do
  let env ← ask
  if env.layout.cowRoot then do
    copyUpNode rel
    let present ← nodeExists ⟨.cow, rel⟩
    ensure present .enoent
    pure ⟨.cow, rel⟩
  else resolveExisting rel

end FabricFs.Overlay
