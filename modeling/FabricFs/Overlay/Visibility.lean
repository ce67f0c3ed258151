import FabricFs.Server.Runtime

/-!
# What the overlay shows

`overlay/layout.rs`, `overlay/objects.rs`, `overlay/tombstones.rs` and
`overlay/visibility.rs`. A path is looked up in the tombstones first, then in the
copy-on-write tree, then in the backing tree. A tombstone is an entry of the same path in
the reserved directory of the alias tree: a file hides the path and everything below it;
a directory there, made for tombstones further down, hides its own path only when it holds
the marker.
-/

namespace FabricFs.Overlay

open Lib Lib.Prog Server

variable {env : Env} {rel : Path} {loc : Loc}

/-- `TOMBSTONE_DIR`: ".fabricfs_tombstones". -/
def tombstoneDir : Name := nameOf ".fabricfs_tombstones"

/-- `TOMBSTONE_MARKER`: ".fabricfs_tombstone". -/
def tombstoneMarker : Name := nameOf ".fabricfs_tombstone"

/-! ## Layout -/

def isWritable (env : Env) : Bool :=
  env.layout.aliasRoot && (env.layout.cowRoot || env.layout.backingRoot)

def ensureWritable : Op Unit := do
  let env ← ask
  ensure (isWritable env) .erofs

def overlayPath (env : Env) (rel : Path) : Option Loc :=
  if env.layout.cowRoot then some ⟨.cow, rel⟩ else none

def backingPath (env : Env) (rel : Path) : Option Loc :=
  if env.layout.backingRoot then some ⟨.backing, rel⟩ else none

def tombstonePath (env : Env) (rel : Path) : Option Loc :=
  if rel = [] then none
  else if env.layout.aliasRoot then some ⟨.alias, tombstoneDir :: rel⟩
  else none

theorem tombstonePath_eq (h : tombstonePath env rel = some loc) :
    loc = ⟨.alias, tombstoneDir :: rel⟩ := by
  unfold tombstonePath at h
  split at h
  · cases h
  · split at h
    · exact (Option.some.inj h).symm
    · cases h

theorem overlayPath_eq (h : overlayPath env rel = some loc) : loc = ⟨.cow, rel⟩ := by
  unfold overlayPath at h
  split at h
  · exact (Option.some.inj h).symm
  · cases h

theorem backingPath_eq (h : backingPath env rel = some loc) : loc = ⟨.backing, rel⟩ := by
  unfold backingPath at h
  split at h
  · exact (Option.some.inj h).symm
  · cases h

theorem backingPath_eq_some :
    backingPath env rel = some loc ↔ env.layout.backingRoot = true ∧ loc = ⟨.backing, rel⟩ := by
  unfold backingPath
  cases env.layout.backingRoot with
  | true => simp [eq_comm (a := loc)]
  | false => simp

/-! ## Policies -/

def ensureBackingMutable : Op Unit := do
  let env ← ask
  ensure (env.layout.cowRoot || (env.allowDirectBackingUpdates && env.layout.backingRoot)) .eacces

def isBackingPath (env : Env) (loc : Loc) : Bool :=
  env.layout.backingRoot && loc.root == .backing

def permissionUpdatesBlocked (env : Env) (loc : Loc) : Bool :=
  !env.allowBackingPermissionUpdates && isBackingPath env loc

def xattrUpdatesBlocked (env : Env) (loc : Loc) : Bool :=
  !env.allowXattrUpdates && isBackingPath env loc

def applyUmask (env : Env) (mode : Nat) : Nat := maskOff mode env.umask

/-- The child of a host directory. -/
def childLoc (loc : Loc) (n : Name) : Loc := ⟨loc.root, loc.path ++ [n]⟩

/-! ## Tombstones -/

/-- A tombstone is a file, or the marker in a directory of tombstones. -/
def isTombstoned (env : Env) (fs : HostFs) (rel : Path) : Bool :=
  match tombstonePath env rel with
  | none => false
  | some loc =>
    match fs.lookup loc with
    | .ok node => if node.isDir then isFileAt env fs (childLoc loc tombstoneMarker) else true
    | .error .enoent => false
    | .error _ => true

/-- `symlink_metadata` where a missing object is no error. -/
def lstat (loc : Loc) : Op (Option Meta) :=
  tryCatch (do
    let info ← symlinkMetadata loc
    pure (some info)) (fun e => if e = .enoent then pure none else throw e)

def clearTombstone (rel : Path) : Op Unit := do
  let env ← ask
  ifSome (tombstonePath env rel) (fun loc => do
    let found ← lstat loc
    ifSome found (fun info =>
      if info.kind = .dir then do
        let marked ← probe (fun env w => existsAt env w.fs (childLoc loc tombstoneMarker))
        onlyIf marked (removeFile (childLoc loc tombstoneMarker))
      else removeFile loc))

/-- Where tombstones lie below, a directory stands there, and the marker goes into it. -/
def markTombstone (rel : Path) : Op Unit := do
  let env ← ask
  ifSome (tombstonePath env rel) (fun loc => do
    let found ← lstat loc
    match found with
    | some info => do
      let _ ← createFile (if info.kind = .dir then childLoc loc tombstoneMarker else loc)
    | none => do
      createDirAllWithRecordedDirs loc.parent
      let _ ← createFile loc)

/-! ## Lookup -/

/-- The host object that a path stands for. -/
def resolve (env : Env) (fs : HostFs) (rel : Path) : Option Loc :=
  if isTombstoned env fs rel then none
  else
    ((overlayPath env rel).filter (fun loc => (fs.get loc).isSome)).or
      ((backingPath env rel).filter (fun loc => (fs.get loc).isSome))

/-- A path stands for its copy or, without one, for the backing object. -/
theorem resolve_eq_some {fs : HostFs} :
    resolve env fs rel = some loc ↔ isTombstoned env fs rel = false ∧
      ((env.layout.cowRoot = true ∧ loc = ⟨.cow, rel⟩ ∧ (fs.get ⟨.cow, rel⟩).isSome = true) ∨
        (env.layout.backingRoot = true ∧ loc = ⟨.backing, rel⟩ ∧
          (fs.get ⟨.backing, rel⟩).isSome = true ∧
          (env.layout.cowRoot = true → fs.get ⟨.cow, rel⟩ = none))) := by
  unfold resolve overlayPath backingPath
  cases isTombstoned env fs rel with
  | true => simp
  | false =>
    cases env.layout.cowRoot <;> cases env.layout.backingRoot <;>
      cases hc : fs.get ⟨.cow, rel⟩ <;> cases hb : fs.get ⟨.backing, rel⟩ <;>
      simp [Option.filter, hc, hb, eq_comm]

def resolveExisting (rel : Path) : Op Loc := do
  let found ← probe (fun env w => resolve env w.fs rel)
  match found with
  | some loc => pure loc
  | none => throw .enoent

def ensureUnionEntryAbsent (rel : Path) : Op Unit := do
  let found ← probe (fun env w => resolve env w.fs rel)
  ensure found.isNone .eexist

structure DirView where
  overlay : Option Loc
  backing : Option Loc

/-- The host directory at a path, through a link at its end, and whether it is a link. -/
def dirViewPath (loc : Loc) : Op (Loc × Bool) := do
  let linkMeta ← symlinkMetadata loc
  if linkMeta.kind = .symlink then do
    let info ← metadata loc
    ensure (info.kind == .dir) .enotdir
    let dest ← canonicalize loc
    pure (dest, true)
  else do
    ensure (linkMeta.kind == .dir) .enotdir
    pure (loc, false)

/-- One side of `resolve_dir`: the directory, if the object exists. -/
def dirSide (loc : Option Loc) : Op (Option (Loc × Bool)) :=
  match loc with
  | none => pure none
  | some loc => do
    let present ← nodeExists loc
    if present then do
      let view ← dirViewPath loc
      pure (some view)
    else pure none

def resolveDir (rel : Path) : Op DirView := do
  let env ← ask
  let hidden ← probe (fun env w => isTombstoned env w.fs rel)
  ensure (!hidden) .enoent
  let overlay ← dirSide (overlayPath env rel)
  -- a link in the copy-on-write tree hides the backing directory
  if overlay.any (·.2) then pure ⟨overlay.map (·.1), none⟩
  else do
    let backing ← dirSide (backingPath env rel)
    ensure (overlay.isSome || backing.isSome) .enoent
    pure ⟨overlay.map (·.1), backing.map (·.1)⟩

/-- The metadata of the directory that an entry belongs to. -/
def parentMetadata (rel : Path) : Op Meta := do
  let view ← resolveDir rel.dropLast
  match view.overlay.or view.backing with
  | some loc => symlinkMetadata loc
  | none => throw .enoent

/-- The loop of `dir_is_empty`: whether some entry is not hidden. -/
def anyVisible (rel : Path) : List Name → Op Bool
  | [] => pure false
  | n :: names => do
    nextEntry
    let hidden ← probe (fun env w => isTombstoned env w.fs (rel ++ [toStringLossy n]))
    if hidden then anyVisible rel names else pure true

def dirHasVisible (rel : Path) (dir : Option Loc) : Op Bool :=
  match dir with
  | none => pure false
  | some dir => do
    let names ← readDir dir
    anyVisible rel names

/-- `dir_is_empty` of the overlay. The set of names seen is empty whenever the backing
directory is read, since the first name that is seen ends the routine. -/
def dirIsEmpty (rel : Path) : Op Bool := do
  let view ← resolveDir rel
  let found ← dirHasVisible rel view.overlay
  if found then pure false
  else do
    let found ← dirHasVisible rel view.backing
    pure (!found)

end FabricFs.Overlay
