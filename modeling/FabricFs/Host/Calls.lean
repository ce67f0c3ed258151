import FabricFs.Host.World

/-!
# Host calls

The calls of `std::fs` and `libc` that the server makes, as programs over the numbered
calls of `FabricFs.Host.World`, and the two routines built from several calls that the
server uses everywhere: `create_dir_all` and its variant that records what it creates.
-/

namespace FabricFs

open Lib Lib.Prog

/-! ## Symbolic links -/

def dotName : Name := [46]

def dotDotName : Name := [46, 46]

/-- The host path that a link text denotes, when it lies in one of the three trees. -/
def linkDest (env : Env) (loc : Loc) (text : Bytes) : Option Loc :=
  let start := if text.head? = some slash then [] else env.mount loc.root ++ loc.path.dropLast
  let target := (text.splitOn slash).foldl (fun acc c =>
    if c = [] ∨ c = dotName then acc
    else if c = dotDotName then acc.dropLast
    else acc ++ [c]) start
  [Root.backing, .cow, .alias].findSome? (fun root =>
    (stripPrefix (env.mount root) target).map (⟨root, ·⟩))

def followAux (env : Env) (fs : HostFs) : Nat → Loc → Except Errno Loc
  | 0, _ => .error .eloop
  | fuel + 1, loc =>
    match fs.lookup loc with
    | .error e => .error e
    | .ok node =>
      if node.kind = .symlink then
        match linkDest env loc (fs.inode node.ino).data with
        | some dest => followAux env fs fuel dest
        | none => .error .enoent
      else .ok loc

/-- The path after the links at its last component. -/
def follow (env : Env) (fs : HostFs) (loc : Loc) : Except Errno Loc := followAux env fs 40 loc

def followNode (env : Env) (fs : HostFs) (loc : Loc) : Except Errno Node :=
  match follow env fs loc with
  | .error e => .error e
  | .ok dest => fs.lookup dest

theorem follow_of_not_symlink {env : Env} {fs : HostFs} {loc : Loc} {node : Node}
    (h : fs.get loc = some node) (hk : node.kind ≠ .symlink) : follow env fs loc = .ok loc := by
  simp only [follow, followAux, HostFs.lookup, h, if_neg hk]

theorem followNode_of_not_symlink {env : Env} {fs : HostFs} {loc : Loc} {node : Node}
    (h : fs.get loc = some node) (hk : node.kind ≠ .symlink) :
    followNode env fs loc = .ok node := by
  simp only [followNode, follow_of_not_symlink h hk, HostFs.lookup, h]

/-- Where a path leads through links, there is something that is no link. -/
theorem followAux_ok {env : Env} {fs : HostFs} {fuel : Nat} {loc dest : Loc}
    (h : followAux env fs fuel loc = .ok dest) :
    ∃ node, fs.get dest = some node ∧ node.kind ≠ .symlink := by
  induction fuel generalizing loc with
  | zero => cases h
  | succ fuel ih =>
    rw [followAux] at h
    split at h
    · cases h
    next node hLookup =>
      split at h
      · split at h
        · exact ih h
        · cases h
      next hKind =>
        cases h
        exact ⟨node, (HostFs.lookup_eq_ok _).mp hLookup, hKind⟩

/-! ## Tests -/

/-- `node_exists` of the server: `symlink_metadata(path).is_ok()`. -/
def nodeExists (loc : Loc) : Op Bool := probe (fun _ w => (w.fs.get loc).isSome)

/-- The test `Path::is_dir`. -/
def isDirAt (env : Env) (fs : HostFs) (loc : Loc) : Bool :=
  match followNode env fs loc with
  | .ok node => node.isDir
  | .error _ => false

/-- The test `Path::is_file`. -/
def isFileAt (env : Env) (fs : HostFs) (loc : Loc) : Bool :=
  match followNode env fs loc with
  | .ok node => node.kind == .file
  | .error _ => false

/-- The test `Path::exists`. -/
def existsAt (env : Env) (fs : HostFs) (loc : Loc) : Bool :=
  match followNode env fs loc with
  | .ok _ => true
  | .error _ => false

/-! ## Reading -/

def symlinkMetadata (loc : Loc) : Op Meta := query (fun _ w => (w.fs.lookup loc).map w.fs.metaOf)

def metadata (loc : Loc) : Op Meta :=
  query (fun env w => (followNode env w.fs loc).map w.fs.metaOf)

def canonicalize (loc : Loc) : Op Loc := query (fun env w => follow env w.fs loc)

def readLink (loc : Loc) : Op Bytes :=
  query (fun _ w =>
    match w.fs.lookup loc with
    | .error e => .error e
    | .ok node =>
      if node.kind = .symlink then .ok (w.fs.inode node.ino).data else .error .einval)

def readDir (loc : Loc) : Op (List Name) :=
  query (fun env w =>
    match follow env w.fs loc with
    | .error e => .error e
    | .ok dest => w.fs.entries dest)

/-- Fetch the next entry of an open directory stream. -/
def nextEntry : Op Unit := query (fun _ _ => .ok ())

/-! ## Entries -/

/-- Make an entry that belongs to the server process. -/
def makeNode (loc : Loc) (kind : Kind) (perm : Nat) (data : Bytes) : Op Node :=
  update (fun env w =>
    let ino := w.fs.freshIno w.openInos (env.pick w.calls)
    (w.fs.make loc kind ino ⟨perm, env.euid, env.egid, data, ∅⟩).map (⟨kind, ino⟩, ·))

def createDir (loc : Loc) : Op Unit := do
  let env ← ask
  let _ ← makeNode loc .dir (maskOff 0o777 env.processUmask) []

def makeSymlink (target : Bytes) (loc : Loc) : Op Unit := do
  let _ ← makeNode loc .symlink 0o777 target

/-- The file type bits of a mode. -/
def modeKind (mode : Nat) : Except Errno Kind :=
  let bits := mode &&& 0o170000
  if bits = 0 ∨ bits = 0o100000 then .ok .file
  else if bits = 0o010000 ∨ bits = 0o140000 ∨ bits = 0o020000 ∨ bits = 0o060000 then .ok .special
  else if bits = 0o040000 then .error .eperm
  else .error .einval

def makeNod (loc : Loc) (mode : Nat) : Op Unit := do
  let env ← ask
  let kind ← result (modeKind mode)
  let _ ← makeNode loc kind (maskOff (mode &&& 0o7777) env.processUmask) []

def removeFile (loc : Loc) : Op Unit := update (fun _ w => (w.fs.removeFile loc).map ((), ·))

def removeDir (loc : Loc) : Op Unit := update (fun _ w => (w.fs.removeDir loc).map ((), ·))

def renameNode (src dst : Loc) : Op Unit := update (fun _ w => (w.fs.rename src dst).map ((), ·))

def hardLink (src dst : Loc) : Op Unit := update (fun _ w => (w.fs.hardLink src dst).map ((), ·))

/-! ## Attributes -/

/-- The inode of a path, with or without following a link at the end. -/
def nodeAt (env : Env) (fs : HostFs) (loc : Loc) (followLink : Bool) : Except Errno Node :=
  if followLink then followNode env fs loc else fs.lookup loc

def setPermissions (loc : Loc) (mode : Nat) : Op Unit :=
  update (fun env w =>
    (followNode env w.fs loc).map (fun node => ((), w.fs.chmod node.ino mode)))

def chown (loc : Loc) (uid gid : Nat) (followLink : Bool) : Op Unit :=
  update (fun env w =>
    (nodeAt env w.fs loc followLink).map (fun node => ((), w.fs.chown node uid gid)))

def getXattr (loc : Loc) (name : Bytes) (followLink : Bool) : Op Bytes :=
  query (fun env w =>
    match nodeAt env w.fs loc followLink with
    | .error e => .error e
    | .ok node =>
      match (w.fs.inode node.ino).xattrs.lookup name with
      | some value => .ok value
      | none => .error .enodata)

def listXattr (loc : Loc) (followLink : Bool) : Op (List Bytes) :=
  query (fun env w =>
    (nodeAt env w.fs loc followLink).map (fun node => (w.fs.inode node.ino).xattrs.keys))

/-- `XATTR_CREATE` and `XATTR_REPLACE`. -/
def xattrCreate : Nat := 1
def xattrReplace : Nat := 2

/-- `setxattr` on a table of attributes. -/
def checkXattrFlags (table : XattrTable) (name : Bytes) (flags : Nat) : Except Errno Unit :=
  if flags &&& xattrCreate ≠ 0 ∧ (table.lookup name).isSome then .error .eexist
  else if flags &&& xattrReplace ≠ 0 ∧ (table.lookup name).isNone then .error .enodata
  else .ok ()

def setXattr (loc : Loc) (name value : Bytes) (flags : Nat) (followLink : Bool) : Op Unit :=
  update (fun env w =>
    match nodeAt env w.fs loc followLink with
    | .error e => .error e
    | .ok node =>
      (checkXattrFlags (w.fs.inode node.ino).xattrs name flags).map (fun _ =>
        ((), w.fs.setXattr node.ino name value)))

def removeXattr (loc : Loc) (name : Bytes) : Op Unit :=
  update (fun env w =>
    match followNode env w.fs loc with
    | .error e => .error e
    | .ok node =>
      if ((w.fs.inode node.ino).xattrs.lookup name).isSome then
        .ok ((), w.fs.removeXattr node.ino name)
      else .error .enodata)

/-! ## Open files -/

/-- Open an existing file, for writing or only for reading. -/
def openFile (loc : Loc) (write : Bool) : Op Node :=
  query (fun env w =>
    match followNode env w.fs loc with
    | .error e => .error e
    | .ok node => if write && node.isDir then .error .eisdir else .ok node)

/-- Open a file that is created with the mode when it is missing. -/
def openOrCreate (loc : Loc) (mode : Nat) : Op Node := do
  let present ← nodeExists loc
  if present then openFile loc true
  else do
    let env ← ask
    makeNode loc .file (maskOff (mode &&& 0o7777) env.processUmask) []

def setLen (file : Node) (size : Nat) : Op Unit :=
  update (fun _ w => .ok ((), w.fs.setLen file.ino size))

/-- `File::create`: the file is empty afterwards. -/
def createFile (loc : Loc) : Op Node :=
  update (fun env w =>
    match w.fs.get loc with
    | none =>
      let ino := w.fs.freshIno w.openInos (env.pick w.calls)
      (w.fs.make loc .file ino
        ⟨maskOff 0o666 env.processUmask, env.euid, env.egid, [], ∅⟩).map (⟨.file, ino⟩, ·)
    | some _ =>
      match followNode env w.fs loc with
      | .error e => .error e
      | .ok node =>
        if node.isDir then .error .eisdir else .ok (node, w.fs.setLen node.ino 0))

/-- Exclusive creation with a mode. -/
def createNew (loc : Loc) (mode : Nat) : Op Node := do
  let env ← ask
  makeNode loc .file (maskOff (mode &&& 0o7777) env.processUmask) []

def fileMetadata (file : Node) : Op Meta := query (fun _ w => .ok (w.fs.metaOf file))

def fchmod (file : Node) (mode : Nat) : Op Unit :=
  update (fun _ w => .ok ((), w.fs.chmod file.ino mode))

def fchown (file : Node) (uid gid : Nat) : Op Unit :=
  update (fun _ w => .ok ((), w.fs.chown file uid gid))

def fsync (_file : Node) : Op Unit := query (fun _ _ => .ok ())

/-- One `read` at an offset: at least one byte unless the file ends there. -/
def readAt (file : Node) (offset want : Nat) : Op Bytes :=
  query (fun env w =>
    .ok (((w.fs.inode file.ino).data.drop offset).take (min want (max 1 (env.transfer w.calls)))))

/-- One `write` at an offset, which may store only a part of the bytes. -/
def writeAt (file : Node) (offset : Nat) (bytes : Bytes) : Op Nat :=
  update (fun env w =>
    let n := min bytes.length (env.transfer w.calls)
    .ok (n, w.fs.writeAt file.ino offset (bytes.take n)))

/-- The bulk copy of `fs::copy`, or the shared clone of all blocks. -/
def copyData (src dst : Node) : Op Unit := fun env w =>
  let data := (w.fs.inode src.ino).data
  match env.fault w.calls with
  | some fault => (.error fault.errno, { w with
      fs := w.fs.writeAt dst.ino 0 (data.take fault.progress), calls := w.calls + 1 })
  | none => (.ok (), { w with fs := w.fs.writeAt dst.ino 0 data, calls := w.calls + 1 })

/-! ## `create_dir_all` -/

def createDirAllAux (root : Root) : Nat → Path → Op Unit
  | fuel, p =>
    tryCatch (createDir ⟨root, p⟩) (fun e => do
      let isDir ← probe (fun env w => isDirAt env w.fs ⟨root, p⟩)
      if e ≠ .enoent then if isDir then pure () else throw e
      else do
        (match fuel with
          | 0 => pure ()
          | fuel + 1 => createDirAllAux root fuel p.dropLast)
        tryCatch (createDir ⟨root, p⟩) (fun e => do
          let isDir ← probe (fun env w => isDirAt env w.fs ⟨root, p⟩)
          if isDir then pure () else throw e))

/-- `fs::create_dir_all`. -/
def createDirAll (loc : Loc) : Op Unit := createDirAllAux loc.root loc.path.length loc.path

/-- The initial segments of a path, from the longest to the shortest. -/
def segments (p : Path) : List Path := ((List.range (p.length + 1)).map p.take).reverse

/-- `create_dir_all_with_recorded_dirs`, without the record. -/
def createDirAllWithRecordedDirs (loc : Loc) : Op Unit := do
  let isDir ← probe (fun env w => isDirAt env w.fs loc)
  if isDir then pure ()
  else do
    let missing ← probe (fun env w =>
      (segments loc.path).takeWhile (fun p => !existsAt env w.fs ⟨loc.root, p⟩))
    if missing = [] then createDir loc
    else
      each (fun p =>
        tryCatch (createDir ⟨loc.root, p⟩) (fun e => do
          let isDir ← probe (fun env w => isDirAt env w.fs ⟨loc.root, p⟩)
          if e = .eexist ∧ isDir then pure () else throw e)) missing.reverse

end FabricFs
