import FabricFs.Overlay.Visibility

/-!
# The extended attribute store

`server/xattrs.rs` and the store of `overlay/xattrs.rs`. ACLs stay on the host object; all
other attributes are kept by the server in a manifest per inode, with a cache in memory.
The manifests are files below a reserved directory of the copy-on-write root; the
directory itself and the temporary file of an update are not represented.
-/

namespace FabricFs.Overlay

open Lib Lib.Prog Server

/-- `ACL_NAMES`: "system.posix_acl_access" and "system.posix_acl_default". -/
def aclNames : List Bytes :=
  [nameOf "system.posix_acl_access", nameOf "system.posix_acl_default"]

def isAclName (name : Bytes) : Bool := aclNames.contains name

/-! ## Attributes of host objects -/

/-- `read_xattr`: a missing attribute and a host without attributes are no errors. -/
def readXattr (loc : Loc) (name : Bytes) (followLink : Bool) : Op (Option Bytes) :=
  tryCatch (do
    -- the first call asks for the size of the value
    let _ ← getXattr loc name followLink
    let value ← getXattr loc name followLink
    pure (some value)) (fun e =>
      if e = .enodata ∨ e = .eopnotsupp then pure none else throw e)

def writeXattr (loc : Loc) (name value : Bytes) (followLink : Bool) : Op Unit :=
  tryCatch (setXattr loc name value 0 followLink) (fun e =>
    if e = .eopnotsupp then pure () else throw e)

def copyAclXattrs (src dst : Loc) (followSrc followDst : Bool) : Op Unit :=
  each (fun name => do
    let value ← readXattr src name followSrc
    ifSome value (fun value => writeXattr dst name value followDst)) aclNames

def listXattrNames (loc : Loc) (followLink : Bool) : Op (List Bytes) :=
  tryCatch (do
    let sized ← listXattr loc followLink
    if sized = [] then pure []
    else do
      let names ← listXattr loc followLink
      pure (names.filter (fun name => decide (Utf8 name)))) (fun e =>
        if e = .eopnotsupp then pure [] else throw e)

/-- The loop of `read_all_xattrs`. -/
def readXattrs (loc : Loc) (followLink : Bool) : List Bytes → XattrTable → Op XattrTable
  | [], table => pure table
  | name :: names, table =>
    if isAclName name then readXattrs loc followLink names table
    else do
      let value ← readXattr loc name followLink
      readXattrs loc followLink names (match value with
        | some value => table.insert name value
        | none => table)

def readAllXattrs (loc : Loc) (followLink : Bool) : Op XattrTable := do
  let names ← listXattrNames loc followLink
  readXattrs loc followLink names ∅

def copyAcls (src dst : Loc) (followSrc followDst : Bool) : Op Unit := do
  let env ← ask
  onlyIf env.propagateAcls (copyAclXattrs src dst followSrc followDst)

/-! ## Manifests -/

/-- `XATTR_VERSION`. -/
def xattrVersion : Nat := 1

def cacheInsert (key : Nat) (table : XattrTable) : Op Unit :=
  change (fun w => { w with cache := w.cache.insert key table })

def keyForPath (loc : Loc) : Op Nat := do
  let info ← symlinkMetadata loc
  pure info.ino

/-- The table that a manifest stands for; an unreadable one stands for no attributes. -/
def manifestTable : Manifest → XattrTable
  | .entries version table => if version = xattrVersion then table else ∅
  | .garbage => ∅

/-- The manifest of a key, if the mount has a place for manifests. -/
def manifestAt (env : Env) (fs : HostFs) (key : Nat) : Option Manifest :=
  if env.layout.cowRoot then fs.manifest key else none

/-- The table of attributes that the manifest of an inode stands for. -/
def storedTable (env : Env) (fs : HostFs) (key : Nat) : XattrTable :=
  (manifestAt env fs key).elim ∅ manifestTable

def loadManifest (key : Nat) : Op XattrTable := do
  let found ← probe (fun env w => manifestAt env w.fs key)
  match found with
  | none => pure ∅
  | some manifest => query (fun _ _ => .ok (manifestTable manifest))

def loadTable (key : Nat) : Op XattrTable := do
  let cached ← state (fun w => w.cache.lookup key)
  match cached with
  | some table => pure table
  | none => do
    let table ← loadManifest key
    cacheInsert key table
    pure table

/-- Make the directory, write the temporary file, move it over the manifest. -/
def writeManifest (key : Nat) (table : XattrTable) : Op Unit := do
  query (fun _ _ => .ok ())
  query (fun _ _ => .ok ())
  update (fun _ w => .ok ((), w.fs.setManifest key (some (.entries xattrVersion table))))

def persist (key : Nat) (table : XattrTable) : Op Unit := do
  let env ← ask
  onlyIf env.layout.cowRoot (writeManifest key table)
  cacheInsert key table

def updateTable (key : Nat) (f : XattrTable → Except Errno XattrTable) : Op Unit := do
  let current ← loadTable key
  let updated ← result (f current)
  persist key updated

def hasPersisted (key : Nat) : Op Bool :=
  probe (fun env w => (w.cache.lookup key).isSome || (manifestAt env w.fs key).isSome)

def seedFromHost (destMeta : Meta) (source : Loc) (followSrc : Bool) : Op Unit := do
  let persisted ← hasPersisted destMeta.ino
  if persisted then pure ()
  else do
    let values ← readAllXattrs source followSrc
    if values.entries = [] then pure () else persist destMeta.ino values

/-- `purge_if_last_link`, given the metadata from before the name was removed. A manifest
that cannot be removed stays. -/
def purgeIfLastLink (info : Meta) : Op Unit :=
  if info.nlink > 1 ∧ info.kind ≠ .dir then pure ()
  else do
    change (fun w => { w with cache := w.cache.erase info.ino })
    let found ← probe (fun env w => manifestAt env w.fs info.ino)
    onlyIf found.isSome (tryCatch
      (update (fun _ w => .ok ((), w.fs.setManifest info.ino none))) (fun _ => pure ()))

end FabricFs.Overlay
