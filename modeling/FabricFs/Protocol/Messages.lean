import Mathlib.Tactic.SplitIfs
import FabricFs.Protocol.Path

/-!
# Messages of the protocol

The requests and responses of `fs-protocol` with their checks: `payload.rs`,
`validation.rs`, `operation_spec.rs`, `invalidation.rs` and `envelope.rs`. A payload
carries the fields that its checks, the dispatcher and the client's cache read; trace
contexts, callers and observations are not checked and are left out.

* `requiresPathInvalidation_iff`: the operations after which a client must hear of a
  changed path are those that have an invalidation kind.
* `primaryPath_valid`: the paths that a checked request hands to its invalidation
  pass the check of invalidations.
-/

namespace FabricFs.Protocol

/-! ## Operations -/

inductive OperationEffect where
  | readOnly | handleLifecycle | contentMutation | createNode | deleteNode | renameNode
  | metadataMutation | xattrMutation | durability | lockState | seekState
  deriving DecidableEq, Repr

inductive PathRole where
  | target | source
  deriving DecidableEq, Repr

/-- The `effect` column of `OPERATION_SPECS`. -/
def Operation.effect : Operation → OperationEffect
  | .lookup | .getattr | .readdir | .read | .statfs | .getxattr | .listxattr | .readlink
  | .getlk => .readOnly
  | .openObject | .release => .handleLifecycle
  | .write | .copyFileRange | .fallocate => .contentMutation
  | .create | .mkdir | .symlink | .hardlink => .createNode
  | .rename => .renameNode
  | .unlink | .rmdir => .deleteNode
  | .setxattr | .removexattr => .xattrMutation
  | .setattr => .metadataMutation
  | .flush | .fsync | .fsyncdir => .durability
  | .setlk | .flock => .lockState
  | .lseek => .seekState

/-- The role of the first entry of the `path_roles` column. -/
def Operation.primaryPathRole : Operation → PathRole
  | .rename => .source
  | _ => .target

def OperationEffect.requiresPathInvalidation : OperationEffect → Bool
  | .contentMutation | .createNode | .deleteNode | .renameNode | .metadataMutation
  | .xattrMutation => true
  | _ => false

/-! ## Requests -/

inductive RequestPayload where
  | lookup (path : Option Text)
  | getattr (path : Option Text)
  | readdir (path : Option Text) (offset maxEntries : Nat)
  | openObject (path : Option Text) (flags : Nat) (kind : Int)
  | read (path : Option Text) (handle offset size : Nat)
  | write (path : Option Text) (handle offset : Nat) (data : Text)
  | create (path : Option Text) (flags mode : Nat)
  | rename (oldPath newPath : Option Text)
  | unlink (path : Option Text)
  | mkdir (path : Option Text) (mode : Nat)
  | rmdir (path : Option Text)
  | statfs (path : Option Text)
  | getxattr (path : Option Text) (name : Text) (size : Nat)
  | setxattr (path : Option Text) (name value : Text) (flags : Nat)
  | listxattr (path : Option Text) (size : Nat)
  | removexattr (path : Option Text) (name : Text)
  | release (path : Option Text) (handle flags : Nat)
  | readlink (path : Option Text)
  | symlink (path : Option Text) (target : Text)
  | hardlink (existingPath newPath : Option Text)
  | setattr (path : Option Text) (mode uid gid size handle : Option Nat)
  | flush (path : Option Text) (handle lockOwner : Nat)
  | fsync (path : Option Text) (handle : Nat) (datasync : Bool)
  | fsyncdir (path : Option Text) (handle : Nat) (datasync : Bool)
  | getlk (path : Option Text) (handle owner start stop : Nat) (typ : Int) (pid : Nat)
  | setlk (path : Option Text) (handle owner start stop : Nat) (typ : Int) (pid : Nat) (wait : Bool)
  | flock (path : Option Text) (handle owner : Nat) (operation : BitVec 32)
  | copyFileRange (inputPath : Option Text) (inputHandle : Nat) (inputOffset : Int)
      (outputPath : Option Text) (outputHandle : Nat) (outputOffset : Int) (length flags : Nat)
  | fallocate (path : Option Text) (handle : Nat) (offset length mode : Int)
  | lseek (path : Option Text) (handle : Nat) (offset whence : Int)
  deriving DecidableEq, Repr

/-- `OPEN_FLAG_TRUNCATE`. -/
def openFlagTruncate : Nat := 0o1000

def validateXattrName (value : Text) : Except ProtocolError Unit :=
  require (!value.isEmpty && !value.contains 0) (.invalidEnvelope "invalid xattr name")

def validateSymlinkTarget (value : Text) : Except ProtocolError Unit :=
  require (!value.isEmpty && !value.contains 0) (.invalidEnvelope "invalid symlink target")

def parseOpenKind (value : Int) : Except ProtocolError Unit :=
  if value = 0 then .error (.invalidEnvelope "open kind must not be unspecified")
  else require (value == 1 || value == 2) (.unknownOpenKind value)

def validateHardlinkRequest (existingPath newPath : Option Text) : Except ProtocolError Unit := do
  let existingPath ← requiredPathValue existingPath
  let newPath ← requiredPathValue newPath
  validateNonRootPathValue existingPath
  validateNonRootPathValue newPath
  require (existingPath != newPath) (.invalidEnvelope "hardlink paths must be distinct")

def validateSetattrRequest (path : Option Text) (mode uid gid size : Option Nat) :
    Except ProtocolError Unit := do
  validatePathField path
  require (mode.isSome || uid.isSome || gid.isSome || size.isSome)
    (.invalidEnvelope "setattr must request at least one attribute change")
  require (mode.all (· ≤ 0o7777)) (.invalidEnvelope "setattr mode exceeds permission bits")

def validateLockRange (start stop : Nat) : Except ProtocolError Unit :=
  require (start ≤ stop) (.invalidEnvelope "lock start must be less than or equal to end")

def validateLockType (value : Int) (allowUnlock : Bool) : Except ProtocolError Unit :=
  require (value == 0 || value == 1 || (allowUnlock && value == 2))
    (.invalidEnvelope "invalid lock type")

def validateFlockOperation (value : BitVec 32) : Except ProtocolError Unit :=
  let command := value &&& ~~~4#32
  require ((command == 1#32 || command == 2#32 || command == 8#32) &&
    (value &&& ~~~15#32) == 0#32) (.invalidEnvelope "invalid flock operation")

def validateLseekRequest (path : Option Text) (offset whence : Int) :
    Except ProtocolError Unit := do
  validatePathField path
  if (whence = 0 ∨ whence = 3 ∨ whence = 4) ∧ offset < 0 then
    .error (.invalidEnvelope "lseek offset must be non-negative")
  else
    require (decide (0 ≤ whence) && decide (whence ≤ 4)) (.invalidEnvelope "invalid lseek whence")

namespace RequestPayload

def operation : RequestPayload → Operation
  | lookup .. => .lookup
  | getattr .. => .getattr
  | readdir .. => .readdir
  | openObject .. => .openObject
  | read .. => .read
  | write .. => .write
  | create .. => .create
  | rename .. => .rename
  | unlink .. => .unlink
  | mkdir .. => .mkdir
  | rmdir .. => .rmdir
  | statfs .. => .statfs
  | getxattr .. => .getxattr
  | setxattr .. => .setxattr
  | listxattr .. => .listxattr
  | removexattr .. => .removexattr
  | release .. => .release
  | readlink .. => .readlink
  | symlink .. => .symlink
  | hardlink .. => .hardlink
  | setattr .. => .setattr
  | flush .. => .flush
  | fsync .. => .fsync
  | fsyncdir .. => .fsyncdir
  | getlk .. => .getlk
  | setlk .. => .setlk
  | flock .. => .flock
  | copyFileRange .. => .copyFileRange
  | fallocate .. => .fallocate
  | lseek .. => .lseek

def pathForRole : RequestPayload → PathRole → Option Text
  | rename oldPath _, .source => oldPath
  | rename _ newPath, .target => newPath
  | hardlink existingPath _, .source => existingPath
  | hardlink _ newPath, .target => newPath
  | copyFileRange inputPath .., .source => inputPath
  | copyFileRange _ _ _ outputPath .., .target => outputPath
  | lookup path, .target | getattr path, .target | readdir path .., .target
  | openObject path .., .target | read path .., .target | write path .., .target
  | create path .., .target | unlink path, .target | mkdir path .., .target
  | rmdir path, .target | statfs path, .target | getxattr path .., .target
  | setxattr path .., .target | listxattr path .., .target | removexattr path .., .target
  | release path .., .target | readlink path, .target | symlink path .., .target
  | setattr path .., .target | flush path .., .target | fsync path .., .target
  | fsyncdir path .., .target | getlk path .., .target | setlk path .., .target
  | flock path .., .target | fallocate path .., .target | lseek path .., .target => path
  | _, .source => none

def primaryPath (payload : RequestPayload) : Option Text :=
  payload.pathForRole payload.operation.primaryPathRole

/-- Paths, names, kinds, flags and sizes are checked for each operation. -/
def validate : RequestPayload → Except ProtocolError Unit
  | lookup path | getattr path | readdir path .. | read path .. | write path .. | statfs path
  | listxattr path .. | release path .. | readlink path | flush path .. | fsync path ..
  | fsyncdir path .. => validatePathField path
  | openObject path _ kind => do
    validatePathField path
    parseOpenKind kind
  | create path .. | unlink path | mkdir path .. | rmdir path => validateNonRootPathField path
  | rename oldPath newPath => do
    let oldPath ← requiredPathValue oldPath
    let newPath ← requiredPathValue newPath
    validateRenamePaths oldPath newPath
  | getxattr path name _ | setxattr path name .. | removexattr path name => do
    validatePathField path
    validateXattrName name
  | symlink path target => do
    validateNonRootPathField path
    validateSymlinkTarget target
  | hardlink existingPath newPath => validateHardlinkRequest existingPath newPath
  | setattr path mode uid gid size _ => validateSetattrRequest path mode uid gid size
  | getlk path _ _ start stop typ _ => do
    validatePathField path
    validateLockRange start stop
    validateLockType typ false
  | setlk path _ _ start stop typ .. => do
    validatePathField path
    validateLockRange start stop
    validateLockType typ true
  | flock path _ _ operation => do
    validatePathField path
    validateFlockOperation operation
  | copyFileRange inputPath _ inputOffset outputPath _ outputOffset _ flags => do
    validatePathField inputPath
    validatePathField outputPath
    require (decide (0 ≤ inputOffset) && decide (0 ≤ outputOffset))
      (.invalidEnvelope "copy_file_range offsets must be non-negative")
    require (flags == 0) (.invalidEnvelope "copy_file_range flags must be zero")
  | fallocate path _ offset length mode => do
    validatePathField path
    require (decide (0 ≤ offset) && decide (0 < length) && decide (0 ≤ mode))
      (.invalidEnvelope "fallocate offset, length, and mode are invalid")
  | lseek path _ offset whence => validateLseekRequest path offset whence

/-- Whether the request opens an object and cuts it to length zero. -/
def truncates : RequestPayload → Bool
  | openObject _ flags _ => flags &&& openFlagTruncate != 0
  | _ => false

def requiresPathInvalidation (payload : RequestPayload) : Bool :=
  payload.truncates || payload.operation.effect.requiresPathInvalidation

end RequestPayload

open RequestPayload

structure RequestEnvelope where
  protocolVersion : Nat
  requestId : Text
  operation : Operation
  namespaceName : Text
  deadlineUnixNanos : Nat
  payload : RequestPayload
  deriving DecidableEq, Repr

/-- `PROTOCOL_VERSION`. -/
def currentVersion : Nat := 2

namespace RequestEnvelope

def validateIdentity (request : RequestEnvelope) : Except ProtocolError Unit := do
  require (request.protocolVersion == currentVersion) (.unsupportedVersion request.protocolVersion)
  require (!request.requestId.isEmpty) (.invalidEnvelope "request_id must not be empty")
  require (!request.namespaceName.isEmpty) (.invalidEnvelope "namespace must not be empty")
  require (request.operation == request.payload.operation)
    (.payloadMismatch request.operation request.payload.operation)

def validate (request : RequestEnvelope) : Except ProtocolError Unit := do
  request.validateIdentity
  request.payload.validate

end RequestEnvelope

/-! ## Response payloads -/

/-- The checked fields of `FileAttr`. -/
structure FileAttr where
  inode : Nat
  kind : Int
  deriving DecidableEq, Repr

structure DirectoryEntry where
  inode : Nat
  name : Text
  kind : Int
  deriving DecidableEq, Repr

structure FileLock where
  start : Nat
  stop : Nat
  typ : Int
  deriving DecidableEq, Repr

inductive ResponsePayload where
  | lookup (attr : Option FileAttr)
  | getattr (attr : Option FileAttr)
  | readdir (entries : List DirectoryEntry)
  | openObject (handle flags : Nat)
  | read (data : Text)
  | write (bytesWritten : Nat)
  | create (attr : Option FileAttr) (handle : Nat)
  | rename
  | unlink
  | mkdir (attr : Option FileAttr)
  | rmdir
  | statfs (stat : Option Unit)
  | getxattr (value : Text)
  | setxattr
  | listxattr (names : List Text)
  | removexattr
  | release
  | readlink (target : Text)
  | symlink (attr : Option FileAttr)
  | hardlink (attr : Option FileAttr)
  | setattr (attr : Option FileAttr)
  | flush
  | fsync
  | fsyncdir
  | getlk (lock : Option FileLock)
  | setlk
  | flock
  | copyFileRange (bytesCopied : Nat)
  | fallocate
  | lseek (offset : Int)
  deriving DecidableEq, Repr

def parseFileKind (value : Int) : Except ProtocolError Unit :=
  if value = 0 then .error (.invalidEnvelope "file kind must not be unknown")
  else require (value == 1 || value == 2 || value == 3) (.unknownFileKind value)

/-- `validate_attr_field_kind`; the expected kind is the wire value. -/
def validateAttrFieldKind (value : Option FileAttr) (expected : Option Int) :
    Except ProtocolError Unit :=
  match value with
  | none => .error (.invalidEnvelope "missing file attr")
  | some attr => do
    require (attr.inode != 0) (.invalidEnvelope "inode must be nonzero")
    parseFileKind attr.kind
    require (expected.all (· == attr.kind))
      (.invalidEnvelope "file attr kind does not match operation")

def validateNonDirectoryAttr (value : Option FileAttr) : Except ProtocolError Unit :=
  match value with
  | none => .error (.invalidEnvelope "missing file attr")
  | some attr => do
    require (attr.inode != 0) (.invalidEnvelope "inode must be nonzero")
    parseFileKind attr.kind
    require (attr.kind != 2) (.invalidEnvelope "hardlink attr kind must not be directory")

def validateDirectoryEntry (entry : DirectoryEntry) : Except ProtocolError Unit := do
  require (entry.inode != 0 && validComponent entry.name && !entry.name.contains slash &&
    !entry.name.contains 0) (.invalidEnvelope "invalid directory entry")
  parseFileKind entry.kind

def listxattrResponseSize (names : List Text) : Nat := (names.map (fun name => name.length + 1)).sum

namespace ResponsePayload

def operation : ResponsePayload → Operation
  | lookup .. => .lookup
  | getattr .. => .getattr
  | readdir .. => .readdir
  | openObject .. => .openObject
  | read .. => .read
  | write .. => .write
  | create .. => .create
  | rename => .rename
  | unlink => .unlink
  | mkdir .. => .mkdir
  | rmdir => .rmdir
  | statfs .. => .statfs
  | getxattr .. => .getxattr
  | setxattr => .setxattr
  | listxattr .. => .listxattr
  | removexattr => .removexattr
  | release => .release
  | readlink .. => .readlink
  | symlink .. => .symlink
  | hardlink .. => .hardlink
  | setattr .. => .setattr
  | flush => .flush
  | fsync => .fsync
  | fsyncdir => .fsyncdir
  | getlk .. => .getlk
  | setlk => .setlk
  | flock => .flock
  | copyFileRange .. => .copyFileRange
  | fallocate => .fallocate
  | lseek .. => .lseek

def createdInode : ResponsePayload → Option Nat
  | create attr _ | mkdir attr | symlink attr | hardlink attr => attr.map FileAttr.inode
  | _ => none

def validate : ResponsePayload → Except ProtocolError Unit
  | lookup attr | getattr attr | setattr attr => validateAttrFieldKind attr none
  | readdir entries => entries.forM validateDirectoryEntry
  | create attr _ => validateAttrFieldKind attr (some 1)
  | mkdir attr => validateAttrFieldKind attr (some 2)
  | symlink attr => validateAttrFieldKind attr (some 3)
  | hardlink attr => validateNonDirectoryAttr attr
  | statfs stat => require stat.isSome (.invalidEnvelope "missing statfs payload")
  | listxattr names => names.forM validateXattrName
  | readlink target => validateSymlinkTarget target
  | getlk (some lock) => do
    validateLockRange lock.start lock.stop
    validateLockType lock.typ false
  | lseek offset =>
    require (decide (0 ≤ offset))
      (.invalidResponseState "lseek response offset must be non-negative")
  | _ => .ok ()

/-- The response stays within what the request asked for. -/
def checkLimit : RequestPayload → ResponsePayload → Except ProtocolError Unit
  | .readdir _ _ maxEntries, readdir entries =>
    require (entries.length ≤ maxEntries)
      (.invalidResponseState "readdir response exceeded requested max_entries")
  | .read _ _ _ size, read data =>
    require (data.length ≤ size) (.invalidResponseState "read response exceeded requested size")
  | .write _ _ _ data, write bytesWritten =>
    require (bytesWritten ≤ data.length)
      (.invalidResponseState "write response exceeded request data length")
  | .getxattr _ _ size, getxattr value =>
    require (size == 0 || value.length ≤ size)
      (.invalidResponseState "getxattr response exceeded requested size")
  | .listxattr _ size, listxattr names =>
    require (size == 0 || listxattrResponseSize names ≤ size)
      (.invalidResponseState "listxattr response exceeded requested size")
  | .copyFileRange _ _ _ _ _ _ length _, copyFileRange bytesCopied =>
    require (bytesCopied ≤ length)
      (.invalidResponseState "copy_file_range response exceeded requested length")
  | _, _ => .ok ()

def validateForRequest (payload : ResponsePayload) (request : RequestPayload) :
    Except ProtocolError Unit := do
  require (payload.operation == request.operation)
    (.payloadMismatch request.operation payload.operation)
  payload.validate
  checkLimit request payload

end ResponsePayload

/-! ## Invalidations -/

inductive InvalidationKind where
  | create | modify | delete | rename | metadata | xattr | fullResync
  deriving DecidableEq, Repr

namespace InvalidationKind

def wireValue : InvalidationKind → Int
  | create => 1
  | modify => 2
  | delete => 3
  | rename => 4
  | metadata => 5
  | xattr => 6
  | fullResync => 7

/-- `TryFrom<i32>`. -/
def ofWire (value : Int) : Except ProtocolError InvalidationKind :=
  if value = 1 then .ok create
  else if value = 2 then .ok modify
  else if value = 3 then .ok delete
  else if value = 4 then .ok rename
  else if value = 5 then .ok metadata
  else if value = 6 then .ok xattr
  else if value = 7 then .ok fullResync
  else .error (.unknownInvalidationKind value)

@[simp] theorem ofWire_wireValue (kind : InvalidationKind) : ofWire kind.wireValue = .ok kind := by
  cases kind <;> rfl

theorem ofWire_eq_ok {value : Int} {kind : InvalidationKind} :
    ofWire value = .ok kind ↔ value = kind.wireValue := by
  constructor
  · intro h
    unfold ofWire at h
    split_ifs at h <;> cases h <;> assumption
  · rintro rfl
    exact ofWire_wireValue kind

end InvalidationKind

open InvalidationKind

/-- The message `Invalidation`; the unused field `handle` is left out. -/
structure Invalidation where
  namespaceName : Text
  sequence : Nat
  kind : Int
  path : Text
  oldPath : Text
  newPath : Text
  inode : Nat
  requestId : Text
  deriving DecidableEq, Repr

/-- The check of one optional path of an invalidation. -/
def validateOptionalPath (path : Text) : Except ProtocolError Unit :=
  if path.isEmpty then .ok () else validatePathValue path

@[simp] theorem validateOptionalPath_nil : validateOptionalPath [] = .ok () := rfl

theorem validateOptionalPath_ok {path : Text} (hPath : validPath path = true) :
    validateOptionalPath path = .ok () := by
  simp [validateOptionalPath, validatePathValue, hPath]

def validateInvalidationPaths (value : Invalidation) : InvalidationKind → Except ProtocolError Unit
  | .create | .delete => validateRequiredNonRootInvalidationPath "path" value.path
  | .modify | .metadata | .xattr => validateRequiredInvalidationPath "path" value.path
  | .rename => do
    validateRequiredNonRootInvalidationPath "old_path" value.oldPath
    validateRequiredNonRootInvalidationPath "new_path" value.newPath
    validateRenamePaths value.oldPath value.newPath
  | .fullResync => .ok ()

def validateInvalidation (value : Invalidation) : Except ProtocolError Unit := do
  require (!value.namespaceName.isEmpty)
    (.invalidEnvelope "invalidation namespace must not be empty")
  let kind ← ofWire value.kind
  validateInvalidationPaths value kind
  validateOptionalPath value.path
  validateOptionalPath value.oldPath
  validateOptionalPath value.newPath

theorem ofWire_of_valid {value : Invalidation} (hValid : validateInvalidation value = .ok ()) :
    ∃ kind, ofWire value.kind = .ok kind := by
  have hRest := (check_bind_eq_ok.mp hValid).2
  cases hKind : ofWire value.kind with
  | error e =>
    rw [hKind] at hRest
    cases hRest
  | ok kind => exact ⟨kind, rfl⟩

theorem validateInvalidation_rename {value : Invalidation} (hName : value.namespaceName ≠ [])
    (hKind : value.kind = rename.wireValue) (hPath : value.path = [])
    (hPaths : validateRenamePaths value.oldPath value.newPath = .ok ()) :
    validateInvalidation value = .ok () := by
  obtain ⟨⟨hOld, hOldRoot⟩, ⟨hNew, hNewRoot⟩, -⟩ := validateRenamePaths_eq_ok.mp hPaths
  unfold validateInvalidation
  rw [hKind, ofWire_wireValue, hPath]
  refine check_bind_eq_ok.mpr ⟨require_eq_ok.mpr (by simpa using hName), ?_⟩
  change (validateInvalidationPaths value .rename >>= _) = _
  simp [validateInvalidationPaths, hPaths, validateRequiredNonRootInvalidationPath_ok _ hOld
    hOldRoot, validateRequiredNonRootInvalidationPath_ok _ hNew hNewRoot, validateOptionalPath_ok
    hOld, validateOptionalPath_ok hNew]

/-- `full_resync_invalidation`. -/
def fullResyncInvalidation (namespaceName requestId : Text) (sequence : Nat) : Invalidation :=
  ⟨namespaceName, sequence, fullResync.wireValue, [], [], [], 0, requestId⟩

def invalidationKindForEffect : OperationEffect → Option InvalidationKind
  | .contentMutation => some .modify
  | .createNode => some .create
  | .renameNode => some .rename
  | .deleteNode => some .delete
  | .metadataMutation => some .metadata
  | .xattrMutation => some .xattr
  | _ => none

def invalidationKindForRequest (payload : RequestPayload) : Option InvalidationKind :=
  if payload.truncates then some .modify else invalidationKindForEffect payload.operation.effect

theorem requiresPathInvalidation_iff (payload : RequestPayload) :
    payload.requiresPathInvalidation = (invalidationKindForRequest payload).isSome := by
  unfold requiresPathInvalidation invalidationKindForRequest
  split
  · rename_i h
    simp [h]
  · rename_i h
    rw [Bool.not_eq_true] at h
    rw [h, Bool.false_or]
    cases payload <;> rfl

/-- The path that a checked request hands to its invalidation. -/
theorem primaryPath_valid {payload : RequestPayload} {kind : InvalidationKind}
    (hValid : payload.validate = .ok ()) (hKind : invalidationKindForRequest payload = some kind)
    (hRename : kind ≠ .rename) :
    ∃ path, payload.primaryPath = some path ∧ validPath path = true ∧
      (kind = .create ∨ kind = .delete → path ≠ rootPath) := by
  cases payload <;>
    simp only [validate, invalidationKindForRequest, truncates,
      invalidationKindForEffect, Operation.effect, operation,
      primaryPath, Operation.primaryPathRole, pathForRole,
      check_bind_eq_ok, requiredPathValue_bind_eq_ok, validatePathField_eq_ok,
      validateNonRootPathField_eq_ok, validateHardlinkRequest, validateNonRootPathValue_eq_ok,
      validateSetattrRequest] at hValid hKind ⊢ <;>
    grind

theorem renamePaths_valid {payload : RequestPayload} (hValid : payload.validate = .ok ())
    (hKind : invalidationKindForRequest payload = some .rename) :
    ∃ oldPath newPath, payload = .rename (some oldPath) (some newPath) ∧
      validateRenamePaths oldPath newPath = .ok () := by
  cases payload <;>
    simp only [validate, invalidationKindForRequest, truncates,
      invalidationKindForEffect, Operation.effect, operation,
      requiredPathValue_bind_eq_ok] at hValid hKind ⊢ <;>
    grind

theorem effect_of_create {payload : RequestPayload}
    (hKind : invalidationKindForRequest payload = some .create) :
    payload.operation.effect = .createNode := by
  unfold invalidationKindForRequest invalidationKindForEffect at hKind
  split at hKind
  · cases hKind
  · split at hKind <;> first | assumption | cases hKind

theorem createdInode_of_valid {payload : ResponsePayload} (hValid : payload.validate = .ok ())
    (hEffect : payload.operation.effect = .createNode) :
    ∃ inode, payload.createdInode = some inode := by
  cases payload with
  | create attr | mkdir attr | symlink attr | hardlink attr =>
    cases attr with
    | none => cases hValid
    | some attr => exact ⟨attr.inode, rfl⟩
  | _ => cases hEffect

/-! ## Responses -/

/-- A response; the error number is that of the host. -/
structure ResponseEnvelope where
  protocolVersion : Nat
  requestId : Text
  operation : Operation
  namespaceName : Text
  deadlineUnixNanos : Nat
  ok : Bool
  errno : Option Nat
  payload : Option ResponsePayload
  invalidations : List Invalidation
  deriving DecidableEq, Repr

namespace ResponseEnvelope

def validateIdentityAndPayload (response : ResponseEnvelope) : Except ProtocolError Unit := do
  require (response.protocolVersion == currentVersion)
    (.unsupportedVersion response.protocolVersion)
  require (!response.requestId.isEmpty && !response.namespaceName.isEmpty)
    (.invalidEnvelope "request_id and namespace must not be empty")
  if response.ok then do
    require response.errno.isNone (.invalidResponseState "successful response must not carry errno")
    match response.payload with
    | none => .error (.invalidResponseState "missing success payload")
    | some payload => do
      require (payload.operation == response.operation)
        (.payloadMismatch response.operation payload.operation)
      payload.validate
  else do
    require response.payload.isNone (.invalidResponseState "error response must not carry payload")
    require (response.errno.any (· != 0)) (.invalidResponseState "missing error errno")

def validateIdentityAndPayloadForRequest (response : ResponseEnvelope)
    (request : RequestEnvelope) : Except ProtocolError Unit := do
  request.validate
  response.validateIdentityAndPayload
  require (response.requestId == request.requestId)
    (.invalidEnvelope "response request_id does not match request")
  require (response.namespaceName == request.namespaceName)
    (.invalidEnvelope "response namespace does not match request")
  require (response.operation == request.operation)
    (.invalidEnvelope "response operation does not match request")
  match response.payload with
  | some payload => payload.validateForRequest request.payload
  | none => .ok ()

def validateForRequest (response : ResponseEnvelope) (request : RequestEnvelope) :
    Except ProtocolError Unit := do
  response.validateIdentityAndPayloadForRequest request
  response.invalidations.forM validateInvalidation

def successFor (request : RequestEnvelope) (payload : ResponsePayload)
    (invalidations : List Invalidation) : Except ProtocolError ResponseEnvelope := do
  request.validate
  require (request.operation == payload.operation)
    (.payloadMismatch request.operation payload.operation)
  payload.validateForRequest request.payload
  let envelope : ResponseEnvelope :=
    ⟨currentVersion, request.requestId, request.operation, request.namespaceName,
      request.deadlineUnixNanos, true, none, some payload, invalidations⟩
  envelope.validateForRequest request
  pure envelope

/-- The text of the message is not kept. An empty id or namespace is replaced. -/
def failureFor (request : RequestEnvelope) (errno : Nat) : ResponseEnvelope where
  protocolVersion := currentVersion
  requestId :=
    if request.requestId.isEmpty then "malformed-request".toUTF8.toList else request.requestId
  operation := request.operation
  namespaceName :=
    if request.namespaceName.isEmpty then "malformed-namespace".toUTF8.toList
    else request.namespaceName
  deadlineUnixNanos := request.deadlineUnixNanos
  ok := false
  errno := some (if errno = 0 then 22 else errno)
  payload := none
  invalidations := []

end ResponseEnvelope

end FabricFs.Protocol
