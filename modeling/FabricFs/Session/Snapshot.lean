import FabricFs.Lib.Runs
import FabricFs.Lib.Dict
import FabricFs.Protocol.Path

/-!
# Sessions and their overlays

The messages of the session protocol that hold the state of a session, and what
`session_storage.rs` computes from them: the snapshot of a session, an overlay update, and
the import of a snapshot into an existing session. Overlay versions are the 64-bit integers
of the source; `+ 1` is computed as a release build computes it, where it wraps.
-/

namespace FabricFs.Session

open Lib Protocol

/-- The bytes of a text literal. -/
def text (s : String) : Text := s.toUTF8.toList

/-! ## Messages -/

structure OverlayOrigin where
  sessionId : Text
  checkpointId : Text
  deriving DecidableEq, Repr

structure AliasEntry where
  logicalPath : Text
  targetPath : Text
  createdAtUnixNanos : Int64
  origin : Option OverlayOrigin
  deriving DecidableEq, Repr

structure Tombstone where
  logicalPath : Text
  createdAtUnixNanos : Int64
  origin : Option OverlayOrigin
  deriving DecidableEq, Repr

inductive EntryKind where
  | aliasEntry (value : AliasEntry)
  | tombstone (value : Tombstone)
  deriving DecidableEq, Repr

structure OverlayEntry where
  logicalPath : Text
  kind : Option EntryKind
  deriving DecidableEq, Repr

structure PasswordStatus where
  isProtected : Bool
  algorithm : Text
  deriving DecidableEq, Repr

structure PasswordRecord where
  isProtected : Bool
  algorithm : Text
  salt : List UInt8
  hash : List UInt8
  deriving DecidableEq, Repr

structure SessionMetadata where
  sessionId : Text
  displayName : Text
  workspaceName : Text
  cowRoot : Text
  password : Option PasswordStatus
  createdAtUnixNanos : Int64
  updatedAtUnixNanos : Int64
  overlayVersion : Int64
  deriving DecidableEq, Repr

structure SessionSnapshot where
  metadata : Option SessionMetadata
  entries : List OverlayEntry
  overlayVersion : Int64
  deriving DecidableEq, Repr

inductive SessionError where
  | notFound (sessionId : Text)
  | unauthorized (sessionId : Text)
  | invalidRequest (message : Text)
  | conflict (message : Text)
  | versionMismatch (expected found : Int64)
  | passwordHash
  | io
  | decode
  deriving DecidableEq, Repr

/-! ## The state of a session -/

/-- A `HashMap` from logical paths to entries. -/
abbrev Overlay : Type := Dict Text OverlayEntry

structure SessionState where
  metadata : SessionMetadata
  password : PasswordRecord
  overlay : Overlay

def buildSnapshot (state : SessionState) : SessionSnapshot where
  metadata := some state.metadata
  entries := state.overlay.entries.map (·.2)
  overlayVersion := state.metadata.overlayVersion

/-- A later entry replaces an earlier one of the same path. -/
def entriesToMap (entries : List OverlayEntry) : Overlay :=
  entries.foldl (fun overlay entry => overlay.insert entry.logicalPath entry) ∅

def entriesEqual (a b : OverlayEntry) : Bool :=
  a.logicalPath == b.logicalPath &&
    match a.kind, b.kind with
    | some (.aliasEntry x), some (.aliasEntry y) => x.targetPath == y.targetPath
    | some (.tombstone _), some (.tombstone _) => true
    | _, _ => false

/-! ## Overlay updates -/

structure UpdateOverlayRequest where
  addAliases : List AliasEntry
  addTombstones : List Tombstone
  removeAliasPaths : List Text
  removeTombstonePaths : List Text
  deriving DecidableEq, Repr

/-- `i64::saturating_add(1)`. -/
def saturatingSucc (version : Int64) : Int64 :=
  if version = Int64.maxValue then version else version + 1

/-- A time stamp of zero stands for the current time. -/
def stamped (createdAt now : Int64) : Int64 := if createdAt = 0 then now else createdAt

def insertAlias (now : Int64) (overlay : Overlay) (entry : AliasEntry) : Overlay :=
  overlay.insert entry.logicalPath
    ⟨entry.logicalPath, some (.aliasEntry
      { entry with createdAtUnixNanos := stamped entry.createdAtUnixNanos now })⟩

def insertTombstone (now : Int64) (overlay : Overlay) (entry : Tombstone) : Overlay :=
  overlay.insert entry.logicalPath
    ⟨entry.logicalPath, some (.tombstone
      { entry with createdAtUnixNanos := stamped entry.createdAtUnixNanos now })⟩

/-- The state that `update_overlay` commits. -/
def updateOverlay (request : UpdateOverlayRequest) (now : Int64) (state : SessionState) :
    SessionState :=
  let overlay := request.removeAliasPaths.foldl (fun overlay path => overlay.erase path)
    state.overlay
  let overlay := request.removeTombstonePaths.foldl (fun overlay path => overlay.erase path) overlay
  let overlay := request.addAliases.foldl (insertAlias now) overlay
  let overlay := request.addTombstones.foldl (insertTombstone now) overlay
  { state with
    overlay := overlay
    metadata := { state.metadata with
      overlayVersion := saturatingSucc state.metadata.overlayVersion
      updatedAtUnixNanos := now } }

/-! ## Imports into an existing session -/

inductive ImportMode where
  | replace | merge
  deriving DecidableEq, Repr

inductive ConflictPolicy where
  | error | keepLocal | overwriteRemote
  deriving DecidableEq, Repr

/-- The canonical root of the store and the host's `canonicalize`. -/
structure Host where
  cowRoot : Text
  canonicalize : Text → Option Text

def mergeEntry (policy : ConflictPolicy) (overlay : Overlay) (entry : OverlayEntry) :
    Except SessionError Overlay :=
  match overlay.lookup entry.logicalPath with
  | none => .ok (overlay.insert entry.logicalPath entry)
  | some existing =>
    if entriesEqual existing entry then .ok overlay
    else
      match policy with
      | .error => .error (.conflict (text "overlay entry conflict at " ++ entry.logicalPath))
      | .keepLocal => .ok overlay
      | .overwriteRemote => .ok (overlay.insert entry.logicalPath entry)

/-- The overlay and the version after the import. -/
def importedOverlay (mode : ImportMode) (policy : ConflictPolicy) (snapshot : SessionSnapshot)
    (state : SessionState) : Except SessionError (Overlay × Int64) :=
  let version := state.metadata.overlayVersion
  let incoming := entriesToMap snapshot.entries
  match mode with
  | .replace => .ok (incoming, max (version + 1) snapshot.overlayVersion)
  | .merge => do
    let overlay ← (incoming.entries.map (·.2)).foldlM (mergeEntry policy) state.overlay
    pure (overlay, max version snapshot.overlayVersion + 1)

/-- The state that `import_snapshot_into_existing` commits. -/
def importSnapshotIntoExisting (host : Host) (snapshot : SessionSnapshot) (mode : ImportMode)
    (policy : ConflictPolicy) (expectedOverlayVersion : Option Int64) (now : Int64)
    (state : SessionState) : Except SessionError SessionState :=
  match snapshot.metadata with
  | none => .error (.invalidRequest (text "snapshot missing metadata"))
  | some metadata =>
    match host.canonicalize metadata.cowRoot with
    | none => .error (.invalidRequest (text "snapshot cow_root invalid"))
    | some cowRoot =>
      if cowRoot ≠ host.cowRoot then
        .error (.invalidRequest (text "snapshot cow_root does not match server"))
      else
        let found := state.metadata.overlayVersion
        match expectedOverlayVersion.filter (fun expected => 0 ≤ expected && expected != found) with
        | some expected => .error (.versionMismatch expected found)
        | none => do
          let (overlay, version) ← importedOverlay mode policy snapshot state
          pure { state with
            overlay := overlay
            metadata := { state.metadata with
              overlayVersion := version
              updatedAtUnixNanos := now } }

end FabricFs.Session
