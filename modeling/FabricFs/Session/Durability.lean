import FabricFs.Lib.Crash
import FabricFs.Session.Store

/-!
# Sessions on a disk that may fail and crash

`session_storage/durability.rs` for one session: the files of its directory, its names in
the directory of the sessions, its recovery record, and the programs that create, change,
delete, read and load it. Every primitive of the disk has a verdict: it works, it fails, or
the machine crashes there, and then each directory loses any of its latest entry changes
that were not synced.

The model follows one session. Other sessions use other names in the same two directories.
Files hold whole messages, since a file is synced before it is renamed; legacy metadata
files and checkpoints are left out, and the directories of the store itself are taken to be
on the disk for good.
-/

namespace FabricFs.Session.Durability

open Lib Lib.Prog Protocol Delayed

/-! ## What is on the disk -/

/-- The state of a session as its two files hold it. -/
structure Contents where
  overlay : SessionSnapshot
  password : PasswordRecord
  deriving DecidableEq, Repr

def storedStatus (overlay : SessionSnapshot) : Option PasswordStatus :=
  overlay.metadata.bind (·.password)

/-- The password status in the metadata is that of the record. -/
def Contents.Consistent (contents : Contents) : Prop :=
  storedStatus contents.overlay = some (passwordStatus contents.password) ∧
    (contents.password.isProtected = false → contents.password = unprotectedRecord)

inductive SessionFile where
  | overlay
  | password
  deriving DecidableEq, Repr

/-- The entries of a session's directory; the temporary files by name only. -/
structure SessionDirectory where
  overlay : Option SessionSnapshot := none
  password : Option PasswordRecord := none
  overlayTmp : Bool := false
  passwordTmp : Bool := false

namespace SessionDirectory

def setTmp (file : SessionFile) (present : Bool) (dir : SessionDirectory) : SessionDirectory :=
  match file with
  | .overlay => { dir with overlayTmp := present }
  | .password => { dir with passwordTmp := present }

/-- The temporary file is renamed. -/
def put (file : SessionFile) (contents : Contents) (dir : SessionDirectory) : SessionDirectory :=
  match file with
  | .overlay => { dir with overlay := some contents.overlay, overlayTmp := false }
  | .password => { dir with password := some contents.password, passwordTmp := false }

def unlink (file : SessionFile) (dir : SessionDirectory) : SessionDirectory :=
  match file with
  | .overlay => { dir with overlay := none }
  | .password => { dir with password := none }

end SessionDirectory

open SessionDirectory (setTmp put unlink)

/-- The names that one session has in the directory of the sessions: `id`, `.id.tmp` and
`.id.deleting`. -/
inductive Slot where
  | live
  | staging
  | deleting
  deriving DecidableEq, Repr

structure RootEntries where
  live : Option Nat := none
  staging : Option Nat := none
  deleting : Option Nat := none

namespace RootEntries

@[simp] def get (entries : RootEntries) : Slot → Option Nat
  | .live => entries.live
  | .staging => entries.staging
  | .deleting => entries.deleting

@[simp] def set (slot : Slot) (dir : Option Nat) (entries : RootEntries) : RootEntries :=
  match slot with
  | .live => { entries with live := dir }
  | .staging => { entries with staging := dir }
  | .deleting => { entries with deleting := dir }

end RootEntries

inductive PendingDirectorySync where
  | sessionDir
  | sessionsRoot
  deriving DecidableEq, Repr

inductive PendingDeleteStage where
  | liveRename
  | directoryRemoval
  | sessionsRootSync
  deriving DecidableEq, Repr

inductive SessionDurability where
  | clean
  | pendingSync (pending : PendingDirectorySync)
  | pendingDelete (stage : PendingDeleteStage)
  deriving DecidableEq, Repr

structure RecoveryRecord where
  contents : Contents
  durability : SessionDurability
  deriving DecidableEq, Repr

structure RecoveryEntries where
  record : Option RecoveryRecord := none
  recordTmp : Bool := false

/-- The directories, each with its unsynced changes. A directory keeps its number when it is
renamed. -/
structure SessionDisk where
  root : Delayed RootEntries
  recovery : Delayed RecoveryEntries
  dirs : Nat → Delayed SessionDirectory
  nextDir : Nat

/-- How many unsynced changes of each directory survive. -/
structure Loss where
  root : Nat
  recovery : Nat
  dirs : Nat → Nat

namespace SessionDisk

@[simp] def onRoot (f : Delayed RootEntries → Delayed RootEntries) (disk : SessionDisk) :
    SessionDisk :=
  { disk with root := f disk.root }

@[simp] def onRecovery (f : Delayed RecoveryEntries → Delayed RecoveryEntries)
    (disk : SessionDisk) : SessionDisk :=
  { disk with recovery := f disk.recovery }

@[simp] def onDir (dir : Nat) (f : Delayed SessionDirectory → Delayed SessionDirectory)
    (disk : SessionDisk) : SessionDisk :=
  { disk with dirs := fun n => if n = dir then f (disk.dirs n) else disk.dirs n }

/-- A new directory under a name. -/
def create (slot : Slot) (disk : SessionDisk) : SessionDisk where
  root := disk.root.change (RootEntries.set slot (some disk.nextDir))
  recovery := disk.recovery
  dirs n := if n = disk.nextDir then ⟨{}, []⟩ else disk.dirs n
  nextDir := disk.nextDir + 1

def crash (loss : Loss) (disk : SessionDisk) : SessionDisk where
  root := disk.root.crash loss.root
  recovery := disk.recovery.crash loss.recovery
  dirs n := (disk.dirs n).crash (loss.dirs n)
  nextDir := disk.nextDir

/-- The entries of the directory under a name. -/
def directory (slot : Slot) (disk : SessionDisk) : Option SessionDirectory :=
  (disk.root.current.get slot).map (fun dir => (disk.dirs dir).current)

def record (disk : SessionDisk) : Option RecoveryRecord := disk.recovery.current.record

end SessionDisk

open SessionDisk

/-! ## Programs -/

inductive Verdict where
  | works
  | fails
  | crashes (loss : Loss)

def Verdict.isFailure : Verdict → Bool
  | .fails => true
  | _ => false

structure LoadedSession where
  contents : Contents
  durability : SessionDurability

/-- The process is down, or it has loaded the store. -/
inductive Memory where
  | unloaded
  | loaded (session : Option LoadedSession)

def Memory.session : Memory → Option LoadedSession
  | .unloaded => none
  | .loaded session => session

/-- The verdicts are those of the primitives to come: `staging` for the primitives of
`stage_atomic_write` and for new directories, `commit` for all others. Two lists keep the
history: `possible` has the state that was last read and the states of the mutations
attempted since, `none` for a deletion; `held` has those of them that the disk may hold.
`answers` has what the calls have told about the session, with what was possible then. -/
structure StoreState where
  disk : SessionDisk
  memory : Memory
  possible : List (Option Contents)
  held : List (Option Contents)
  answers : List (Option Contents × List (Option Contents))
  staging : List Verdict
  commit : List Verdict

structure DurabilityEnv extends StoreEnv where
  sessionId : Text
  passwordFirst : Bool

abbrev StoreProg (α : Type) : Type := Prog DurabilityEnv StoreState (Stop SessionError) α

/-- The state after a crash. -/
def StoreState.crash (loss : Loss) (s : StoreState) : StoreState :=
  { s with disk := s.disk.crash loss, memory := .unloaded, staging := [], commit := [] }

/-- A primitive of `stage_atomic_write`. -/
def stagingTick : StoreProg Unit := fun _ s =>
  match s.staging with
  | [] => (.ok (), s)
  | .works :: rest => (.ok (), { s with staging := rest })
  | .fails :: rest => (.error (.fail .io), { s with staging := rest })
  | .crashes loss :: _ => (.error .crash, s.crash loss)

/-- Any other primitive. -/
def commitTick : StoreProg Unit := fun _ s =>
  match s.commit with
  | [] => (.ok (), s)
  | .works :: rest => (.ok (), { s with commit := rest })
  | .fails :: rest => (.error (.fail .io), { s with commit := rest })
  | .crashes loss :: _ => (.error .crash, s.crash loss)

def changeDisk (f : SessionDisk → SessionDisk) : StoreProg Unit :=
  change (fun s => { s with disk := f s.disk })

def setMemory (memory : Memory) : StoreProg Unit := change (fun s => { s with memory := memory })

def setSession (contents : Contents) (durability : SessionDurability) : StoreProg Unit :=
  setMemory (.loaded (some ⟨contents, durability⟩))

/-- A mutation is attempted. -/
def noteAttempt (contents : Option Contents) : StoreProg Unit :=
  change (fun s => { s with
    possible := s.possible ++ [contents], held := s.held ++ [contents] })

/-- A call tells the state of the session, or that there is none. -/
def noteAnswer (contents : Option Contents) : StoreProg Unit :=
  change (fun s => { s with answers := (contents, s.possible) :: s.answers })

/-- The session was read. -/
def noteRead (contents : Contents) : StoreProg Unit := do
  noteAnswer (some contents)
  change (fun s => { s with possible := [some contents], held := [some contents] })

/-- The disk holds one of these. -/
def noteHeld (held : List (Option Contents)) : StoreProg Unit :=
  change (fun s => { s with held := held })

inductive PersistenceOutcome where
  | durable
  | renamedNeedsDirectorySync
  deriving DecidableEq, Repr

def requireDurablePersistence : PersistenceOutcome → StoreProg Unit
  | .durable => pure ()
  | .renamedNeedsDirectorySync => fail .io

/-- The directory under a name; `create_dir_all` makes it if there is none. -/
def openOrCreate (slot : Slot) : StoreProg Nat := do
  let disk ← state (·.disk)
  match disk.root.current.get slot with
  | some dir => pure dir
  | none => do
    changeDisk (create slot)
    pure disk.nextDir

def openExisting (slot : Slot) : StoreProg Nat := do
  let disk ← state (·.disk)
  match disk.root.current.get slot with
  | some dir => pure dir
  | none => fail .io

def syncDirectory (f : SessionDisk → SessionDisk) : StoreProg Unit := do
  commitTick
  changeDisk f

def outcome : Except SessionError Unit → PersistenceOutcome
  | .ok _ => .durable
  | .error _ => .renamedNeedsDirectorySync

/-- `stage_atomic_write`: directory, file, contents, file sync, directory, directory sync. -/
def stageFile (slot : Slot) (file : SessionFile) : StoreProg Unit := do
  stagingTick
  let dir ← openOrCreate slot
  stagingTick
  changeDisk (onDir dir (change (setTmp file true)))
  stagingTick
  stagingTick
  stagingTick
  stagingTick
  changeDisk (onDir dir sync)

/-- `commit_atomic_write`: a failure to open the directory after the rename is an error. -/
def commitFile (slot : Slot) (file : SessionFile) (contents : Contents) :
    StoreProg PersistenceOutcome := do
  let dir ← openExisting slot
  commitTick
  changeDisk (onDir dir (change (put file contents)))
  commitTick
  let synced ← attempt (syncDirectory (onDir dir sync))
  pure (outcome synced)

def atomicWrite (slot : Slot) (file : SessionFile) (contents : Contents) :
    StoreProg PersistenceOutcome := do
  stageFile slot file
  commitFile slot file contents

def stageRecord : StoreProg Unit := do
  stagingTick
  stagingTick
  changeDisk (onRecovery (change (fun e => { e with recordTmp := true })))
  stagingTick
  stagingTick
  stagingTick
  stagingTick
  changeDisk (onRecovery sync)

def commitRecord (record : RecoveryRecord) : StoreProg PersistenceOutcome := do
  commitTick
  changeDisk (onRecovery (change (fun _ => ⟨some record, false⟩)))
  commitTick
  let synced ← attempt (syncDirectory (onRecovery sync))
  pure (outcome synced)

def clearRecoveryState : StoreProg Unit := do
  commitTick
  changeDisk (onRecovery (change (fun e => { e with record := none })))
  syncDirectory (onRecovery sync)

def persistRecoveryState (contents : Contents) (durability : SessionDurability) :
    StoreProg Unit := do
  stageRecord
  let written ← commitRecord ⟨contents, durability⟩
  requireDurablePersistence written

def armPreLiveRecoveryState (contents : Contents) (durability : SessionDurability) :
    StoreProg Unit := do
  match ← attempt (persistRecoveryState contents durability) with
  | .ok () => pure ()
  | .error e => do
    let _ ← attempt clearRecoveryState
    fail e

def unlinkFile (dir : Nat) (file : SessionFile) : StoreProg Unit := do
  commitTick
  changeDisk (onDir dir (change (unlink file)))

def removeTmp (dir : Nat) (file : SessionFile) : StoreProg Unit := do
  commitTick
  changeDisk (onDir dir (change (setTmp file false)))

/-- `remove_dir_all`, with the files in the order of the host. A directory that is not there
counts as removed. -/
def removeDirAll (slot : Slot) : StoreProg Unit := do
  let env ← ask
  let disk ← state (·.disk)
  match disk.root.current.get slot with
  | none => commitTick
  | some dir => do
    unlinkFile dir (if env.passwordFirst then .password else .overlay)
    unlinkFile dir (if env.passwordFirst then .overlay else .password)
    removeTmp dir .overlay
    removeTmp dir .password
    commitTick
    changeDisk (onRoot (change (RootEntries.set slot none)))

inductive DeleteBoundaryState where
  | preLive
  | quarantined
  | removed
  | ambiguous
  deriving DecidableEq, Repr

/-- `delete_boundary_state`. In the source a call of `path_exists` that fails answers `false`; here
both calls see what is there. -/
def deleteBoundaryState (disk : SessionDisk) : DeleteBoundaryState :=
  match disk.root.current.live, disk.root.current.deleting with
  | some _, none => .preLive
  | none, some _ => .quarantined
  | none, none => .removed
  | some _, some _ => .ambiguous

def recoveryRecordPrecedesLiveBoundary (durability : SessionDurability) (disk : SessionDisk) :
    Bool :=
  match durability with
  | .pendingSync .sessionDir =>
    (disk.directory .live).any (fun dir => dir.overlayTmp || dir.passwordTmp)
  | .pendingSync .sessionsRoot => disk.root.current.staging.isSome
  | .pendingDelete .liveRename => deleteBoundaryState disk = .preLive
  | .pendingDelete .directoryRemoval => deleteBoundaryState disk = .preLive
  | .clean => false
  | .pendingDelete .sessionsRootSync => false

def removeLiveTmp (file : SessionFile) : StoreProg Unit := do
  let disk ← state (·.disk)
  match disk.root.current.live with
  | some dir => removeTmp dir file
  | none => commitTick

/-- The files that a write has staged. -/
def removeStaged (durability : SessionDurability) : StoreProg Unit :=
  match durability with
  | .pendingSync .sessionDir => do
    removeLiveTmp .overlay
    removeLiveTmp .password
  | .pendingSync .sessionsRoot => removeDirAll .staging
  | .clean => pure ()
  | .pendingDelete _ => pure ()

def discardPreLiveRecoveryArtifacts (durability : SessionDurability) : StoreProg Unit := do
  removeStaged durability
  clearRecoveryState

/-- The sync that `settle_live_persistence` tries again. -/
def retrySync (pending : PendingDirectorySync) : StoreProg Unit :=
  match pending with
  | .sessionDir => do
    let dir ← openExisting .live
    syncDirectory (onDir dir sync)
  | .sessionsRoot => syncDirectory (onRoot sync)

/-- A live write that went through: the record goes, if there is one. -/
def completeSuccess (durability : SessionDurability) :
    StoreProg (Except SessionError Unit × SessionDurability) :=
  match durability with
  | .pendingSync _ => do
    match ← attempt clearRecoveryState with
    | .ok () => pure (.ok (), .clean)
    | .error e => pure (.error e, durability)
  | _ => pure (.ok (), .clean)

/-- The result and the durability that the session is left with. -/
def settleLivePersistence (contents : Contents) (durability : SessionDurability)
    (pending : PendingDirectorySync) (written : PersistenceOutcome) :
    StoreProg (Except SessionError Unit × SessionDurability) :=
  match written with
  | .durable => completeSuccess durability
  | .renamedNeedsDirectorySync => do
    match ← attempt (retrySync pending) with
    | .ok () => completeSuccess durability
    | .error e =>
      if durability = .pendingSync pending then pure (.error e, durability)
      else do
        match ← attempt (persistRecoveryState contents (.pendingSync pending)) with
        | .ok () => pure (.error e, .pendingSync pending)
        | .error e => pure (.error e, .pendingSync pending)

/-- What became of a write of a live file. -/
inductive LiveWrite where
  | applied (res : Except SessionError Unit) (durability : SessionDurability)
  | aborted (e : SessionError) (durability : SessionDurability)

/-- The abort of a write that did not cross the live boundary. -/
def abortPreLivePendingSync (pending : PendingDirectorySync) (e : SessionError) :
    StoreProg LiveWrite := do
  match ← attempt (discardPreLiveRecoveryArtifacts (.pendingSync pending)) with
  | .ok () => pure (.aborted e .clean)
  | .error cleanup => pure (.aborted cleanup (.pendingSync pending))

/-- `prepare_live_file_with_recovery` and `commit_prepared_live_file`, for a session with this
durability. -/
def writeWithRecovery (durability : SessionDurability) (file : SessionFile) (contents : Contents) :
    StoreProg LiveWrite := do
  match ← attempt (stageFile .live file) with
  | .error e => pure (.aborted e durability)
  | .ok () =>
    match ← attempt (armPreLiveRecoveryState contents (.pendingSync .sessionDir)) with
    | .error e => do
      -- `record_file.exists()`, which is taken to answer truly, as `path_exists` is
      let disk ← state (·.disk)
      if disk.record = none then
        let _ ← attempt (removeLiveTmp file)
        pure (.aborted e durability)
      else pure (.aborted e durability)
    | .ok () =>
      match ← attempt (commitFile .live file contents) with
      | .error e => abortPreLivePendingSync .sessionDir e
      | .ok written => do
        let settled ← settleLivePersistence contents (.pendingSync .sessionDir) .sessionDir written
        pure (.applied settled.1 settled.2)

/-! ## Loading -/

/-- The metadata with the status of the record. -/
def withStatus (overlay : SessionSnapshot) (password : PasswordRecord) : SessionSnapshot :=
  let status := some (passwordStatus password)
  { overlay with metadata := overlay.metadata.map ({ · with password := status }) }

/-- `load_live_session_state` for a directory with an overlay file. -/
def loadLive (sessionId : Text) (overlay : SessionSnapshot) (password : Option PasswordRecord) :
    Except SessionError Contents :=
  match password with
  | some record => .ok ⟨withStatus overlay record, record⟩
  | none =>
    if (storedStatus overlay).any (·.isProtected) then
      .error (.invalidRequest (text "password record missing for protected session " ++ sessionId))
    else .ok ⟨withStatus overlay unprotectedRecord, unprotectedRecord⟩

/-- The live directory must have an overlay file. -/
def loadLiveSession : StoreProg Contents := do
  let env ← ask
  let disk ← state (·.disk)
  match disk.directory .live with
  | some dir =>
    match dir.overlay with
    | some overlay =>
      match loadLive env.sessionId overlay dir.password with
      | .ok contents => pure contents
      | .error e => fail e
    | none => fail (.invalidRequest
        (text "legacy session metadata missing for session " ++ env.sessionId))
  | none => fail (.invalidRequest
      (text "legacy session metadata missing for session " ++ env.sessionId))

def LiveWrite.durability : LiveWrite → SessionDurability
  | .applied _ durability => durability
  | .aborted _ durability => durability

/-- A file is written again if it has to be; the result does not matter. -/
def completeFile (needed : Bool) (file : SessionFile) (contents : Contents)
    (durability : SessionDurability) : StoreProg SessionDurability :=
  if needed then do
    let written ← writeWithRecovery durability file contents
    pure written.durability
  else pure durability

/-- A session whose directory is loaded, with its files completed. -/
def loadExisting (dir : SessionDirectory) (overlay : SessionSnapshot) : StoreProg Unit := do
  let contents ← loadLiveSession
  let afterPassword ← completeFile (dir.password = none) .password contents .clean
  let afterStatus ← completeFile (storedStatus overlay ≠ some (passwordStatus contents.password))
    .overlay contents afterPassword
  setSession contents afterStatus
  noteHeld [some contents]

def loadNone : StoreProg Unit := do
  setMemory (.loaded none)
  noteHeld [none]

/-- `load_recovery_sessions`: a record that counts. -/
def loadRecoverySession : StoreProg (Option RecoveryRecord) := do
  let disk ← state (·.disk)
  match disk.record with
  | none => pure none
  | some record =>
    if recoveryRecordPrecedesLiveBoundary record.durability disk then do
      discardPreLiveRecoveryArtifacts record.durability
      pure none
    else pure (some record)

/-- `load_existing_sessions` for the session. -/
def load : StoreProg Unit := do
  match ← loadRecoverySession with
  | some record => do
    setSession record.contents record.durability
    match record.durability with
    | .pendingDelete _ => noteHeld [none]
    | _ => pure ()
  | none => do
    let disk ← state (·.disk)
    match disk.directory .live with
    | none => loadNone
    | some dir =>
      match dir.overlay with
      | none => loadNone
      | some overlay => loadExisting dir overlay

/-! ## New sessions -/

/-- Both files of a new session, written in a directory of their own. -/
def stageNewSession (contents : Contents) : StoreProg Unit := do
  let disk ← state (·.disk)
  onlyIf disk.root.current.staging.isSome (removeDirAll .staging)
  stagingTick
  let _ ← openOrCreate .staging
  let written ← attempt (do
    requireDurablePersistence (← atomicWrite .staging .password contents)
    requireDurablePersistence (← atomicWrite .staging .overlay contents))
  match written with
  | .ok () => pure ()
  | .error e => do
    let _ ← attempt (removeDirAll .staging)
    fail e

def commitNewSession : StoreProg PersistenceOutcome := do
  let dir ← openExisting .staging
  commitTick
  changeDisk (onRoot (change (fun entries => { entries with live := some dir, staging := none })))
  let synced ← attempt (syncDirectory (onRoot sync))
  pure (outcome synced)

/-- A new session is staged, journaled and renamed into place; a known one is a conflict. -/
def insertNewSession (contents : Contents) : StoreProg Unit := do
  let env ← ask
  let memory ← state (·.memory)
  let disk ← state (·.disk)
  if memory.session.isSome || (disk.directory .live).any (·.overlay.isSome) ||
      disk.root.current.deleting.isSome || disk.record.isSome then
    fail (.conflict (text "session " ++ env.sessionId ++ text " already exists"))
  else do
    noteAttempt (some contents)
    onlyIf disk.root.current.live.isSome (removeDirAll .live)
    stageNewSession contents
    match ← attempt (armPreLiveRecoveryState contents (.pendingSync .sessionsRoot)) with
    | .error e => do
      let disk ← state (·.disk)
      if disk.record = none then
        let _ ← attempt (removeDirAll .staging)
        fail e
      else fail e
    | .ok () =>
      match ← attempt commitNewSession with
      | .error e => do
        let _ ← abortPreLivePendingSync .sessionsRoot e
        fail e
      | .ok written => do
        let settled ← settleLivePersistence contents (.pendingSync .sessionsRoot) .sessionsRoot
          written
        setSession contents settled.2
        match settled.1 with
        | .ok () => pure ()
        | .error e => fail e

/-! ## Access -/

inductive SessionAccessOutcome where
  | accessible
  | deleted
  deriving DecidableEq, Repr

/-- The files of a session that waits for a sync are written again. -/
def rewriteSession (contents : Contents) (pending : PendingDirectorySync) :
    StoreProg PersistenceOutcome :=
  match pending with
  | .sessionDir => do
    requireDurablePersistence (← atomicWrite .live .password contents)
    atomicWrite .live .overlay contents
  | .sessionsRoot => do
    removeDirAll .live
    stageNewSession contents
    commitNewSession

/-- The files are written again and synced, and then the record goes. -/
def recoverPendingSync (contents : Contents) (pending : PendingDirectorySync) :
    StoreProg Unit := do
  let written ← rewriteSession contents pending
  let settled ← settleLivePersistence contents (.pendingSync pending) pending written
  setSession contents settled.2
  match settled.1 with
  | .error e => fail e
  | .ok () => do
    match ← attempt clearRecoveryState with
    | .ok () => pure ()
    | .error e => do
      setSession contents (.pendingSync pending)
      fail e

def reloadLive : StoreProg SessionAccessOutcome := do
  let contents ← loadLiveSession
  setSession contents .clean
  pure .accessible

/-- What a call does first: the work that the durability of the session still asks for. -/
def reconcileSessionDurability (session : LoadedSession) : StoreProg SessionAccessOutcome := do
  let env ← ask
  let disk ← state (·.disk)
  match session.durability with
  | .clean => pure .accessible
  | .pendingSync pending =>
    if recoveryRecordPrecedesLiveBoundary (.pendingSync pending) disk then do
      discardPreLiveRecoveryArtifacts (.pendingSync pending)
      match pending with
      | .sessionDir => reloadLive
      | .sessionsRoot => pure .deleted
    else do
      recoverPendingSync session.contents pending
      pure .accessible
  | .pendingDelete .sessionsRootSync => do
    syncDirectory (onRoot sync)
    clearRecoveryState
    pure .deleted
  | .pendingDelete stage =>
    match deleteBoundaryState disk with
    | .preLive => do
      discardPreLiveRecoveryArtifacts (.pendingDelete stage)
      reloadLive
    | .quarantined => fail .io
    | .removed => fail .io
    | .ambiguous => fail (.invalidRequest (text "session " ++ env.sessionId ++
        text " has both live and delete-quarantine directories present"))

def currentSession : StoreProg LoadedSession := do
  let env ← ask
  let memory ← state (·.memory)
  match memory with
  | .loaded (some session) => pure session
  | .loaded none => do
    noteAnswer none
    fail (.notFound env.sessionId)
  | .unloaded => fail .io

def reconcileSessionEntry : StoreProg SessionAccessOutcome := do
  let session ← currentSession
  let access ← reconcileSessionDurability session
  onlyIf (access = .deleted) (setMemory (.loaded none))
  pure access

/-- `enforce_password`. Sessions in memory have a password status, so there is none to write. -/
def enforcePassword (session : LoadedSession) (password : Option Text) : StoreProg Unit := do
  let env ← ask
  match verify env.toStoreEnv env.sessionId password session.contents.password with
  | .ok () => pure ()
  | .error e => fail e

/-- A session that reconciliation has deleted is not found. -/
def authorize (password : Option Text) : StoreProg LoadedSession := do
  let env ← ask
  let access ← reconcileSessionEntry
  if access = .deleted then do
    noteAnswer none
    fail (.notFound env.sessionId)
  else do
    let session ← currentSession
    enforcePassword session password
    pure session

/-- `get_snapshot`, `list_overlay` and `init_session`. From now on the session is what was
read, until a mutation is attempted. -/
def readSession (password : Option Text) : StoreProg Contents := do
  let session ← authorize password
  noteRead session.contents
  pure session.contents

/-- `list_sessions`, which asks for no password. A session that is not there is left out. -/
def listSessions : StoreProg (Option Contents) := do
  let memory ← state (·.memory)
  if memory.session = none then do
    noteAnswer none
    pure none
  else do
    let access ← reconcileSessionEntry
    if access = .deleted then do
      noteAnswer none
      pure none
    else do
      let session ← currentSession
      noteRead session.contents
      pure (some session.contents)

/-- A mutation of the overlay. It keeps the password status. -/
structure Mutation where
  apply : SessionSnapshot → Except SessionError SessionSnapshot
  keeps : ∀ overlay next, apply overlay = .ok next → storedStatus next = storedStatus overlay

/-- The new state is kept in memory only if the write was applied. -/
def updateSession (mutation : Mutation) (password : Option Text) : StoreProg Unit := do
  let session ← authorize password
  match mutation.apply session.contents.overlay with
  | .error e => fail e
  | .ok next => do
    let contents : Contents := ⟨next, session.contents.password⟩
    noteAttempt (some contents)
    match ← writeWithRecovery session.durability .overlay contents with
    | .applied res durability => do
      setSession contents durability
      match res with
      | .ok () => pure ()
      | .error e => fail e
    | .aborted e _ => fail e

/-! ## Deletion -/

def finalizeDeletedSession (contents : Contents) : StoreProg Unit := do
  match ← attempt (syncDirectory (onRoot sync)) with
  | .ok () => do
    clearRecoveryState
    setMemory (.loaded none)
    noteHeld [none]
  | .error e => do
    setSession contents (.pendingDelete .sessionsRootSync)
    persistRecoveryState contents (.pendingDelete .sessionsRootSync)
    fail e

def removeQuarantineDirectory (contents : Contents) : StoreProg Unit := do
  match ← attempt (removeDirAll .deleting) with
  | .ok () => finalizeDeletedSession contents
  | .error e => do
    setSession contents (.pendingDelete .directoryRemoval)
    fail e

/-- A rename that fails is undone, with its record; a failed cleanup keeps the durability. -/
def renameSessionIntoDeleteQuarantine (contents : Contents) : StoreProg Unit := do
  let env ← ask
  let disk ← state (·.disk)
  if disk.root.current.deleting.isSome then
    fail (.invalidRequest (text "session " ++ env.sessionId ++
      text " delete quarantine already exists"))
  else
    match ← attempt commitTick with
    | .ok () => do
      changeDisk (onRoot (change
        (fun entries => { entries with live := none, deleting := entries.live })))
      setSession contents (.pendingDelete .directoryRemoval)
    | .error e => do
      match ← attempt (discardPreLiveRecoveryArtifacts (.pendingDelete .liveRename)) with
      | .ok () => do
        setSession contents .clean
        fail e
      | .error cleanup => fail cleanup

def moveAndRemove (contents : Contents) : StoreProg Unit := do
  renameSessionIntoDeleteQuarantine contents
  removeQuarantineDirectory contents

/-- What `deleteSession` does with a session that is not being deleted. -/
abbrev deleteReconciled (password : Option Text) : StoreProg Unit := do
  let access ← reconcileSessionEntry
  if access = .deleted then pure ()
  else do
    let session ← currentSession
    enforcePassword session password
    noteHeld [some session.contents, none]
    armPreLiveRecoveryState session.contents (.pendingDelete .liveRename)
    setSession session.contents (.pendingDelete .liveRename)
    moveAndRemove session.contents

/-- `delete_session`: a deletion that has begun goes on from where the disk is. -/
def deleteSession (password : Option Text) : StoreProg Unit := do
  let env ← ask
  let session ← currentSession
  noteAttempt none
  match session.durability with
  | .pendingDelete .sessionsRootSync => finalizeDeletedSession session.contents
  | .pendingDelete _ => do
    let disk ← state (·.disk)
    match deleteBoundaryState disk with
    | .preLive => do
      enforcePassword session password
      moveAndRemove session.contents
    | .quarantined => do
      setSession session.contents (.pendingDelete .directoryRemoval)
      removeQuarantineDirectory session.contents
    | .removed => finalizeDeletedSession session.contents
    | .ambiguous => fail (.invalidRequest (text "session " ++ env.sessionId ++
        text " has both live and delete-quarantine directories present"))
  | _ => deleteReconciled password

end FabricFs.Session.Durability
