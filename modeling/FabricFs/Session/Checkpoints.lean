import FabricFs.Lib.Runs
import FabricFs.Session.Store

/-!
# Checkpoints and their files

`checkpoint` and `read_checkpoint` of `session_storage.rs` over a tree of files. The name of
a checkpoint that a client supplies is joined to the directory of the session's checkpoints
as it is, and the host then resolves the path.

* `readCheckpoint_eq_ok`: the two files of a checkpoint are looked up in one directory, the one that
  the front of the name leads to.
* `readCheckpoint_own`: in every state that the store reaches, what `read_checkpoint`
  returns was written for that session exactly if that directory is the session's own. For
  a name without a slash the result depends on the session's own data only.
* `readCheckpoint_crosses`: with a name that goes up, a session without a password reads the
  checkpoint of a protected one.
-/

namespace FabricFs.Session

open Lib Lib.Runs Protocol List Option

/-! ## Paths -/

/-- The parts of a path between its slashes. -/
def components : Text → List Text
  | [] => [[]]
  | c :: rest =>
    if c = slash then [] :: components rest
    else
      match components rest with
      | [] => [[c]]
      | first :: more => (c :: first) :: more

theorem components_of_no_slash {path : Text} (h : slash ∉ path) :
    components path = [path] := by
  induction path with
  | nil => rfl
  | cons c rest ih =>
    rw [mem_cons, not_or] at h
    rw [components, if_neg (Ne.symm h.1), ih h.2]

/-- A suffix without a slash belongs to the last part. -/
theorem components_append (path : Text) :
    ∃ front last, components path = front ++ [last] ∧
      ∀ suffix, slash ∉ suffix →
        components (path ++ suffix) = front ++ [last ++ suffix] := by
  induction path with
  | nil => exact ⟨[], [], rfl, fun suffix h => components_of_no_slash h⟩
  | cons c rest ih =>
    obtain ⟨front, last, hRest, hSuffix⟩ := ih
    by_cases hSlash : c = slash
    · refine ⟨[] :: front, last, ?_, fun suffix h => ?_⟩
      · rw [components, if_pos hSlash, hRest, cons_append]
      · rw [cons_append, components, if_pos hSlash, hSuffix suffix h, cons_append]
    · cases front with
      | nil =>
        refine ⟨[], c :: last, ?_, fun suffix h => ?_⟩
        · rw [components, if_neg hSlash, hRest]
          rfl
        · rw [cons_append, components, if_neg hSlash, hSuffix suffix h]
          rfl
      | cons first more =>
        refine ⟨(c :: first) :: more, last, ?_, fun suffix h => ?_⟩
        · rw [components, if_neg hSlash, hRest]
          rfl
        · rw [cons_append, components, if_neg hSlash, hSuffix suffix h]
          rfl

/-- The host's walk along a path: every directory on the way exists. -/
def walk (dirs : List (List Text)) : List Text → List Text → Option (List Text)
  | [], current => some current
  | part :: rest, current =>
    if current ∈ dirs then
      if part = [] ∨ part = text "." then walk dirs rest current
      else if part = text ".." then walk dirs rest current.dropLast
      else walk dirs rest (current ++ [part])
    else none

theorem walk_append (dirs : List (List Text)) (front rest current : List Text) :
    walk dirs (front ++ rest) current = (walk dirs front current).bind (walk dirs rest) := by
  induction front generalizing current with
  | nil => rfl
  | cons part front ih =>
    rw [cons_append, walk, walk]
    split
    · split
      · exact ih current
      · split
        · exact ih current.dropLast
        · exact ih (current ++ [part])
    · rfl

/-! ## The store -/

structure CheckpointMetadata where
  checkpointId : Text
  sessionId : Text
  label : Text
  createdAtUnixNanos : Int64
  deriving DecidableEq, Repr

/-- The encoding of messages, with files of type `β`. -/
structure Codec (β : Type) where
  encodeSnapshot : SessionSnapshot → β
  decodeSnapshot : β → Option SessionSnapshot
  decode_encodeSnapshot : ∀ snapshot, decodeSnapshot (encodeSnapshot snapshot) = some snapshot
  encodeMeta : CheckpointMetadata → β
  decodeMeta : β → Option CheckpointMetadata
  decode_encodeMeta : ∀ metadata, decodeMeta (encodeMeta metadata) = some metadata
  encodePassword : PasswordRecord → β

structure CheckpointEnv (β : Type) extends StoreEnv where
  sessionsRoot : List Text
  codec : Codec β

/-- The files of the host and its directories. -/
structure Disk (β : Type) where
  files : Dict (List Text) β
  dirs : List (List Text)

/-- A snapshot file that `checkpoint` has written. -/
structure Saved where
  sessionId : Text
  checkpointId : Text
  snapshot : SessionSnapshot

/-- A checkpoint that `checkpoint` has written as a whole. -/
structure Written where
  sessionId : Text
  metadata : CheckpointMetadata
  snapshot : SessionSnapshot

/-- The store with the history of its checkpoints. -/
structure CheckpointStore (β : Type) where
  sessions : Sessions
  disk : Disk β
  saved : List Saved
  written : List Written

variable {β : Type} (env : CheckpointEnv β)

variable {saved : List Saved} {written : List Written} {file : β} {store : CheckpointStore β}
  {sessionId checkpointId : Text}

def sessionDir (sessionId : Text) : List Text := env.sessionsRoot ++ [sessionId]

def checkpointsDir (sessionId : Text) : List Text :=
  sessionDir env sessionId ++ [text "checkpoints"]

/-- Where the host's walk along a client's name begins. -/
def walkStart (sessionId name : Text) : List Text :=
  if name.head? = some slash then [] else checkpointsDir env sessionId

/-- `fs::read` of a path that was joined to the directory of the checkpoints. -/
def readFile (disk : Disk β) (sessionId name : Text) : Except SessionError β :=
  if name.contains 0 then .error .io
  else
    match (walk disk.dirs (components name) (walkStart env sessionId name)).bind
      disk.files.lookup with
    | some file => .ok file
    | none => .error .io

def checkpointFile (checkpointId : Text) : Text := checkpointId ++ text ".pb"

def checkpointMetaFile (checkpointId : Text) : Text := checkpointId ++ text ".meta.pb"

/-- A message that decodes. -/
def decoded {α : Type} : Option α → Except SessionError α
  | some a => .ok a
  | none => .error .decode

/-- Both files are read and decoded, once the password has been accepted. -/
def readCheckpoint (sessionId checkpointId : Text) (password : Option Text)
    (store : CheckpointStore β) : Except SessionError (CheckpointMetadata × SessionSnapshot) :=
  match (authorizeSessionAccess env.toStoreEnv sessionId password store.sessions).1 with
  | .error e => .error e
  | .ok _ => do
    let snapshotBytes ← readFile env store.disk sessionId (checkpointFile checkpointId)
    let metaBytes ← readFile env store.disk sessionId (checkpointMetaFile checkpointId)
    let snapshot ← decoded (env.codec.decodeSnapshot snapshotBytes)
    let metadata ← decoded (env.codec.decodeMeta metaBytes)
    pure (metadata, snapshot)

/-- The steps of the store. A checkpoint gets a fresh identifier, and its writes may stop
after the first file or before it. -/
inductive StoreStep where
  | create (state : SessionState)
  | change (sessionId : Text) (state : SessionState)
  | checkpoint (sessionId : Text) (password : Option Text) (label uuid : Text) (now : Int64)
      (writes : Fin 3)
  | delete (sessionId : Text)

/-- The files of a session that hold its state. -/
def writeState (sessionId : Text) (state : SessionState) (files : Dict (List Text) β) :
    Dict (List Text) β :=
  (files.insert (sessionDir env sessionId ++ [text "overlay.pb"])
    (env.codec.encodeSnapshot (buildSnapshot state))).insert
    (sessionDir env sessionId ++ [text "password.pb"]) (env.codec.encodePassword state.password)

/-- One step of the store, with what it leaves on disk and the checkpoints saved so far. -/
def storeStep (step : StoreStep) (store : CheckpointStore β) : CheckpointStore β :=
  match step with
  | .create state =>
    let sessionId := state.metadata.sessionId
    if isValidSessionDirName sessionId ∧ store.sessions.lookup sessionId = none then
      { store with
        sessions := store.sessions.insert sessionId state
        disk := ⟨writeState env sessionId state store.disk.files,
          sessionDir env sessionId :: checkpointsDir env sessionId :: store.disk.dirs⟩ }
    else store
  | .change sessionId state =>
    if store.sessions.lookup sessionId = none then store
    else
      { store with
        sessions := store.sessions.insert sessionId state
        disk := { store.disk with files := writeState env sessionId state store.disk.files } }
  | .checkpoint sessionId password label uuid now writes =>
    match authorizeSessionAccess env.toStoreEnv sessionId password store.sessions with
    | (.error _, sessions) => { store with sessions := sessions }
    | (.ok state, sessions) =>
      let snapshot := buildSnapshot state
      let metadata : CheckpointMetadata := ⟨uuid, sessionId, label, now⟩
      let dirs := checkpointsDir env sessionId :: store.disk.dirs
      if writes = 0 then
        { store with sessions := sessions, disk := { store.disk with dirs := dirs } }
      else
        let files := store.disk.files.insert
          (checkpointsDir env sessionId ++ [checkpointFile uuid])
          (env.codec.encodeSnapshot snapshot)
        let saved := ⟨sessionId, uuid, snapshot⟩ :: store.saved
        if writes = 1 then
          { store with sessions := sessions, disk := ⟨files, dirs⟩, saved := saved }
        else
          { sessions := sessions
            disk := ⟨files.insert (checkpointsDir env sessionId ++ [checkpointMetaFile uuid])
              (env.codec.encodeMeta metadata), dirs⟩
            saved := saved
            written := ⟨sessionId, metadata, snapshot⟩ :: store.written }
  | .delete sessionId =>
    { store with
      sessions := store.sessions.erase sessionId
      disk := ⟨store.disk.files.retain (fun path => !(sessionDir env sessionId).isPrefixOf path),
        store.disk.dirs.filter (fun path => !(sessionDir env sessionId).isPrefixOf path)⟩ }

/-- A store without sessions. -/
def emptyStore : CheckpointStore β :=
  ⟨∅, ⟨∅, (List.range (env.sessionsRoot.length + 1)).map (env.sessionsRoot.take ·)⟩, [], []⟩

/-- The identifier of a new checkpoint, `Uuid::new_v4` as text, has no dot and is new. -/
def FreshId (step : StoreStep) (store : CheckpointStore β) : Prop :=
  match step with
  | .checkpoint _ _ _ uuid _ _ => 46 ∉ uuid ∧ ∀ saved ∈ store.saved, saved.checkpointId ≠ uuid
  | _ => True

instance (step : StoreStep) (store : CheckpointStore β) : Decidable (FreshId step store) := by
  cases step <;> unfold FreshId <;> infer_instance

/-! ## Which files there are -/

/-- A file of the store: one that holds the state of a session, or one of a checkpoint. -/
inductive KnownFile (saved : List Saved) (written : List Written) : List Text → β → Prop
  | state (sessionId name : Text) (file : β)
      (hName : name = text "overlay.pb" ∨ name = text "password.pb") :
      KnownFile saved written (sessionDir env sessionId ++ [name]) file
  | snapshot (entry : Saved) (hMem : entry ∈ saved) :
      KnownFile saved written
        (checkpointsDir env entry.sessionId ++ [checkpointFile entry.checkpointId])
        (env.codec.encodeSnapshot entry.snapshot)
  | metadata (entry : Written) (hMem : entry ∈ written) :
      KnownFile saved written
        (checkpointsDir env entry.sessionId ++ [checkpointMetaFile entry.metadata.checkpointId])
        (env.codec.encodeMeta entry.metadata)

structure StoreInv (store : CheckpointStore β) : Prop where
  files : ∀ path file, store.disk.files.lookup path = some file →
    KnownFile env store.saved store.written path file
  plain : ∀ saved ∈ store.saved, 46 ∉ saved.checkpointId
  unique : ∀ saved ∈ store.saved, ∀ other ∈ store.saved,
    saved.checkpointId = other.checkpointId → saved = other
  whole : ∀ written ∈ store.written, written.metadata.sessionId = written.sessionId ∧
    ⟨written.sessionId, written.metadata.checkpointId, written.snapshot⟩ ∈ store.saved

theorem storeInv_empty : StoreInv env (emptyStore env) where
  files _ _ h := by cases h
  plain _ h := by cases h
  unique _ h := by cases h
  whole _ h := by cases h

theorem KnownFile.mono {saved' : List Saved} {written' : List Written} {path : List Text}
    (h : KnownFile env saved written path file) (hSaved : saved ⊆ saved')
    (hWritten : written ⊆ written') :
    KnownFile env saved' written' path file := by
  cases h with
  | state sessionId name file hName => exact .state sessionId name file hName
  | snapshot entry hMem => exact .snapshot entry (hSaved hMem)
  | metadata entry hMem => exact .metadata entry (hWritten hMem)

theorem knownFile_insert {files : Dict (List Text) β} {newPath : List Text} {new : β}
    (hFiles : ∀ path file, files.lookup path = some file → KnownFile env saved written path file)
    (hNew : KnownFile env saved written newPath new) (path : List Text) (file : β)
    (hLookup : (files.insert newPath new).lookup path = some file) :
    KnownFile env saved written path file := by
  rw [Dict.lookup_insert_eq] at hLookup
  split at hLookup
  · rename_i hPath
    obtain rfl := some.inj hLookup
    exact hPath ▸ hNew
  · exact hFiles path file hLookup

theorem knownFile_writeState {files : Dict (List Text) β}
    (hFiles : ∀ path file, files.lookup path = some file → KnownFile env saved written path file)
    (sessionId : Text) (state : SessionState) (path : List Text) (file : β)
    (hLookup : (writeState env sessionId state files).lookup path = some file) :
    KnownFile env saved written path file :=
  knownFile_insert env (knownFile_insert env hFiles (.state sessionId _ _ (.inl rfl)))
    (.state sessionId _ _ (.inr rfl)) path file hLookup

/-- The first file of a checkpoint is written, under an identifier that is new. -/
theorem storeInv_snapshot (h : StoreInv env store) (sessionId : Text) {uuid : Text}
    (snapshot : SessionSnapshot) (hPlain : 46 ∉ uuid)
    (hNew : ∀ saved ∈ store.saved, saved.checkpointId ≠ uuid) (sessions : Dict Text SessionState)
    (dirs : List (List Text)) :
    StoreInv env ⟨sessions, ⟨store.disk.files.insert
      (checkpointsDir env sessionId ++ [checkpointFile uuid])
      (env.codec.encodeSnapshot snapshot), dirs⟩,
      ⟨sessionId, uuid, snapshot⟩ :: store.saved, store.written⟩ where
  files := knownFile_insert env
    (fun path file hLookup => (h.files path file hLookup).mono env (subset_cons_self _ _)
      (List.Subset.refl _))
    (.snapshot ⟨sessionId, uuid, snapshot⟩ mem_cons_self)
  plain saved hMem := by
    rcases mem_cons.1 hMem with rfl | hMem
    · exact hPlain
    · exact h.plain saved hMem
  unique saved hMem other hOther hSame := by
    rcases mem_cons.1 hMem with rfl | hMem <;>
      rcases mem_cons.1 hOther with rfl | hOther
    · rfl
    · exact absurd hSame.symm (hNew other hOther)
    · exact absurd hSame (hNew saved hMem)
    · exact h.unique saved hMem other hOther hSame
  whole written hMem :=
    ⟨(h.whole written hMem).1, mem_cons_of_mem _ (h.whole written hMem).2⟩

theorem storeInv_step {step : StoreStep} (h : StoreInv env store) (hFresh : FreshId step store) :
    StoreInv env (storeStep env step store) := by
  cases step with
  | create state =>
    simp only [storeStep]
    split
    · exact ⟨knownFile_writeState env h.files _ _, h.plain, h.unique, h.whole⟩
    · exact h
  | change sessionId state =>
    simp only [storeStep]
    split
    · exact h
    · exact ⟨knownFile_writeState env h.files _ _, h.plain, h.unique, h.whole⟩
  | delete sessionId =>
    refine ⟨fun path file hLookup => ?_, h.plain, h.unique, h.whole⟩
    simp only [storeStep, Dict.lookup_retain] at hLookup
    split at hLookup
    · exact h.files path file hLookup
    · cases hLookup
  | checkpoint sessionId password label uuid now writes =>
    simp only [storeStep]
    split
    · exact ⟨h.files, h.plain, h.unique, h.whole⟩
    · rename_i state sessions _
      have hSnapshot := storeInv_snapshot env h sessionId (buildSnapshot state) hFresh.1
        hFresh.2 sessions (checkpointsDir env sessionId :: store.disk.dirs)
      split
      · exact ⟨h.files, h.plain, h.unique, h.whole⟩
      · split
        · exact hSnapshot
        · refine ⟨knownFile_insert env (fun path file hLookup =>
            (hSnapshot.files path file hLookup).mono
            env (List.Subset.refl _) (subset_cons_self _ _)) (.metadata ⟨sessionId,
              ⟨uuid, sessionId, label, now⟩, buildSnapshot state⟩ mem_cons_self),
            hSnapshot.plain, hSnapshot.unique, fun written hMem => ?_⟩
          rcases mem_cons.1 hMem with rfl | hMem
          · exact ⟨rfl, mem_cons_self⟩
          · exact hSnapshot.whole written hMem

/-! ## Where a name leads -/

/-- The directory that the front of a client's name leads to. -/
def checkpointDirectory (disk : Disk β) (sessionId checkpointId : Text) : Option (List Text) :=
  walk disk.dirs (components checkpointId).dropLast (walkStart env sessionId checkpointId)

/-- The last part of a client's name. -/
def checkpointName (checkpointId : Text) : Text := ((components checkpointId).getLast?).getD []

/-- A file of a checkpoint is looked up in the directory that the front of the name leads to. -/
theorem readFile_append {disk : Disk β} {suffix : Text} (hSlash : slash ∉ suffix)
    (hLong : 3 ≤ suffix.length) :
    readFile env disk sessionId (checkpointId ++ suffix) =
      if (checkpointId ++ suffix).contains 0 then .error .io
      else
        match (checkpointDirectory env disk sessionId checkpointId).bind (fun directory =>
          if directory ∈ disk.dirs then
            disk.files.lookup (directory ++ [checkpointName checkpointId ++ suffix])
          else none) with
        | some file => .ok file
        | none => .error .io := by
  obtain ⟨front, last, hParts, hSuffix⟩ := components_append checkpointId
  have hStart : walkStart env sessionId (checkpointId ++ suffix) =
      walkStart env sessionId checkpointId := by
    cases checkpointId with
    | cons c rest => rfl
    | nil =>
      cases suffix with
      | nil => rfl
      | cons c rest =>
        have hc : c ≠ slash := fun hc => hSlash (hc ▸ mem_cons_self)
        simp [walkStart, hc]
  have hLast : checkpointName checkpointId = last := by simp [checkpointName, hParts]
  subst hLast
  -- a part with the suffix is longer than the special parts
  have hName : ∀ part : Text, part.length < 3 → checkpointName checkpointId ++ suffix ≠ part := by
    intro part hPart hEq
    have := congrArg List.length hEq
    rw [length_append] at this
    omega
  have hWalk : ∀ directory, walk disk.dirs [checkpointName checkpointId ++ suffix] directory =
      if directory ∈ disk.dirs then some (directory ++ [checkpointName checkpointId ++ suffix])
      else none := by
    intro directory
    rw [walk, if_neg (not_or.2 ⟨hName _ (by decide), hName _ (by decide +kernel)⟩),
      if_neg (hName _ (by decide +kernel)), walk]
  simp only [readFile, hStart, hSuffix suffix hSlash, walk_append, checkpointDirectory, hParts,
    dropLast_concat, bind_assoc, hWalk]
  congr 2
  cases walk disk.dirs front (walkStart env sessionId checkpointId) with
  | none => rfl
  | some directory =>
    simp only [bind_some]
    split <;> rfl

theorem readFile_eq_ok {disk : Disk β} {suffix : Text} (hSlash : slash ∉ suffix)
    (hLong : 3 ≤ suffix.length)
    (h : readFile env disk sessionId (checkpointId ++ suffix) = .ok file) :
    ∃ directory, checkpointDirectory env disk sessionId checkpointId = some directory ∧
      disk.files.lookup (directory ++ [checkpointName checkpointId ++ suffix]) = some file := by
  rw [readFile_append env hSlash hLong] at h
  split at h
  · cases h
  · cases hWalk : checkpointDirectory env disk sessionId checkpointId with
    | none =>
      rw [hWalk] at h
      cases h
    | some directory =>
      refine ⟨directory, rfl, ?_⟩
      simp only [hWalk, bind_some] at h
      split at h
      · rename_i hFound
        obtain rfl := Except.ok.inj h
        split at hFound
        · exact hFound
        · cases hFound
      · cases h

theorem decoded_eq_ok {α : Type} {o : Option α} {a : α} (h : decoded o = .ok a) : o = some a := by
  cases o with
  | none => cases h
  | some b => exact congrArg some (Except.ok.inj h)

/-- A successful `read_checkpoint` reads both files in one directory. -/
theorem readCheckpoint_eq_ok {password : Option Text} {metadata : CheckpointMetadata}
    {snapshot : SessionSnapshot}
    (h : readCheckpoint env sessionId checkpointId password store = .ok (metadata, snapshot)) :
    ∃ directory snapshotFile metaFile,
      checkpointDirectory env store.disk sessionId checkpointId = some directory ∧
      store.disk.files.lookup (directory ++ [checkpointFile (checkpointName checkpointId)]) =
        some snapshotFile ∧
      store.disk.files.lookup (directory ++ [checkpointMetaFile (checkpointName checkpointId)]) =
        some metaFile ∧
      env.codec.decodeSnapshot snapshotFile = some snapshot ∧
      env.codec.decodeMeta metaFile = some metadata := by
  unfold readCheckpoint at h
  split at h
  · cases h
  · obtain ⟨snapshotFile, hSnapshotFile, h₁⟩ := bind_eq_ok.1 h
    obtain ⟨metaFile, hMetaFile, h₂⟩ := bind_eq_ok.1 h₁
    obtain ⟨snapshot', hSnapshot, h₃⟩ := bind_eq_ok.1 h₂
    obtain ⟨metadata', hMeta, h₄⟩ := bind_eq_ok.1 h₃
    obtain ⟨rfl, rfl⟩ := Prod.mk.inj (Except.ok.inj h₄)
    obtain ⟨directory, hDirectory, hFile⟩ :=
      readFile_eq_ok env (by decide +kernel) (by decide +kernel) hSnapshotFile
    obtain ⟨directory', hDirectory', hFile'⟩ :=
      readFile_eq_ok env (by decide +kernel) (by decide +kernel) hMetaFile
    obtain rfl := some.inj (hDirectory.symm.trans hDirectory')
    exact ⟨directory, snapshotFile, metaFile, hDirectory, hFile, hFile', decoded_eq_ok hSnapshot,
      decoded_eq_ok hMeta⟩

/-! ## Whose checkpoint is read -/

/-- The names of the two files of checkpoints differ by more than their ends. -/
theorem checkpointMetaFile_eq (checkpointId : Text) :
    checkpointMetaFile checkpointId = checkpointFile (checkpointId ++ text ".meta") := by
  have hSuffix : text ".meta.pb" = text ".meta" ++ text ".pb" := by decide +kernel
  rw [checkpointMetaFile, checkpointFile, hSuffix, append_assoc]

theorem checkpointFile_inj {first second : Text}
    (h : checkpointFile first = checkpointFile second) :
    first = second :=
  append_cancel_right h

theorem dot_mem_meta (checkpointId : Text) : (46 : UInt8) ∈ checkpointId ++ text ".meta" :=
  mem_append_right _ (by decide +kernel)

/-- A metadata file is one of a checkpoint that was written as a whole. -/
theorem KnownFile.of_metaFile (hPlain : ∀ entry ∈ saved, 46 ∉ entry.checkpointId)
    {directory : List Text} {name : Text}
    (h : KnownFile env saved written (directory ++ [checkpointMetaFile name]) file) :
    ∃ entry ∈ written, directory = checkpointsDir env entry.sessionId ∧
      name = entry.metadata.checkpointId ∧ file = env.codec.encodeMeta entry.metadata := by
  generalize hPath : directory ++ [checkpointMetaFile name] = path at h
  cases h with
  | state sessionId other _ hOther =>
    have hSuffix : text ".meta.pb" <:+ other :=
      ⟨name, singleton_inj.1 (append_inj' hPath rfl).2⟩
    rcases hOther with rfl | rfl
    · exact absurd hSuffix (by decide +kernel)
    · exact absurd hSuffix (by decide +kernel)
  | snapshot entry hMem =>
    have hName := singleton_inj.1 (append_inj' hPath rfl).2
    rw [checkpointMetaFile_eq] at hName
    exact absurd (checkpointFile_inj hName ▸ dot_mem_meta name) (hPlain entry hMem)
  | metadata entry hMem =>
    obtain ⟨hDirectory, hName⟩ := append_inj' hPath rfl
    exact ⟨entry, hMem, hDirectory, append_cancel_right (singleton_inj.1 hName), rfl⟩

/-- A file beside it with the same name and the other ending is a snapshot. -/
theorem KnownFile.of_snapshotFile {name : Text} (hPlain : 46 ∉ name)
    (h : KnownFile env saved written (checkpointsDir env sessionId ++ [checkpointFile name]) file) :
    ∃ entry ∈ saved, entry.checkpointId = name ∧
      file = env.codec.encodeSnapshot entry.snapshot := by
  generalize hPath : checkpointsDir env sessionId ++ [checkpointFile name] = path at h
  cases h with
  | state other _ _ _ =>
    have hLength := congrArg List.length (append_inj' hPath rfl).1
    simp [checkpointsDir, sessionDir] at hLength
  | snapshot entry hMem =>
    have hName := singleton_inj.1 (append_inj' hPath rfl).2
    exact ⟨entry, hMem, (checkpointFile_inj hName).symm, rfl⟩
  | metadata entry hMem =>
    have hName := singleton_inj.1 (append_inj' hPath rfl).2
    rw [checkpointMetaFile_eq] at hName
    exact absurd (checkpointFile_inj hName ▸ dot_mem_meta _) hPlain

/-- What is read was written as a whole, for the session whose directory it is read from. -/
theorem readCheckpoint_written (hInv : StoreInv env store) {password : Option Text}
    {metadata : CheckpointMetadata} {snapshot : SessionSnapshot}
    (h : readCheckpoint env sessionId checkpointId password store = .ok (metadata, snapshot)) :
    ∃ entry ∈ store.written, entry.metadata = metadata ∧ entry.snapshot = snapshot ∧
      checkpointDirectory env store.disk sessionId checkpointId =
        some (checkpointsDir env entry.sessionId) := by
  obtain ⟨directory, snapshotFile, metaFile, hDirectory, hSnapshotFile, hMetaFile,
    hSnapshot, hMeta⟩ :=
    readCheckpoint_eq_ok env h
  obtain ⟨entry, hEntry, rfl, hName, rfl⟩ :=
    (hInv.files _ _ hMetaFile).of_metaFile env hInv.plain
  obtain ⟨-, hSaved⟩ := hInv.whole entry hEntry
  have hPlain : 46 ∉ checkpointName checkpointId := hName ▸ hInv.plain _ hSaved
  obtain ⟨saved, hMem, hId, rfl⟩ := (hInv.files _ _ hSnapshotFile).of_snapshotFile env hPlain
  have hSame := hInv.unique saved hMem _ hSaved (hId.trans hName)
  rw [env.codec.decode_encodeSnapshot] at hSnapshot
  rw [env.codec.decode_encodeMeta] at hMeta
  refine ⟨entry, hEntry, some.inj hMeta, ?_, hDirectory⟩
  rw [← some.inj hSnapshot, hSame]

/-- Two stores with the same session, and the same files in its directory of checkpoints. -/
structure SameOwn (sessionId : Text) (store other : CheckpointStore β) : Prop where
  session : store.sessions.lookup sessionId = other.sessions.lookup sessionId
  dir : checkpointsDir env sessionId ∈ store.disk.dirs ↔
    checkpointsDir env sessionId ∈ other.disk.dirs
  files : ∀ name, store.disk.files.lookup (checkpointsDir env sessionId ++ [name]) =
    other.disk.files.lookup (checkpointsDir env sessionId ++ [name])

theorem authorize_result_congr (env : StoreEnv) {sessions other : Sessions} (password : Option Text)
    (h : sessions.lookup sessionId = other.lookup sessionId) :
    (authorizeSessionAccess env sessionId password sessions).1 =
      (authorizeSessionAccess env sessionId password other).1 := by
  unfold authorizeSessionAccess
  rw [← h]
  cases sessions.lookup sessionId with
  | none => rfl
  | some state =>
    cases hStatus : state.metadata.password with
    | none =>
      simp only [hStatus]
      split <;> rfl
    | some status =>
      simp only [hStatus]
      split <;> rfl

theorem readFile_congr {other : CheckpointStore β} (suffix : Text)
    (hSame : SameOwn env sessionId store other) (hSlash : slash ∉ suffix)
    (hLong : 3 ≤ suffix.length)
    (hDirectory : checkpointDirectory env store.disk sessionId checkpointId = some (checkpointsDir
      env sessionId))
    (hOther : checkpointDirectory env other.disk sessionId checkpointId = some (checkpointsDir env
      sessionId)) :
    readFile env store.disk sessionId (checkpointId ++ suffix) =
      readFile env other.disk sessionId (checkpointId ++ suffix) := by
  simp only [readFile_append env hSlash hLong, hDirectory, hOther, bind_some, hSame.dir,
    hSame.files]

/-- A name without a slash stays in the directory of the session's checkpoints. -/
theorem checkpointDirectory_of_no_slash (disk : Disk β) (h : slash ∉ checkpointId) :
    checkpointDirectory env disk sessionId checkpointId = some (checkpointsDir env sessionId) := by
  have hHead : checkpointId.head? ≠ some slash := fun hHead => h (mem_of_head? hHead)
  rw [checkpointDirectory, components_of_no_slash h, walkStart, if_neg hHead]
  rfl

/-- In every state that the store reaches: what a client reads is a checkpoint of its own
session exactly if the name leads to the directory of that session's checkpoints, as every
name without a slash does; and such a read depends on nothing but the session and the files
in that directory. -/
theorem readCheckpoint_own (steps : List StoreStep)
    (hFresh : Along (storeStep env) FreshId steps (emptyStore env))
    (sessionId checkpointId : Text) (password : Option Text) :
    let store := run (storeStep env) steps (emptyStore env)
    (∀ metadata snapshot,
      readCheckpoint env sessionId checkpointId password store = .ok (metadata, snapshot) →
      ((∃ entry ∈ store.written, entry.sessionId = sessionId ∧ entry.metadata = metadata ∧
          entry.snapshot = snapshot) ↔
        checkpointDirectory env store.disk sessionId checkpointId =
          some (checkpointsDir env sessionId))) ∧
    (∀ other, SameOwn env sessionId store other →
      checkpointDirectory env store.disk sessionId checkpointId =
        some (checkpointsDir env sessionId) →
      checkpointDirectory env other.disk sessionId checkpointId =
        some (checkpointsDir env sessionId) →
      readCheckpoint env sessionId checkpointId password store =
        readCheckpoint env sessionId checkpointId password other) ∧
    (slash ∉ checkpointId → ∀ disk : Disk β,
      checkpointDirectory env disk sessionId checkpointId =
        some (checkpointsDir env sessionId)) := by
  intro store
  have hInv : StoreInv env store :=
    run_invariant (fun _ _ hInv hStep => storeInv_step env hInv hStep) (storeInv_empty env) hFresh
  refine ⟨fun metadata snapshot hRead => ?_, fun other hSame hDirectory hOther => ?_,
    fun hSlash disk => checkpointDirectory_of_no_slash env disk hSlash⟩
  · obtain ⟨entry, hEntry, hMeta, hSnapshot, hDirectory⟩ := readCheckpoint_written env hInv hRead
    constructor
    · rintro ⟨own, hOwn, rfl, hOwnMeta, -⟩
      -- the metadata names the session that it was written for
      have hSession : entry.sessionId = own.sessionId := by
        rw [← (hInv.whole entry hEntry).1, ← (hInv.whole own hOwn).1, hMeta, hOwnMeta]
      rw [hDirectory, hSession]
    · intro hOwn
      have hSession : entry.sessionId = sessionId := by
        simpa [checkpointsDir, sessionDir] using hDirectory.symm.trans hOwn
      exact ⟨entry, hEntry, hSession, hMeta, hSnapshot⟩
  · simp only [readCheckpoint, authorize_result_congr env.toStoreEnv password hSame.session,
      checkpointFile, checkpointMetaFile,
      readFile_congr env (text ".pb") hSame (by decide +kernel) (by decide +kernel) hDirectory
        hOther,
      readFile_congr env (text ".meta.pb") hSame (by decide +kernel) (by decide +kernel)
        hDirectory hOther]

/-- Files as the messages that they hold. -/
inductive SampleFile where
  | snapshot (snapshot : SessionSnapshot)
  | metadata (metadata : CheckpointMetadata)
  | password (record : PasswordRecord)

def sampleCodec : Codec SampleFile where
  encodeSnapshot := .snapshot
  decodeSnapshot
    | .snapshot snapshot => some snapshot
    | _ => none
  decode_encodeSnapshot _ := rfl
  encodeMeta := .metadata
  decodeMeta
    | .metadata metadata => some metadata
    | _ => none
  decode_encodeMeta _ := rfl
  encodePassword := .password

def sampleCheckpointEnv : CheckpointEnv SampleFile where
  host := ⟨text "/cow", some⟩
  argon2 password _ := some password
  cowRootText := text "/cow"
  sessionsRoot := [text "cow", text ".fabricfs", text "sessions"]
  codec := sampleCodec

def sampleSession (sessionId : Text) (password : PasswordRecord) : SessionState :=
  ⟨⟨sessionId, [], [], text "/cow", some (passwordStatus password), 1, 1, 1⟩, password, ∅⟩

/-- A session without a password, a protected one, and a checkpoint of the latter. -/
def sampleSteps : List StoreStep :=
  [.create (sampleSession (text "a") unprotectedRecord),
   .create (sampleSession (text "b")
     ⟨true, currentAlgorithm, [1, 2, 3, 4, 5, 6, 7, 8], text "secret"⟩),
   .checkpoint (text "b") (some (text "secret")) [] (text "u") 2 2]

def sampleStore : CheckpointStore SampleFile :=
  run (storeStep sampleCheckpointEnv) sampleSteps (emptyStore sampleCheckpointEnv)

/-- The protected session reads the checkpoint that was written for it. -/
theorem readCheckpoint_own_by_name :
    ∃ metadata snapshot, readCheckpoint sampleCheckpointEnv (text "b") (text "u")
        (some (text "secret")) sampleStore = .ok (metadata, snapshot) ∧
      ∃ entry ∈ sampleStore.written, entry.sessionId = text "b" ∧ entry.metadata = metadata ∧
        entry.snapshot = snapshot := by
  have hOk : (readCheckpoint sampleCheckpointEnv (text "b") (text "u") (some (text "secret"))
    sampleStore).isOk = true := by decide +kernel
  have hOwn := readCheckpoint_own sampleCheckpointEnv sampleSteps (by decide +kernel) (text "b")
    (text "u") (some (text "secret"))
  cases hRead : readCheckpoint sampleCheckpointEnv (text "b") (text "u") (some (text "secret"))
      sampleStore with
  | error e =>
    rw [hRead] at hOk
    cases hOk
  | ok result =>
    obtain ⟨metadata, snapshot⟩ := result
    exact ⟨metadata, snapshot, rfl,
      (hOwn.1 metadata snapshot hRead).2 (hOwn.2.2 (by decide +kernel) sampleStore.disk)⟩

/-- Without a password the protected session cannot be read. The session without a password,
which has no checkpoints, reads the checkpoint of the protected one under a name that goes up
and under one that starts at the root. -/
theorem readCheckpoint_crosses :
    let read sessionId checkpointId :=
      (readCheckpoint sampleCheckpointEnv sessionId checkpointId none sampleStore).map
        (fun result => (result.1.checkpointId, result.1.sessionId,
          result.2.metadata.map (·.sessionId)))
    read (text "b") (text "u") = .error (.unauthorized (text "b")) ∧
      (∀ entry ∈ sampleStore.written, entry.sessionId ≠ text "a") ∧
      read (text "a") (text "../../b/checkpoints/u") = .ok (text "u", text "b", some (text "b")) ∧
      read (text "a") (text "/cow/.fabricfs/sessions/b/checkpoints/u") =
        .ok (text "u", text "b", some (text "b")) := by
  decide +kernel

end FabricFs.Session
