import FabricFs.Session.Snapshot

/-!
# The session store

`session_storage.rs` as far as every write is durable: the sessions in memory, what is
persisted for each of them, passwords, and the creation of a session from a snapshot. The
hash function and the random salts belong to the environment.
-/

namespace FabricFs.Session

open Lib Protocol List

/-! ## Session identifiers -/

/-- What is between the two ends of a text, if it has them. -/
def stripAround (front back : Text) (value : Text) : Option Text :=
  (stripPrefix front value).bind (fun rest =>
    (stripPrefix back.reverse rest.reverse).map List.reverse)

def recoveryDirName : Text := text ".recovery"

def isStagingSessionDirName (sessionId : Text) : Bool :=
  match stripAround (text ".") (text ".tmp") sessionId with
  | some value => !value.isEmpty
  | none => false

def isDeleteQuarantineSessionDirName (sessionId : Text) : Bool :=
  match stripAround (text ".") (text ".deleting") sessionId with
  | some value => !value.isEmpty
  | none => false

def isValidSessionDirName (sessionId : Text) : Bool :=
  !sessionId.isEmpty && sessionId != text "." && sessionId != text ".." &&
    sessionId != recoveryDirName && !sessionId.contains slash &&
    !isStagingSessionDirName sessionId && !isDeleteQuarantineSessionDirName sessionId

def validateSessionId (sessionId : Text) : Except SessionError Unit :=
  if isValidSessionDirName sessionId then .ok ()
  else .error (.invalidRequest (text "invalid session identifier: " ++ sessionId))

/-! ## Passwords -/

/-- What the store depends on: the host, Argon2 with the parameters of the store, and the
text under which the root is recorded. -/
structure StoreEnv where
  host : Host
  argon2 : Text → List UInt8 → Option (List UInt8)
  cowRootText : Text

def currentAlgorithm : Text := text "argon2id"

def maxPasswordLen : Nat := 1024

def unprotectedRecord : PasswordRecord := ⟨false, [], [], []⟩

def passwordStatus (record : PasswordRecord) : PasswordStatus :=
  ⟨record.isProtected, if record.isProtected then record.algorithm else []⟩

def argon2Hash (env : StoreEnv) (password : Text) (salt : List UInt8) :
    Except SessionError (List UInt8) :=
  match env.argon2 password salt with
  | some hash => .ok hash
  | none => .error .passwordHash

/-- No password and the empty password leave the session unprotected. -/
def buildRecord (env : StoreEnv) (salt : List UInt8) (password : Option Text) :
    Except SessionError PasswordRecord :=
  match password with
  | none => .ok unprotectedRecord
  | some value =>
    if value.isEmpty then .ok unprotectedRecord
    else if value.length > maxPasswordLen then
      .error (.invalidRequest (text "password too long"))
    else do
      let hash ← argon2Hash env value salt
      pure ⟨true, currentAlgorithm, salt, hash⟩

/-- A password is compared by its hash, and only if the record is complete. -/
def verify (env : StoreEnv) (sessionId : Text) (provided : Option Text)
    (record : PasswordRecord) : Except SessionError Unit :=
  if !record.isProtected then .ok ()
  else
    match provided with
    | none => .error (.unauthorized sessionId)
    | some value =>
      if record.algorithm ≠ currentAlgorithm then
        .error (.invalidRequest (text "unsupported password algorithm: " ++ record.algorithm))
      else if record.salt.length < 8 ∨ record.hash = [] then
        .error (.invalidRequest (text "password metadata incomplete"))
      else do
        let candidate ← argon2Hash env value record.salt
        if candidate = record.hash then .ok () else .error (.unauthorized sessionId)

/-! ## What is persisted -/

/-- The contents of `overlay.pb` and `password.pb`. -/
structure SessionFiles where
  overlay : SessionSnapshot
  password : Option PasswordRecord

def persist (state : SessionState) : SessionFiles := ⟨buildSnapshot state, some state.password⟩

/-- `load_live_session_state` for a session directory that has an overlay file. -/
def loadLiveSessionState (sessionId : Text) (files : SessionFiles) :
    Except SessionError SessionState :=
  match files.overlay.metadata with
  | none => .error (.invalidRequest
      (text "legacy session metadata missing for session " ++ sessionId))
  | some metadata =>
    if files.overlay.overlayVersion ≠ metadata.overlayVersion then
      .error (.invalidRequest
        (text "authoritative overlay snapshot version mismatch for session " ++ sessionId))
    else do
      validateSessionId metadata.sessionId
      if metadata.sessionId ≠ sessionId then
        .error (.invalidRequest (text "session directory " ++ sessionId ++
          text " metadata session_id " ++ metadata.sessionId ++ text " mismatch"))
      else
        let loaded := fun record : PasswordRecord => (⟨{ metadata with
          password := some (passwordStatus record) }, record,
          entriesToMap files.overlay.entries⟩ : SessionState)
        match files.password with
        | some record => .ok (loaded record)
        | none =>
          if metadata.password.any (·.isProtected) then
            .error (.invalidRequest
              (text "password record missing for protected session " ++ sessionId))
          else .ok (loaded unprotectedRecord)

/-- The sessions of the store; every one of them is persisted. -/
abbrev Sessions : Type := Dict Text SessionState

/-- The sessions after a restart. -/
def restart (sessions : Sessions) : Except SessionError Sessions :=
  sessions.entries.foldlM (fun (loaded : Sessions) entry => do
    let state ← loadLiveSessionState entry.1 (persist entry.2)
    pure (loaded.insert entry.1 state)) ∅

/-! ## Access and creation -/

/-- `authorize_session_access` with `enforce_password`. -/
def authorizeSessionAccess (env : StoreEnv) (sessionId : Text) (password : Option Text)
    (sessions : Sessions) : Except SessionError SessionState × Sessions :=
  match sessions.lookup sessionId with
  | none => (.error (.notFound sessionId), sessions)
  | some state =>
    let (state, sessions) :=
      match state.metadata.password with
      | some _ => (state, sessions)
      | none =>
        let state := { state with metadata := { state.metadata with
          password := some (passwordStatus state.password) } }
        (state, sessions.insert sessionId state)
    match verify env state.metadata.sessionId password state.password with
    | .error e => (.error e, sessions)
    | .ok () => (.ok state, sessions)

def getSnapshot (env : StoreEnv) (sessionId : Text) (password : Option Text)
    (sessions : Sessions) : Except SessionError SessionSnapshot × Sessions :=
  match authorizeSessionAccess env sessionId password sessions with
  | (.error e, sessions) => (.error e, sessions)
  | (.ok state, sessions) => (.ok (buildSnapshot state), sessions)

def validateCowRoot (env : StoreEnv) (cowRoot : Text) (invalidMessage : Text) :
    Except SessionError Unit :=
  if cowRoot.isEmpty then .error (.invalidRequest (text "cow_root is required"))
  else
    match env.host.canonicalize cowRoot with
    | none => .error (.invalidRequest invalidMessage)
    | some requestedRoot =>
      if requestedRoot ≠ env.host.cowRoot then
        .error (.invalidRequest (text "cow_root " ++ requestedRoot ++
          text " does not match server root " ++ env.host.cowRoot))
      else .ok ()

/-- The password of a session that is created from a snapshot. -/
def chosenPassword (password : Option Text) (metadata : SessionMetadata) :
    Except SessionError (Option Text) :=
  match password with
  | some value => .ok (some value)
  | none =>
    if metadata.password.any (·.isProtected) then
      .error (.invalidRequest (text "protected snapshot import requires password"))
    else .ok none

/-- The checks and the state of `create_session_from_snapshot_with_id`. -/
def sessionFromSnapshot (env : StoreEnv) (salt : List UInt8) (now : Int64) (sessionId : Text)
    (snapshot : SessionSnapshot) (displayName : Option Text) (password : Option Text) :
    Except SessionError SessionState :=
  match snapshot.metadata with
  | none => .error (.invalidRequest (text "snapshot missing metadata"))
  | some metadata => do
    validateCowRoot env metadata.cowRoot (text "snapshot cow_root invalid")
    let chosen ← chosenPassword password metadata
    let record ← buildRecord env salt chosen
    pure {
      metadata := {
        sessionId := sessionId
        displayName := displayName.getD metadata.displayName
        workspaceName := metadata.workspaceName
        cowRoot := env.cowRootText
        password := some (passwordStatus record)
        createdAtUnixNanos := now
        updatedAtUnixNanos := now
        overlayVersion := snapshot.overlayVersion }
      password := record
      overlay := entriesToMap snapshot.entries }

/-- `insert_new_session`, when every write is durable. -/
def insertNewSession (state : SessionState) (sessions : Sessions) :
    Except SessionError SessionMetadata × Sessions :=
  match validateSessionId state.metadata.sessionId with
  | .error e => (.error e, sessions)
  | .ok () =>
    match sessions.lookup state.metadata.sessionId with
    | some _ =>
      (.error (.conflict (text "session " ++ state.metadata.sessionId ++ text " already exists")),
        sessions)
    | none => (.ok state.metadata, sessions.insert state.metadata.sessionId state)

def createSessionFromSnapshotWithId (env : StoreEnv) (salt : List UInt8) (now : Int64)
    (sessionId : Text) (snapshot : SessionSnapshot) (displayName password : Option Text)
    (sessions : Sessions) : Except SessionError SessionMetadata × Sessions :=
  match sessionFromSnapshot env salt now sessionId snapshot displayName password with
  | .error e => (.error e, sessions)
  | .ok state => insertNewSession state sessions

/-! ## Well-formed stores -/

/-- Every entry is stored under its logical path. -/
def Keyed (overlay : Overlay) : Prop :=
  ∀ path entry, overlay.lookup path = some entry → entry.logicalPath = path

/-- A session as the store keeps it under an identifier. -/
structure Settled (sessionId : Text) (state : SessionState) : Prop where
  named : state.metadata.sessionId = sessionId
  validName : isValidSessionDirName sessionId = true
  status : state.metadata.password = some (passwordStatus state.password)
  keyed : Keyed state.overlay

def WellFormed (sessions : Sessions) : Prop :=
  ∀ sessionId state, sessions.lookup sessionId = some state → Settled sessionId state

/-- The same session, up to the order of its overlay entries. -/
structure SameSession (a b : SessionState) : Prop where
  metadata : b.metadata = a.metadata
  password : b.password = a.password
  overlay : ∀ path, b.overlay.lookup path = a.overlay.lookup path

theorem SameSession.refl (a : SessionState) : SameSession a a := ⟨rfl, rfl, fun _ => rfl⟩

theorem SameSession.trans {a b c : SessionState} (h : SameSession a b) (h' : SameSession b c) :
    SameSession a c :=
  ⟨h'.metadata.trans h.metadata, h'.password.trans h.password,
    fun path => (h'.overlay path).trans (h.overlay path)⟩

/-! ## Maps of entries -/

theorem foldl_insert_lookup (entries : List OverlayEntry) (overlay : Overlay) (path : Text) :
    (entries.foldl (fun overlay entry => overlay.insert entry.logicalPath entry)
      overlay).lookup path =
      (entries.reverse.find? (·.logicalPath == path)).or (overlay.lookup path) := by
  induction entries generalizing overlay with
  | nil => rfl
  | cons entry rest ih =>
    rw [foldl_cons, ih, reverse_cons, List.find?_append, Dict.lookup_insert_eq]
    cases hRest : rest.reverse.find? (·.logicalPath == path) with
    | some found => rfl
    | none =>
      simp only [Option.none_or, List.find?_singleton]
      by_cases hPath : path = entry.logicalPath
      · simp [hPath]
      · simp [hPath, Ne.symm hPath]

theorem lookup_entriesToMap (entries : List OverlayEntry) (path : Text) :
    (entriesToMap entries).lookup path = entries.reverse.find? (·.logicalPath == path) := by
  rw [entriesToMap, foldl_insert_lookup]
  exact Option.or_none

theorem keyed_entriesToMap (entries : List OverlayEntry) : Keyed (entriesToMap entries) := by
  intro path entry h
  rw [lookup_entriesToMap] at h
  simpa using List.find?_some h

/-- The entries of an overlay make the same overlay again. -/
theorem lookup_entriesToMap_values {overlay : Overlay} (h : Keyed overlay) (path : Text) :
    (entriesToMap (overlay.entries.map (·.2))).lookup path = overlay.lookup path := by
  have hValue : ∀ entry ∈ (overlay.entries.map (·.2)).reverse,
      overlay.lookup entry.logicalPath = some entry := by
    intro entry hMem
    obtain ⟨e, he, rfl⟩ := mem_map.mp (mem_reverse.mp hMem)
    have hEntry := Dict.mem_entries_iff.mp he
    rwa [h _ _ hEntry]
  rw [lookup_entriesToMap]
  cases hFind : (overlay.entries.map (·.2)).reverse.find? (·.logicalPath == path) with
  | some entry =>
    have hPath : entry.logicalPath = path := by simpa using List.find?_some hFind
    rw [← hPath]
    exact (hValue entry (mem_of_find?_eq_some hFind)).symm
  | none =>
    symm
    rw [Option.eq_none_iff_forall_ne_some]
    intro entry hEntry
    refine List.find?_eq_none.mp hFind entry ?_ (by simpa using h _ _ hEntry)
    exact mem_reverse.mpr (mem_map.mpr ⟨_, Dict.mem_entries_iff.mpr hEntry, rfl⟩)

/-! ## Restarts -/

theorem load_persist {sessionId : Text} {state : SessionState} (h : Settled sessionId state) :
    ∃ state', loadLiveSessionState sessionId (persist state) = .ok state' ∧
      SameSession state state' ∧ Settled sessionId state' := by
  obtain ⟨hNamed, hName, hStatus, hKeyed⟩ := h
  have hOverlay := fun path => lookup_entriesToMap_values hKeyed path
  refine ⟨⟨{ state.metadata with password := some (passwordStatus state.password) },
    state.password, entriesToMap (buildSnapshot state).entries⟩, ?_, ?_, ?_⟩
  · simp [loadLiveSessionState, persist, buildSnapshot, validateSessionId, hNamed, hName]
  · refine ⟨?_, rfl, hOverlay⟩
    rw [← hStatus]
  · exact ⟨hNamed, hName, rfl, keyed_entriesToMap _⟩

theorem load_all {entries : List (Sigma fun _ : Text => SessionState)} (loaded : Sessions)
    (hDistinct : entries.Pairwise (fun e e' => e.1 ≠ e'.1))
    (hSettled : ∀ e ∈ entries, Settled e.1 e.2) :
    ∃ loaded', entries.foldlM (fun (loaded : Sessions) entry => do
        let state ← loadLiveSessionState entry.1 (persist entry.2)
        pure (loaded.insert entry.1 state)) loaded = (.ok loaded' : Except SessionError Sessions) ∧
      (∀ e ∈ entries, ∃ state, loaded'.lookup e.1 = some state ∧ SameSession e.2 state ∧
        Settled e.1 state) ∧
      ∀ sessionId, (∀ e ∈ entries, e.1 ≠ sessionId) →
        loaded'.lookup sessionId = loaded.lookup sessionId := by
  induction entries generalizing loaded with
  | nil => exact ⟨loaded, rfl, (fun _ he => by cases he), fun _ _ => rfl⟩
  | cons entry rest ih =>
    obtain ⟨hHead, hRest⟩ := pairwise_cons.mp hDistinct
    obtain ⟨state, hLoad, hSame, hState⟩ := load_persist (hSettled entry (.head _))
    obtain ⟨loaded', hFold, hIn, hOut⟩ := ih (loaded.insert entry.1 state) hRest
      fun e he => hSettled e (.tail _ he)
    refine ⟨loaded', ?_, ?_, ?_⟩
    · rw [foldlM_cons, hLoad]
      exact hFold
    · intro e he
      rcases mem_cons.mp he with rfl | he
      · refine ⟨state, ?_, hSame, hState⟩
        rw [hOut _ fun e' he' => (hHead e' he').symm, AList.lookup_insert]
      · exact hIn e he
    · intro sessionId hNot
      rw [hOut sessionId fun e he => hNot e (.tail _ he),
        AList.lookup_insert_ne (hNot entry (.head _)).symm]

/-- A restart keeps every session and makes no other. -/
theorem restart_same {sessions : Sessions} (h : WellFormed sessions) :
    ∃ sessions', restart sessions = .ok sessions' ∧ WellFormed sessions' ∧
      (∀ sessionId, sessions.lookup sessionId = none → sessions'.lookup sessionId = none) ∧
      ∀ sessionId state, sessions.lookup sessionId = some state →
        ∃ state', sessions'.lookup sessionId = some state' ∧ SameSession state state' := by
  have hDistinct : sessions.entries.Pairwise (fun e e' => e.1 ≠ e'.1) :=
    pairwise_map.mp sessions.nodupKeys
  obtain ⟨sessions', hFold, hIn, hOut⟩ := load_all ∅ hDistinct
    fun e he => h e.1 e.2 (Dict.mem_entries_iff.mp he)
  have hNone : ∀ sessionId, sessions.lookup sessionId = none →
      sessions'.lookup sessionId = none := by
    intro sessionId hMissing
    rw [hOut sessionId]
    · rfl
    · rintro e he rfl
      rw [Dict.mem_entries_iff.mp he] at hMissing
      cases hMissing
  refine ⟨sessions', hFold, ?_, hNone, ?_⟩
  · intro sessionId state hState
    cases hOld : sessions.lookup sessionId with
    | none =>
      rw [hNone sessionId hOld] at hState
      cases hState
    | some old =>
      obtain ⟨state', hState', -, hSettled⟩ := hIn ⟨sessionId, old⟩ (Dict.mem_entries_iff.mpr hOld)
      rw [hState] at hState'
      cases hState'
      exact hSettled
  · intro sessionId state hState
    obtain ⟨state', hState', hSame, -⟩ := hIn ⟨sessionId, state⟩ (Dict.mem_entries_iff.mpr hState)
    exact ⟨state', hState', hSame⟩

end FabricFs.Session
