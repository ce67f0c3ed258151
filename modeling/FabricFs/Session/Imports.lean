import FabricFs.Session.Store

/-!
# Importing published checkpoints

`import_into_new` of `session_service.rs` with `import_idempotency.rs`, and the key of a
published object. The identifier of the new session is a UUID of version 5 of the remote
identifier; that function belongs to the environment.

* `snapshotsEquivalent_iff`: what the comparison of two snapshots compares.
* `import_repeats_iff`: after an import has succeeded, a later request for the same
  published object returns the same session and makes no other exactly if it is
  `Repeatable`.
* `import_not_idempotent`: a snapshot with two different version fields is imported once
  and then refused; a remote identifier with a blank in front makes a second session.
-/

namespace FabricFs.Session

open Lib Protocol Option AList

/-! ## Remote identifiers -/

variable {sessionId : Text} {state : SessionState} {snapshot : SessionSnapshot}
  {metadata : SessionMetadata} {env : StoreEnv} {salt : List UInt8} {password : Option Text}
  {sessions : Sessions}

/-- A character with the property `White_Space`. -/
def isWhitespace (c : Char) : Bool :=
  let n := c.toNat
  n == 32 || (9 ≤ n && n ≤ 13) || n == 0x85 || n == 0xa0 || n == 0x1680 ||
    (0x2000 ≤ n && n ≤ 0x200a) || n == 0x2028 || n == 0x2029 || n == 0x202f || n == 0x205f ||
    n == 0x3000

/-- `str::trim`. -/
def trim (value : List Char) : List Char :=
  ((value.dropWhile isWhitespace).reverse.dropWhile isWhitespace).reverse

/-- `PublishedStore::key_for`, without the constant in front of the key. -/
def keyFor (remoteId : List Char) : Option (List Char) :=
  let trimmed := trim remoteId
  if trimmed.isEmpty || trimmed.any isWhitespace || trimmed.contains '/' ||
      trimmed.contains '\\' then none
  else some trimmed

def encode (value : List Char) : Text := (String.ofList value).toUTF8.toList

/-! ## Requests -/

structure ImportEnv extends StoreEnv where
  /-- `Uuid::new_v5` in the name space of imports, as text. -/
  importedSessionId : List Char → Text
  /-- The snapshot of the published object with the key. -/
  published : List Char → Option (Option SessionSnapshot)

structure ImportRequest where
  remoteCheckpointId : List Char
  newDisplayName : List Char
  password : Option Text
  /-- The random salt and the time of the call. -/
  salt : List UInt8
  now : Int64

inductive ImportError where
  | published
  | session (error : SessionError)
  deriving DecidableEq, Repr

/-- `overlay_map` is the same loop as `entries_to_map`, and `overlay_entries_equal` the same
comparison as `entries_equal`. -/
def snapshotsEquivalent (a b : SessionSnapshot) : Bool :=
  match a.metadata, b.metadata with
  | some am, some bm =>
    if am.cowRoot ≠ bm.cowRoot ∨ am.overlayVersion ≠ bm.overlayVersion then false
    else
      let aEntries := entriesToMap a.entries
      let bEntries := entriesToMap b.entries
      aEntries.entries.length == bEntries.entries.length &&
        aEntries.entries.all (fun e =>
          match bEntries.lookup e.1 with
          | some other => entriesEqual e.2 other
          | none => false)
  | _, _ => false

/-- The display name of the new session. -/
def importedName (request : ImportRequest) (snapshot : SessionSnapshot) : Text :=
  if (trim request.newDisplayName).isEmpty then
    (snapshot.metadata.map (·.displayName)).getD (text "Imported session")
  else encode request.newDisplayName

/-- A session that exists already must hold an equivalent snapshot. -/
def importIntoNew (env : ImportEnv) (request : ImportRequest) (snapshot : SessionSnapshot)
    (sessions : Sessions) : Except SessionError SessionMetadata × Sessions :=
  let sessionId := env.importedSessionId request.remoteCheckpointId
  match createSessionFromSnapshotWithId env.toStoreEnv request.salt request.now sessionId snapshot
      (some (importedName request snapshot)) request.password sessions with
  | (.ok metadata, sessions) => (.ok metadata, sessions)
  | (.error (.conflict _), sessions) =>
    match getSnapshot env.toStoreEnv sessionId request.password sessions with
    | (.error e, sessions) => (.error e, sessions)
    | (.ok existing, sessions) =>
      if snapshotsEquivalent existing snapshot then
        match existing.metadata with
        | some metadata => (.ok metadata, sessions)
        | none => (.error (.invalidRequest (text "snapshot missing metadata")), sessions)
      else
        (.error (.conflict (text "remote checkpoint " ++ encode request.remoteCheckpointId ++
          text " already imported into " ++ sessionId)), sessions)
  | (.error e, sessions) => (.error e, sessions)

/-- `handle_import_request` for a request without a target session. -/
def handleImport (env : ImportEnv) (request : ImportRequest) (sessions : Sessions) :
    Except ImportError SessionMetadata × Sessions :=
  match (keyFor request.remoteCheckpointId).bind env.published with
  | none => (.error .published, sessions)
  | some none =>
    (.error (.session (.invalidRequest (text "published checkpoint missing snapshot"))), sessions)
  | some (some snapshot) =>
    match importIntoNew env request snapshot sessions with
    | (.ok metadata, sessions) => (.ok metadata, sessions)
    | (.error e, sessions) => (.error (.session e), sessions)

/-! ## Equivalent snapshots -/

/-- The two entries of a path are both missing or equal for the comparison. -/
def entryMatches : Option OverlayEntry → Option OverlayEntry → Bool
  | some entry, some other => entriesEqual entry other
  | none, none => true
  | _, _ => false

def EntriesMatch (a b : Overlay) : Prop :=
  ∀ path, entryMatches (a.lookup path) (b.lookup path) = true

theorem keys_length (overlay : Overlay) : overlay.keys.length = overlay.entries.length := by
  rw [AList.keys, List.keys, List.length_map]

/-- The comparison of the code, which counts entries and goes through those of one side. -/
theorem entriesMatch_iff {a b : Overlay} :
    (a.entries.length == b.entries.length && a.entries.all (fun e =>
        match b.lookup e.1 with
        | some other => entriesEqual e.2 other
        | none => false)) = true ↔ EntriesMatch a b := by
  rw [Bool.and_eq_true, beq_iff_eq, List.all_eq_true]
  constructor
  · rintro ⟨hLength, hAll⟩ path
    have hEach : ∀ path entry, a.lookup path = some entry →
        ∃ other, b.lookup path = some other ∧ entriesEqual entry other = true := by
      intro path entry hEntry
      have hOne := hAll ⟨path, entry⟩ (Dict.mem_entries_iff.mpr hEntry)
      cases hOther : b.lookup path with
      | none =>
        rw [hOther] at hOne
        cases hOne
      | some other =>
        rw [hOther] at hOne
        exact ⟨other, rfl, hOne⟩
    -- as many paths on both sides, and those of one side are all on the other
    have hSub : a.keys ⊆ b.keys := by
      intro key hKey
      obtain ⟨entry, hEntry⟩ := isSome_iff_exists.mp (lookup_isSome.mpr hKey)
      obtain ⟨other, hOther, -⟩ := hEach key entry hEntry
      exact lookup_isSome.mp (by rw [hOther]; rfl)
    have hPerm : a.keys.Perm b.keys :=
      (List.subperm_of_subset a.nodupKeys hSub).perm_of_length_le
        (by
          change b.keys.length ≤ a.keys.length
          rw [keys_length, keys_length, hLength])
    cases hEntry : a.lookup path with
    | some entry =>
      obtain ⟨other, hOther, hEqual⟩ := hEach path entry hEntry
      rw [hOther]
      exact hEqual
    | none =>
      have hNone : b.lookup path = none := by
        rw [lookup_eq_none] at hEntry ⊢
        exact fun hMem => hEntry (hPerm.mem_iff.mpr hMem)
      rw [hNone]
      rfl
  · intro hMatch
    have hMem : ∀ key, key ∈ a.keys ↔ key ∈ b.keys := by
      intro key
      have hKey := hMatch key
      change key ∈ a ↔ key ∈ b
      rw [← lookup_isSome, ← lookup_isSome]
      revert hKey
      cases a.lookup key <;> cases b.lookup key <;> simp [entryMatches]
    refine ⟨?_, fun e he => ?_⟩
    · have hPerm : a.keys.Perm b.keys :=
        (List.perm_ext_iff_of_nodup a.nodupKeys b.nodupKeys).mpr hMem
      rw [← keys_length, ← keys_length, hPerm.length_eq]
    · have hOne := hMatch e.1
      rw [Dict.mem_entries_iff.mp he] at hOne
      cases hOther : b.lookup e.1 with
      | none =>
        rw [hOther] at hOne
        cases hOne
      | some other =>
        rw [hOther] at hOne
        exact hOne

theorem snapshotsEquivalent_iff {a b : SessionSnapshot} :
    snapshotsEquivalent a b = true ↔ ∃ am bm, a.metadata = some am ∧ b.metadata = some bm ∧
      am.cowRoot = bm.cowRoot ∧ am.overlayVersion = bm.overlayVersion ∧
      EntriesMatch (entriesToMap a.entries) (entriesToMap b.entries) := by
  unfold snapshotsEquivalent
  cases ha : a.metadata with
  | none => simp
  | some am =>
    cases hb : b.metadata with
    | none => simp
    | some bm =>
      simp only [some.injEq]
      split
      · rename_i hDiffer
        simp only [Bool.false_eq_true, false_iff]
        rintro ⟨_, _, rfl, rfl, hRoot, hVersion, -⟩
        exact hDiffer.elim (· hRoot) (· hVersion)
      · rename_i hSame
        rw [not_or, not_not, not_not] at hSame
        rw [entriesMatch_iff]
        constructor
        · intro hMatch
          exact ⟨am, bm, rfl, rfl, hSame.1, hSame.2, hMatch⟩
        · rintro ⟨_, _, rfl, rfl, -, -, hMatch⟩
          exact hMatch

/-- A session of the store is equivalent to a snapshot. -/
theorem equivalent_session (h : Settled sessionId state)
    (hMetadata : snapshot.metadata = some metadata) :
    snapshotsEquivalent (buildSnapshot state) snapshot = true ↔
      state.metadata.cowRoot = metadata.cowRoot ∧
      state.metadata.overlayVersion = metadata.overlayVersion ∧
      EntriesMatch state.overlay (entriesToMap snapshot.entries) := by
  have hOverlay : EntriesMatch (entriesToMap (buildSnapshot state).entries)
      (entriesToMap snapshot.entries) ↔
      EntriesMatch state.overlay (entriesToMap snapshot.entries) := by
    refine forall_congr' fun path => ?_
    rw [buildSnapshot, lookup_entriesToMap_values h.keyed]
  rw [snapshotsEquivalent_iff, hOverlay, hMetadata]
  constructor
  · rintro ⟨am, bm, ha, hb, hRest⟩
    cases ha
    cases hb
    exact hRest
  · intro hRest
    exact ⟨_, _, rfl, rfl, hRest⟩

theorem entriesEqual_self (entry : OverlayEntry) :
    entriesEqual entry entry = true ↔ entry.kind ≠ none := by
  rcases entry with ⟨path, _ | (_ | _)⟩ <;> simp [entriesEqual]

theorem entriesMatch_self {overlay : Overlay} :
    EntriesMatch overlay overlay ↔
      ∀ path entry, overlay.lookup path = some entry → entry.kind ≠ none := by
  refine forall_congr' fun path => ?_
  cases hEntry : overlay.lookup path with
  | none => simp [entryMatches]
  | some entry =>
    rw [entryMatches, entriesEqual_self]
    constructor
    · intro hKind found hFound
      cases hFound
      exact hKind
    · intro hKind
      exact hKind entry rfl

/-! ## Accepted credentials -/

/-- The password of the request fits: it is given if the snapshot is protected, it can be
hashed for a new session, and it opens the existing one. -/
structure Accepted (env : StoreEnv) (metadata : SessionMetadata) (record : PasswordRecord)
    (password : Option Text) (salt : List UInt8) : Prop where
  given : password = none → metadata.password.any (·.isProtected) = false
  hashed : ∀ value, password = some value → value ≠ [] →
    value.length ≤ maxPasswordLen ∧ (env.argon2 value salt).isSome = true
  opens : record.isProtected = true → ∃ value, password = some value ∧
    record.algorithm = currentAlgorithm ∧ 8 ≤ record.salt.length ∧ record.hash ≠ [] ∧
    env.argon2 value record.salt = some record.hash

theorem verify_ok (env : StoreEnv) (sessionId : Text) (provided : Option Text)
    (record : PasswordRecord) :
    verify env sessionId provided record = .ok () ↔
      (record.isProtected = true → ∃ value, provided = some value ∧
        record.algorithm = currentAlgorithm ∧ 8 ≤ record.salt.length ∧ record.hash ≠ [] ∧
        env.argon2 value record.salt = some record.hash) := by
  unfold verify
  cases hProtected : record.isProtected with
  | false => simp
  | true =>
    cases provided with
    | none => simp
    | some value =>
      simp only [Bool.not_true, Bool.false_eq_true, if_false, forall_const, some.injEq,
        exists_eq_left']
      split
      · rename_i hAlgorithm
        simp [hAlgorithm]
      · rename_i hAlgorithm
        split
        · rename_i hMaterial
          constructor
          · intro h
            cases h
          · rintro ⟨-, hSalt, hHash, -⟩
            exact absurd hMaterial (by simp [hHash]; omega)
        · rename_i hMaterial
          rw [not_or, not_lt] at hMaterial
          rw [not_not] at hAlgorithm
          cases hHash : env.argon2 value record.salt with
          | none => simp [argon2Hash, hHash, bind, Except.bind]
          | some candidate =>
            simp only [argon2Hash, hHash, bind, Except.bind]
            split
            · rename_i hSame
              exact iff_of_true rfl ⟨hAlgorithm, hMaterial.1, hMaterial.2, by rw [hSame]⟩
            · rename_i hDiffers
              refine iff_of_false (fun h => by cases h) ?_
              rintro ⟨-, -, -, hEq⟩
              exact hDiffers (some.inj hEq)

theorem buildRecord_ok :
    (∃ record, buildRecord env salt password = .ok record) ↔
      ∀ value, password = some value → value ≠ [] →
        value.length ≤ maxPasswordLen ∧ (env.argon2 value salt).isSome = true := by
  cases password with
  | none => simp [buildRecord]
  | some value =>
    simp only [buildRecord, some.injEq, forall_eq']
    cases value with
    | nil => simp
    | cons c rest =>
      simp only [List.isEmpty_cons, Bool.false_eq_true, if_false]
      split
      · rename_i hLong
        constructor
        · rintro ⟨_, h⟩
          cases h
        · intro h
          have hShort := (h (by simp)).1
          omega
      · rename_i hShort
        cases hHash : env.argon2 (c :: rest) salt with
        | none => simp [argon2Hash, hHash, bind, Except.bind]
        | some hash =>
          refine iff_of_true ⟨_, by simp [argon2Hash, hHash, bind, Except.bind]; rfl⟩ ?_
          intro _
          exact ⟨by omega, rfl⟩

/-- The checks of a creation that do not depend on the password. -/
def Importable (env : StoreEnv) (snapshot : SessionSnapshot) (metadata : SessionMetadata) : Prop :=
  snapshot.metadata = some metadata ∧
    validateCowRoot env metadata.cowRoot (text "snapshot cow_root invalid") = .ok ()

theorem chosenPassword_ok {chosen : Option Text} :
    chosenPassword password metadata = .ok chosen ↔
      chosen = password ∧ (password = none → metadata.password.any (·.isProtected) = false) := by
  unfold chosenPassword
  cases password with
  | some value =>
    simp only [Except.ok.injEq, reduceCtorEq, false_implies, and_true]
    exact eq_comm
  | none =>
    cases metadata.password.any (·.isProtected) with
    | true => simp
    | false =>
      simp only [Bool.false_eq_true, if_false, Except.ok.injEq, implies_true, and_true]
      exact eq_comm

theorem sessionFromSnapshot_ok {now : Int64} {displayName : Option Text}
    (h : sessionFromSnapshot env salt now sessionId snapshot displayName password = .ok state) :
    (∃ metadata, Importable env snapshot metadata) ∧ state.metadata.sessionId = sessionId ∧
      state.metadata.cowRoot = env.cowRootText ∧
      state.metadata.overlayVersion = snapshot.overlayVersion ∧
      state.metadata.password = some (passwordStatus state.password) ∧
      state.overlay = entriesToMap snapshot.entries := by
  unfold sessionFromSnapshot at h
  cases hMetadata : snapshot.metadata with
  | none =>
    rw [hMetadata] at h
    cases h
  | some metadata =>
    rw [hMetadata] at h
    obtain ⟨_, hRoot, h⟩ := bind_eq_ok.mp h
    obtain ⟨_, -, h⟩ := bind_eq_ok.mp h
    obtain ⟨_, -, h⟩ := bind_eq_ok.mp h
    cases h
    exact ⟨⟨metadata, hMetadata, hRoot⟩, rfl, rfl, rfl, rfl, rfl⟩

/-- An importable snapshot makes a session if the password can be used. -/
theorem sessionFromSnapshot_ok_iff (h : Importable env snapshot metadata) (salt : List UInt8)
    (now : Int64) (sessionId : Text) (displayName password : Option Text) :
    (∃ state, sessionFromSnapshot env salt now sessionId snapshot displayName password =
        .ok state) ↔
      (password = none → metadata.password.any (·.isProtected) = false) ∧
      ∀ value, password = some value → value ≠ [] →
        value.length ≤ maxPasswordLen ∧ (env.argon2 value salt).isSome = true := by
  rw [← buildRecord_ok]
  simp only [sessionFromSnapshot, h.1, bind_eq_ok, h.2, chosenPassword_ok]
  constructor
  · rintro ⟨_, _, -, _, ⟨rfl, hGiven⟩, record, hRecord, -⟩
    exact ⟨hGiven, record, hRecord⟩
  · rintro ⟨hGiven, record, hRecord⟩
    exact ⟨_, (), trivial, password, ⟨rfl, hGiven⟩, record, hRecord, rfl⟩

theorem sessionFromSnapshot_ne_conflict {now : Int64} {displayName : Option Text} (message : Text) :
    sessionFromSnapshot env salt now sessionId snapshot displayName password ≠
      .error (.conflict message) := by
  unfold sessionFromSnapshot
  cases snapshot.metadata with
  | none => simp
  | some metadata =>
    simp only [ne_eq, bind_eq_error, not_or, not_exists, not_and]
    refine ⟨?_, fun _ _ => ⟨?_, fun chosen _ => ⟨?_, fun _ _ h => by cases h⟩⟩⟩
    · unfold validateCowRoot
      split
      · simp
      · split
        · simp
        · split <;> simp
    · unfold chosenPassword
      split
      · simp
      · split <;> simp
    · unfold buildRecord argon2Hash
      split
      · simp
      · split
        · simp
        · split
          · simp
          · split <;> simp [bind, Except.bind, pure, Except.pure]

/-! ## One request -/

theorem importIntoNew_eq (env : ImportEnv) (request : ImportRequest) (snapshot : SessionSnapshot)
    (hStore : WellFormed sessions) :
    importIntoNew env request snapshot sessions =
      match sessionFromSnapshot env.toStoreEnv request.salt request.now
          (env.importedSessionId request.remoteCheckpointId) snapshot
          (some (importedName request snapshot)) request.password with
      | .error e => (.error e, sessions)
      | .ok new =>
        match validateSessionId (env.importedSessionId request.remoteCheckpointId) with
        | .error e => (.error e, sessions)
        | .ok () =>
          match sessions.lookup (env.importedSessionId request.remoteCheckpointId) with
          | none => (.ok new.metadata,
              sessions.insert (env.importedSessionId request.remoteCheckpointId) new)
          | some state =>
            match verify env.toStoreEnv (env.importedSessionId request.remoteCheckpointId)
                request.password state.password with
            | .error e => (.error e, sessions)
            | .ok () =>
              if snapshotsEquivalent (buildSnapshot state) snapshot then
                (.ok state.metadata, sessions)
              else
                (.error (.conflict (text "remote checkpoint " ++
                  encode request.remoteCheckpointId ++ text " already imported into " ++
                  env.importedSessionId request.remoteCheckpointId)), sessions) := by
  cases hNew : sessionFromSnapshot env.toStoreEnv request.salt request.now
      (env.importedSessionId request.remoteCheckpointId) snapshot
      (some (importedName request snapshot)) request.password with
  | error e =>
    simp only [importIntoNew, createSessionFromSnapshotWithId, hNew]
    cases e with
    | conflict message => exact absurd hNew (sessionFromSnapshot_ne_conflict message)
    | _ => rfl
  | ok new =>
    have hNamed := (sessionFromSnapshot_ok hNew).2.1
    have hLookup : sessions.lookup new.metadata.sessionId =
        sessions.lookup (env.importedSessionId request.remoteCheckpointId) := by rw [hNamed]
    simp only [importIntoNew, createSessionFromSnapshotWithId, hNew, insertNewSession, hLookup,
      hNamed]
    unfold validateSessionId
    cases isValidSessionDirName (env.importedSessionId request.remoteCheckpointId) with
    | false => rfl
    | true =>
      cases hState : sessions.lookup (env.importedSessionId request.remoteCheckpointId) with
      | none => rfl
      | some state =>
        have hSettled := hStore _ _ hState
        simp only [if_true, getSnapshot, authorizeSessionAccess, hState,
          hSettled.status, hSettled.named]
        cases verify env.toStoreEnv (env.importedSessionId request.remoteCheckpointId)
          request.password state.password <;> rfl

/-- A request makes a new session, finds the one it made before, or fails. -/
theorem importIntoNew_cases (env : ImportEnv) (request : ImportRequest) (snapshot : SessionSnapshot)
    (hStore : WellFormed sessions) :
    let sessionId := env.importedSessionId request.remoteCheckpointId
    (∃ new, sessions.lookup sessionId = none ∧ Settled sessionId new ∧
      (∃ metadata, Importable env.toStoreEnv snapshot metadata) ∧
      new.metadata.cowRoot = env.cowRootText ∧
      new.metadata.overlayVersion = snapshot.overlayVersion ∧
      new.overlay = entriesToMap snapshot.entries ∧
      importIntoNew env request snapshot sessions =
        (.ok new.metadata, sessions.insert sessionId new)) ∨
    (∃ state, sessions.lookup sessionId = some state ∧
      (∃ metadata, Importable env.toStoreEnv snapshot metadata) ∧
      snapshotsEquivalent (buildSnapshot state) snapshot = true ∧
      importIntoNew env request snapshot sessions = (.ok state.metadata, sessions)) ∨
    ∃ e, importIntoNew env request snapshot sessions = (.error e, sessions) := by
  intro sessionId
  rw [importIntoNew_eq env request snapshot hStore]
  cases hNew : sessionFromSnapshot env.toStoreEnv request.salt request.now sessionId snapshot
      (some (importedName request snapshot)) request.password with
  | error e => exact .inr (.inr ⟨e, rfl⟩)
  | ok new =>
    obtain ⟨hImportable, hNamed, hRoot, hVersion, hStatus, hOverlay⟩ := sessionFromSnapshot_ok hNew
    cases hValid : isValidSessionDirName sessionId with
    | false =>
      have hName : validateSessionId sessionId = .error
          (.invalidRequest (text "invalid session identifier: " ++ sessionId)) := by
        simp [validateSessionId, hValid]
      simp only [hName, sessionId]
      exact .inr (.inr ⟨_, rfl⟩)
    | true =>
      have hName : validateSessionId sessionId = .ok () := by simp [validateSessionId, hValid]
      simp only [hName, sessionId]
      cases hState : sessions.lookup sessionId with
      | none =>
        refine .inl ⟨new, rfl, ⟨hNamed, hValid, hStatus, ?_⟩, hImportable, hRoot, hVersion,
          hOverlay,
          rfl⟩
        rw [hOverlay]
        exact keyed_entriesToMap _
      | some state =>
        simp only
        cases verify env.toStoreEnv sessionId request.password state.password with
        | error e => exact .inr (.inr ⟨e, rfl⟩)
        | ok u =>
          simp only
          cases hSame : snapshotsEquivalent (buildSnapshot state) snapshot with
          | true => exact .inr (.inl ⟨state, rfl, hImportable, hSame, rfl⟩)
          | false => exact .inr (.inr ⟨_, rfl⟩)

/-- When the session exists: the request returns it exactly if its password is accepted and
the session is equivalent to the snapshot. -/
theorem importIntoNew_again {env : ImportEnv} {request : ImportRequest}
    (hStore : WellFormed sessions)
    (hState : sessions.lookup (env.importedSessionId request.remoteCheckpointId) = some state)
    (hImportable : Importable env.toStoreEnv snapshot metadata) :
    importIntoNew env request snapshot sessions = (.ok state.metadata, sessions) ↔
      Accepted env.toStoreEnv metadata state.password request.password request.salt ∧
      snapshotsEquivalent (buildSnapshot state) snapshot = true := by
  have hSettled := hStore _ _ hState
  have hName : validateSessionId (env.importedSessionId request.remoteCheckpointId) = .ok () := by
    simp [validateSessionId, hSettled.validName]
  have hMake := sessionFromSnapshot_ok_iff hImportable request.salt request.now
    (env.importedSessionId request.remoteCheckpointId) (some (importedName request snapshot))
    request.password
  have hVerify := verify_ok env.toStoreEnv (env.importedSessionId request.remoteCheckpointId)
    request.password state.password
  rw [importIntoNew_eq env request snapshot hStore]
  cases hNew : sessionFromSnapshot env.toStoreEnv request.salt request.now
      (env.importedSessionId request.remoteCheckpointId) snapshot
      (some (importedName request snapshot)) request.password with
  | error e =>
    rw [hNew] at hMake
    refine iff_of_false (by simp) ?_
    rintro ⟨hAccepted, -⟩
    obtain ⟨_, hOk⟩ := hMake.mpr ⟨hAccepted.given, hAccepted.hashed⟩
    cases hOk
  | ok new =>
    obtain ⟨hGiven, hHashed⟩ := hMake.mp ⟨new, hNew⟩
    simp only [hName, hState]
    cases hOpen : verify env.toStoreEnv (env.importedSessionId request.remoteCheckpointId)
        request.password state.password with
    | error e =>
      rw [hOpen] at hVerify
      refine iff_of_false (by simp) ?_
      rintro ⟨hAccepted, -⟩
      cases hVerify.mpr hAccepted.opens
    | ok u =>
      simp only
      cases snapshotsEquivalent (buildSnapshot state) snapshot with
      | true => exact iff_of_true rfl ⟨⟨hGiven, hHashed, hVerify.mp hOpen⟩, rfl⟩
      | false => exact iff_of_false (by simp) fun h => by cases h.2

/-! ## Later requests -/

/-- What may happen to the store while the session is not modified: restarts, requests for
imports, and anything that leaves this session as it is. -/
inductive Later (env : ImportEnv) (sessionId : Text) : Sessions → Sessions → Prop
  | refl (sessions : Sessions) : Later env sessionId sessions sessions
  | restart {first sessions sessions' : Sessions} (h : Later env sessionId first sessions)
      (hRestart : restart sessions = .ok sessions') : Later env sessionId first sessions'
  | request {first sessions : Sessions} (h : Later env sessionId first sessions)
      (request : ImportRequest) :
      Later env sessionId first (handleImport env request sessions).2
  | other {first sessions sessions' : Sessions} (h : Later env sessionId first sessions)
      (hStore : WellFormed sessions')
      (hSame : sessions'.lookup sessionId = sessions.lookup sessionId) :
      Later env sessionId first sessions'

theorem handleImport_store (env : ImportEnv) (request : ImportRequest)
    (hStore : WellFormed sessions) :
    (handleImport env request sessions).2 = sessions ∨
      ∃ sessionId state, sessions.lookup sessionId = none ∧ Settled sessionId state ∧
        (handleImport env request sessions).2 = sessions.insert sessionId state := by
  unfold handleImport
  split
  · exact .inl rfl
  · exact .inl rfl
  · rename_i snapshot _
    rcases importIntoNew_cases env request snapshot hStore with
      ⟨new, hNone, hSettled, -, -, -, -, hRun⟩ | ⟨state, -, -, -, hRun⟩ | ⟨e, hRun⟩
    · rw [hRun]
      exact .inr ⟨_, new, hNone, hSettled, rfl⟩
    · rw [hRun]
      exact .inl rfl
    · rw [hRun]
      exact .inl rfl

theorem later_same {env : ImportEnv} {first : Sessions} (h : Later env sessionId first sessions)
    (hStore : WellFormed first) (hState : first.lookup sessionId = some state) :
    WellFormed sessions ∧
      ∃ state', sessions.lookup sessionId = some state' ∧ SameSession state state' := by
  induction h with
  | refl => exact ⟨hStore, state, hState, .refl state⟩
  | restart h hRestart ih =>
    obtain ⟨hWell, state', hState', hSame⟩ := ih
    obtain ⟨sessions', hRun, hWell', -, hKept⟩ := restart_same hWell
    rw [hRestart] at hRun
    cases hRun
    obtain ⟨state'', hState'', hSame'⟩ := hKept sessionId state' hState'
    exact ⟨hWell', state'', hState'', hSame.trans hSame'⟩
  | request h request ih =>
    obtain ⟨hWell, state', hState', hSame⟩ := ih
    rcases handleImport_store env request hWell with hRun | ⟨other, new, hNone, hSettled, hRun⟩
    · rw [hRun]
      exact ⟨hWell, state', hState', hSame⟩
    · rw [hRun]
      have hOther : sessionId ≠ other := by
        rintro rfl
        rw [hNone] at hState'
        cases hState'
      refine ⟨?_, state', by rwa [lookup_insert_ne hOther], hSame⟩
      intro found foundState hFound
      rw [Dict.lookup_insert_eq] at hFound
      split at hFound
      · rename_i hEq
        cases hFound
        exact hEq ▸ hSettled
      · exact hWell found foundState hFound
  | other h hStore' hLookup ih =>
    obtain ⟨-, state', hState', hSame⟩ := ih
    exact ⟨hStore', state', hLookup.trans hState', hSame⟩

/-- The snapshot survives a round trip through a session: it names the root as the store
does, its two versions agree, and every entry that counts has a kind. -/
structure Plain (env : StoreEnv) (snapshot : SessionSnapshot) (metadata : SessionMetadata) :
    Prop where
  cowRoot : metadata.cowRoot = env.cowRootText
  version : metadata.overlayVersion = snapshot.overlayVersion
  kinds : ∀ path entry, (entriesToMap snapshot.entries).lookup path = some entry → entry.kind ≠ none

/-- The condition on a later request: its identifier names the same session, its password
is accepted, and the first import found the session or its snapshot is plain. -/
def Repeatable (env : ImportEnv) (before sessions : Sessions) (first request : ImportRequest) :
    Prop :=
  ∃ snapshot metadata state,
    (keyFor first.remoteCheckpointId).bind env.published = some (some snapshot) ∧
    snapshot.metadata = some metadata ∧
    sessions.lookup (env.importedSessionId first.remoteCheckpointId) = some state ∧
    env.importedSessionId request.remoteCheckpointId =
      env.importedSessionId first.remoteCheckpointId ∧
    Accepted env.toStoreEnv metadata state.password request.password request.salt ∧
    ((before.lookup (env.importedSessionId first.remoteCheckpointId)).isSome = true ∨
      Plain env.toStoreEnv snapshot metadata)

theorem first_import {env : ImportEnv} {first : ImportRequest} {before after : Sessions}
    {found : SessionMetadata} (hStore : WellFormed before)
    (hFirst : handleImport env first before = (.ok found, after)) :
    let sessionId := env.importedSessionId first.remoteCheckpointId
    ∃ snapshot metadata state,
      (keyFor first.remoteCheckpointId).bind env.published = some (some snapshot) ∧
      Importable env.toStoreEnv snapshot metadata ∧ WellFormed after ∧
      after.lookup sessionId = some state ∧ found.sessionId = sessionId ∧
      (snapshotsEquivalent (buildSnapshot state) snapshot = true ↔
        (before.lookup sessionId).isSome = true ∨ Plain env.toStoreEnv snapshot metadata) := by
  intro sessionId
  unfold handleImport at hFirst
  split at hFirst
  · cases hFirst
  · cases hFirst
  · rename_i snapshot hSnapshot
    rcases importIntoNew_cases env first snapshot hStore with
      ⟨new, hNone, hSettled, ⟨metadata, hImportable⟩, hRoot, hVersion, hOverlay, hRun⟩ |
      ⟨state, hState, ⟨metadata, hImportable⟩, hSame, hRun⟩ | ⟨e, hRun⟩
    · rw [hRun] at hFirst
      cases hFirst
      refine ⟨snapshot, metadata, new, hSnapshot, hImportable, ?_, lookup_insert _,
        hSettled.named, ?_⟩
      · intro other state hState
        rw [Dict.lookup_insert_eq] at hState
        split at hState
        · rename_i hEq
          cases hState
          exact hEq ▸ hSettled
        · exact hStore other state hState
      · rw [equivalent_session hSettled hImportable.1, hNone, hRoot, hVersion, hOverlay,
          entriesMatch_self]
        simp only [isSome_none, Bool.false_eq_true, false_or]
        exact ⟨fun h => ⟨h.1.symm, h.2.1.symm, h.2.2⟩, fun h => ⟨h.cowRoot.symm, h.version.symm,
          h.kinds⟩⟩
    · rw [hRun] at hFirst
      cases hFirst
      refine ⟨snapshot, metadata, state, hSnapshot, hImportable, hStore, hState,
        (hStore _ _ hState).named, ?_⟩
      exact iff_of_true hSame (.inl (by rw [hState]; rfl))
    · rw [hRun] at hFirst
      cases hFirst

theorem equivalent_same {state' : SessionState} (h : Settled sessionId state)
    (h' : Settled sessionId state') (hSame : SameSession state state')
    (hMetadata : snapshot.metadata = some metadata) :
    snapshotsEquivalent (buildSnapshot state') snapshot = true ↔
      snapshotsEquivalent (buildSnapshot state) snapshot = true := by
  have hOverlay : EntriesMatch state'.overlay (entriesToMap snapshot.entries) ↔
      EntriesMatch state.overlay (entriesToMap snapshot.entries) :=
    forall_congr' fun path => by rw [hSame.overlay]
  rw [equivalent_session h' hMetadata, equivalent_session h hMetadata, hSame.metadata, hOverlay]

/-- After an import has succeeded, a later request for the same published object returns the
same session and makes no other, exactly if it is repeatable. -/
theorem import_repeats_iff (env : ImportEnv) (before after : Sessions) (first : ImportRequest)
    (found : SessionMetadata) (hStore : WellFormed before)
    (hFirst : handleImport env first before = (.ok found, after)) :
    ∀ sessions, Later env found.sessionId after sessions → ∀ request,
      keyFor request.remoteCheckpointId = keyFor first.remoteCheckpointId →
      ((∃ again, handleImport env request sessions = (.ok again, sessions) ∧
          again.sessionId = found.sessionId) ↔
        Repeatable env before sessions first request) := by
  obtain ⟨snapshot, metadata, state₁, hSnapshot, hImportable, hAfter, hState₁,
    hFound, hEquivalent⟩ :=
    first_import hStore hFirst
  intro sessions hLater request hKey
  rw [hFound] at hLater ⊢
  obtain ⟨hWell, state, hState, hSame⟩ := later_same hLater hAfter hState₁
  have hStill := equivalent_same (hAfter _ _ hState₁) (hWell _ _ hState) hSame hImportable.1
  have hHandle : handleImport env request sessions =
      match importIntoNew env request snapshot sessions with
      | (.ok metadata, sessions) => (.ok metadata, sessions)
      | (.error e, sessions) => (.error (.session e), sessions) := by
    rw [handleImport, hKey, hSnapshot]
  constructor
  · rintro ⟨again, hRun, hAgain⟩
    rw [hHandle] at hRun
    rcases importIntoNew_cases env request snapshot hWell with
      ⟨new, hNone, -, -, -, -, -, hNew⟩ | ⟨other, hOther, -, -, hOld⟩ | ⟨e, hError⟩
    · -- a new session would be in the store, which is unchanged
      rw [hNew] at hRun
      have hInserted := congrArg (fun run => run.2.lookup
        (env.importedSessionId request.remoteCheckpointId)) hRun
      simp only [lookup_insert, hNone] at hInserted
      cases hInserted
    · rw [hOld] at hRun
      have hId : env.importedSessionId request.remoteCheckpointId =
          env.importedSessionId first.remoteCheckpointId := by
        rw [← hAgain, ← (hWell _ _ hOther).named]
        cases hRun
        rfl
      have hState' : sessions.lookup (env.importedSessionId request.remoteCheckpointId) =
          some state := by rw [hId]; exact hState
      rw [hState'] at hOther
      cases hOther
      obtain ⟨hAccepted, hSameNow⟩ := (importIntoNew_again hWell hState' hImportable).mp hOld
      exact ⟨snapshot, metadata, state, hSnapshot, hImportable.1, hState, hId, hAccepted,
        hEquivalent.mp (hStill.mp hSameNow)⟩
    · rw [hError] at hRun
      cases hRun
  · rintro ⟨snapshot', metadata', state', hSnapshot', hMetadata', hState', hId, hAccepted, hPlain⟩
    rw [hSnapshot] at hSnapshot'
    cases hSnapshot'
    rw [hImportable.1] at hMetadata'
    cases hMetadata'
    rw [hState] at hState'
    cases hState'
    have hStateHere : sessions.lookup (env.importedSessionId request.remoteCheckpointId) =
        some state := by rw [hId]; exact hState
    have hOld := (importIntoNew_again hWell hStateHere hImportable).mpr
      ⟨hAccepted, hStill.mpr (hEquivalent.mpr hPlain)⟩
    refine ⟨state.metadata, ?_, (hWell _ _ hState).named⟩
    rw [hHandle, hOld]

/-! ## Requests that are not repeated -/

/-- A published snapshot that hides `/a`, whose two versions are given. -/
def publishedSnapshot (metadataVersion snapshotVersion : Int64) : SessionSnapshot :=
  ⟨some ⟨text "s", text "s", [], text "/cow", some ⟨false, []⟩, 0, 0, metadataVersion⟩,
    [⟨text "/a", some (.tombstone ⟨text "/a", 0, none⟩)⟩], snapshotVersion⟩

/-- One object is published, under the key `abc`. -/
def sampleEnv (snapshot : SessionSnapshot) (importedSessionId : List Char → Text) : ImportEnv where
  host := ⟨text "/cow", some⟩
  argon2 _ _ := none
  cowRootText := text "/cow"
  importedSessionId := importedSessionId
  published key := if key = ['a', 'b', 'c'] then some (some snapshot) else none

def sampleRequest (remoteCheckpointId : List Char) : ImportRequest :=
  ⟨remoteCheckpointId, [], none, [], 0⟩

/-- A stand-in for the identifiers of imported sessions. -/
def sampleId (remoteCheckpointId : List Char) : Text :=
  text "i" ++ remoteCheckpointId.map (fun c => UInt8.ofNat c.toNat)

/-- The same request again. -/
theorem import_repeats_plain :
    let env := sampleEnv (publishedSnapshot 2 2) sampleId
    let after := (handleImport env (sampleRequest ['a', 'b', 'c']) ∅).2
    ∃ again, handleImport env (sampleRequest ['a', 'b', 'c']) after = (.ok again, after) ∧
      again.sessionId = sampleId ['a', 'b', 'c'] := by
  intro env after
  have hOk : ((handleImport env (sampleRequest ['a', 'b', 'c']) ∅).1.map (·.sessionId)) =
      .ok (sampleId ['a', 'b', 'c']) := by decide +kernel
  have hPassword : (after.lookup (sampleId ['a', 'b', 'c'])).map (·.password) =
      some unprotectedRecord := by decide +kernel
  obtain ⟨state, hState, hRecord⟩ := map_eq_some_iff.mp hPassword
  cases hFirst : (handleImport env (sampleRequest ['a', 'b', 'c']) ∅).1 with
  | error e =>
    rw [hFirst] at hOk
    cases hOk
  | ok found =>
    rw [hFirst] at hOk
    have hFound : found.sessionId = sampleId ['a', 'b', 'c'] := Except.ok.inj hOk
    rw [← hFound]
    refine (import_repeats_iff env ∅ after (sampleRequest ['a', 'b', 'c']) found
      (fun _ _ h => by cases h) (Prod.ext hFirst rfl) after (.refl after)
      (sampleRequest ['a', 'b', 'c']) rfl).mpr
      ⟨publishedSnapshot 2 2, _, state, rfl, rfl, hState, rfl, ⟨fun _ => rfl, ?_, ?_⟩,
        .inr ⟨rfl, rfl, ?_⟩⟩
    · intro value hValue
      cases hValue
    · intro hProtected
      rw [hRecord] at hProtected
      cases hProtected
    · intro path entry hEntry
      have hKind : ∀ e ∈ (entriesToMap (publishedSnapshot 2 2).entries).entries,
          e.2.kind ≠ none := by decide +kernel
      exact hKind ⟨path, entry⟩ (Dict.mem_entries_iff.mpr hEntry)

/-- A snapshot whose versions differ is imported, and the same request is then refused. A
blank in front of the identifier names the same object and makes a second session. -/
theorem import_not_idempotent :
    (let env := sampleEnv (publishedSnapshot 2 3) sampleId
      let first := handleImport env (sampleRequest ['a', 'b', 'c']) ∅
      let second := handleImport env (sampleRequest ['a', 'b', 'c']) first.2
      first.1.map (·.sessionId) = .ok (sampleId ['a', 'b', 'c']) ∧
        second.1 = .error (.session (.conflict (text "remote checkpoint abc" ++
          text " already imported into " ++ sampleId ['a', 'b', 'c'])))) ∧
    (let env := sampleEnv (publishedSnapshot 2 2) sampleId
      let first := handleImport env (sampleRequest ['a', 'b', 'c']) ∅
      let second := handleImport env (sampleRequest [' ', 'a', 'b', 'c']) first.2
      keyFor [' ', 'a', 'b', 'c'] = keyFor ['a', 'b', 'c'] ∧
        first.1.map (·.sessionId) = .ok (sampleId ['a', 'b', 'c']) ∧
        second.1.map (·.sessionId) = .ok (sampleId [' ', 'a', 'b', 'c']) ∧
        second.2.keys.length = 2) := by
  decide +kernel

end FabricFs.Session
