import FabricFs.Session.Store

/-!
# The names of what the store keeps

The sessions root has the live, staging and quarantine directories of the sessions and the
recovery directory, and that one has the recovery records and the temporaries under which
they are staged.

* `artefacts_apart`: no two of them have the same host path, and loading takes every
  directory and every record for what it is.
-/

namespace FabricFs.Session

open Lib Protocol

variable {front back name value : Text}

theorem stripAround_eq_some : stripAround front back name = some value ↔
    name = front ++ (value ++ back) := by
  simp only [stripAround, Option.bind_eq_some_iff, Option.map_eq_some_iff, stripPrefix_eq_some]
  constructor
  · rintro ⟨rest, rfl, inner, hInner, rfl⟩
    rw [← List.reverse_reverse rest, hInner]
    simp
  · rintro rfl
    exact ⟨_, rfl, value.reverse, by simp, by simp⟩

/-! ## Host paths -/

/-- What the store keeps for a session, and the recovery directory. -/
inductive Artefact where
  | live (sessionId : Text)
  | staging (sessionId : Text)
  | deleting (sessionId : Text)
  | record (sessionId : Text)
  | stagedRecord (sessionId : Text)
  | recovery
  deriving DecidableEq

namespace Artefact

def ValidId : Artefact → Prop
  | live id | staging id | deleting id | record id | stagedRecord id =>
    isValidSessionDirName id = true
  | recovery => True

/-- `SessionPaths`, `SessionRecoveryPaths` and `staged_atomic_write_paths` below the root of
the sessions, by components. -/
def relPath : Artefact → List Text
  | live id => [id]
  | staging id => [text "." ++ (id ++ text ".tmp")]
  | deleting id => [text "." ++ (id ++ text ".deleting")]
  | record id => [recoveryDirName, id ++ text ".pb"]
  | stagedRecord id => [recoveryDirName, text "." ++ (id ++ text ".pb" ++ text ".tmp")]
  | recovery => [recoveryDirName]

def hostPath (sessionsRoot : List Text) (a : Artefact) : List Text := sessionsRoot ++ a.relPath

/-- Loading does not look at temporaries. -/
def loaded : Artefact → Option Artefact
  | stagedRecord _ => none
  | a => some a

def liveSession : Artefact → Option Text
  | live id => some id
  | _ => none

end Artefact

/-! ## Loading -/

/-- `load_existing_sessions` on the name of a directory: the session to load, if it does not go on
to the next one. -/
def sessionOfDir (name : Text) : Except SessionError (Option Text) :=
  if name = recoveryDirName then .ok none
  else if isStagingSessionDirName name || isDeleteQuarantineSessionDirName name then .ok none
  else (validateSessionId name).map fun _ => some name

/-- What the tests of `load_existing_sessions` say of the name of a directory; the session of a
staging or quarantine directory is the one that the test finds in the name. -/
def classifyDir (name : Text) : Except SessionError Artefact :=
  if name = recoveryDirName then .ok .recovery
  else if isStagingSessionDirName name then
    .ok (.staging ((stripAround (text ".") (text ".tmp") name).getD []))
  else if isDeleteQuarantineSessionDirName name then
    .ok (.deleting ((stripAround (text ".") (text ".deleting") name).getD []))
  else (validateSessionId name).map fun _ => .live name

/-- The loaded directories are the live ones. -/
theorem sessionOfDir_eq (name : Text) :
    sessionOfDir name = (classifyDir name).map Artefact.liveSession := by
  unfold sessionOfDir classifyDir
  split
  · rfl
  · cases isStagingSessionDirName name with
    | true => rfl
    | false =>
      cases isDeleteQuarantineSessionDirName name with
      | true => rfl
      | false => cases validateSessionId name <;> rfl

/-- `Path::file_stem` and `Path::extension` of a name. -/
def splitExtension (name : Text) : Text × Option Text :=
  let back := name.reverse.takeWhile (· ≠ 46)
  let stem := (name.reverse.drop (back.length + 1)).reverse
  if stem = [] then (name, none) else (stem, some back.reverse)

/-- `load_recovery_sessions` on the name of a file; any other file is left alone. -/
def classifyRecord (name : Text) : Except SessionError (Option Artefact) :=
  if (splitExtension name).2 = some (text "pb") then
    (validateSessionId (splitExtension name).1).map fun _ => some (.record (splitExtension name).1)
  else .ok none

/-- What loading makes of an entry of the sessions root or of the recovery directory. -/
def classify : List Text → Except SessionError (Option Artefact)
  | [name] => (classifyDir name).map some
  | [_, name] => classifyRecord name
  | _ => .ok none

theorem literal_names : text "." = [46] ∧ text ".tmp" = [46, 116, 109, 112] ∧
    text ".deleting" = [46, 100, 101, 108, 101, 116, 105, 110, 103] ∧
    text ".pb" = [46, 112, 98] ∧ text "pb" = [112, 98] ∧
    recoveryDirName = [46, 114, 101, 99, 111, 118, 101, 114, 121] := by
  decide +kernel

section Classification

open Artefact

attribute [local simp] classify classifyDir classifyRecord relPath loaded Except.map
  isStagingSessionDirName isDeleteQuarantineSessionDirName validateSessionId splitExtension

theorem classify_relPath {a : Artefact} (h : a.ValidId) : classify a.relPath = .ok a.loaded := by
  have hEnd : ∀ {x y : Text}, x = y → x.reverse = y.reverse := congrArg _
  cases a with
  | live id =>
    have hId : isValidSessionDirName id = true := h
    have hParts := hId
    simp only [isValidSessionDirName, Bool.and_eq_true, Bool.not_eq_true', bne_iff_ne] at hParts
    rw [relPath, classify, classifyDir, if_neg hParts.1.1.1.2, hParts.1.2, hParts.2]
    simp [hId]
  | staging id =>
    have hAround := stripAround_eq_some.mpr (rfl : text "." ++ (id ++ text ".tmp") = _)
    have hId : id ≠ [] := by rintro rfl; cases h
    have hName : text "." ++ (id ++ text ".tmp") ≠ recoveryDirName := fun hEq => by
      simpa [literal_names] using hEnd hEq
    simp [hAround, hId, hName]
  | deleting id =>
    have hAround := stripAround_eq_some.mpr (rfl : text "." ++ (id ++ text ".deleting") = _)
    have hId : id ≠ [] := by rintro rfl; cases h
    have hName : text "." ++ (id ++ text ".deleting") ≠ recoveryDirName := fun hEq => by
      simpa [literal_names] using hEnd hEq
    have hStaging : stripAround (text ".") (text ".tmp") (text "." ++ (id ++ text ".deleting")) =
        none := Option.eq_none_iff_forall_ne_some.mpr fun value hEq => by
      simpa [literal_names] using hEnd (stripAround_eq_some.mp hEq)
    simp [hAround, hStaging, hId, hName]
  | record id =>
    have hId : isValidSessionDirName id = true := h
    have hNil : id ≠ [] := by rintro rfl; cases h
    simp [literal_names, hId, hNil]
  | stagedRecord id => simp [literal_names]
  | recovery => simp

/-- Different artefacts have different paths, and loading tells what each of them is. -/
theorem artefacts_apart (sessionsRoot : List Text) :
    (∀ a b : Artefact, a.ValidId → b.ValidId →
      a.hostPath sessionsRoot = b.hostPath sessionsRoot → a = b) ∧
    ∀ a : Artefact, a.ValidId → classify a.relPath = .ok a.loaded := by
  refine ⟨fun a b ha hb h => ?_, fun _ => classify_relPath⟩
  have hPath : a.relPath = b.relPath := List.append_cancel_left h
  have hLoaded : a.loaded = b.loaded := by
    have := classify_relPath ha
    rw [hPath, classify_relPath hb] at this
    exact (Except.ok.inj this).symm
  cases a <;> cases b <;> simp_all

/-- A quarantine is known as one and is not the staging directory. -/
theorem artefacts_apart_quarantine :
    classify (deleting (text "s")).relPath = .ok (some (.deleting (text "s"))) ∧
      (deleting (text "s")).hostPath [] ≠ (staging (text "s")).hostPath [] := by
  have hValid : isValidSessionDirName (text "s") = true := by decide +kernel
  refine ⟨(artefacts_apart []).2 _ hValid, fun hSame => ?_⟩
  cases (artefacts_apart []).1 (deleting (text "s")) (staging (text "s")) hValid hValid hSame

end Classification

end FabricFs.Session
