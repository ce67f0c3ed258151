import FabricFs.Session.Snapshot

/-!
# Overlay versions

A mutation has `Headroom` if there is a version above those it starts from.

* `version_lt_iff`: a successful mutation leaves the version strictly greater exactly if it
  has headroom.
* `versions_increase`: this, and in a run whose committed mutations all have headroom, a
  snapshot import that expects a version observed before succeeds only if nothing was
  committed since.
* `version_without_headroom`: at the largest version an update leaves the version as it is,
  and imports lower it.
-/

namespace FabricFs.Session

open Lib Protocol Int64

/-! ## One mutation -/

variable {host : Host} {state : SessionState}

inductive Mutation where
  | update (request : UpdateOverlayRequest)
  | importSnapshot (snapshot : SessionSnapshot) (mode : ImportMode) (policy : ConflictPolicy)
      (expectedOverlayVersion : Option Int64)

/-- The state that the mutation commits. -/
def mutate (host : Host) (now : Int64) (mutation : Mutation) (state : SessionState) :
    Except SessionError SessionState :=
  match mutation with
  | .update request => .ok (updateOverlay request now state)
  | .importSnapshot snapshot mode policy expected =>
    importSnapshotIntoExisting host snapshot mode policy expected now state

/-- There is a version above those that the mutation starts from. -/
def Headroom (mutation : Mutation) (state : SessionState) : Prop :=
  match mutation with
  | .update _ | .importSnapshot _ .replace _ _ => state.metadata.overlayVersion < maxValue
  | .importSnapshot snapshot .merge _ _ =>
    max state.metadata.overlayVersion snapshot.overlayVersion < maxValue

theorem toInt_max (a b : Int64) : (max a b).toInt = max a.toInt b.toInt := by
  change (if a ≤ b then b else a).toInt = _
  split
  all_goals
    rename_i h
    rw [le_iff_toInt_le] at h
    omega

theorem toInt_succ (version : Int64) :
    (version + 1).toInt =
      if version.toInt < 2 ^ 63 - 1 then version.toInt + 1 else -2 ^ 63 := by
  have hLower := le_toInt version
  have hUpper := toInt_lt version
  have hOne : (1 : Int64).toInt = 1 := by decide
  rw [toInt_add, hOne]
  split
  · rw [Int.bmod_eq_of_le (by omega) (by omega)]
  · have hLast : version.toInt = 2 ^ 63 - 1 := by omega
    rw [hLast]
    decide

theorem toInt_saturatingSucc (version : Int64) :
    (saturatingSucc version).toInt =
      if version.toInt < 2 ^ 63 - 1 then version.toInt + 1 else version.toInt := by
  unfold saturatingSucc
  split
  · rename_i h
    rw [h, toInt_maxValue, if_neg (by omega)]
  · rename_i h
    rw [toInt_succ, if_pos, if_pos]
    all_goals
      have hUpper := toInt_lt version
      have hNe : version.toInt ≠ 2 ^ 63 - 1 := fun hEq =>
        h (toInt_inj.mp (hEq.trans toInt_maxValue.symm))
      omega

theorem import_ok {snapshot : SessionSnapshot} {mode : ImportMode} {policy : ConflictPolicy}
    {expected : Option Int64} {now : Int64} {state' : SessionState}
    (h : importSnapshotIntoExisting host snapshot mode policy expected now state = .ok state') :
    (∀ v, expected = some v → 0 ≤ v → v = state.metadata.overlayVersion) ∧
      state'.metadata.overlayVersion = match mode with
        | .replace => max (state.metadata.overlayVersion + 1) snapshot.overlayVersion
        | .merge => max state.metadata.overlayVersion snapshot.overlayVersion + 1 := by
  unfold importSnapshotIntoExisting at h
  cases hMeta : snapshot.metadata with
  | none =>
    rw [hMeta] at h
    cases h
  | some metadata =>
    rw [hMeta] at h
    simp only at h
    cases hRoot : host.canonicalize metadata.cowRoot with
    | none =>
      rw [hRoot] at h
      cases h
    | some cowRoot =>
      rw [hRoot] at h
      simp only at h
      split at h
      · cases h
      · split at h
        · cases h
        · rename_i hExpected
          refine ⟨fun v hv hNonneg => ?_, ?_⟩
          · subst hv
            simpa [Option.filter_some, hNonneg] using hExpected
          · cases mode with
            | replace =>
              cases h
              rfl
            | merge =>
              cases hMerge : ((entriesToMap snapshot.entries).entries.map (·.2)).foldlM
                  (mergeEntry policy) state.overlay with
              | error e =>
                simp only [importedOverlay, hMerge] at h
                cases h
              | ok overlay =>
                simp only [importedOverlay, hMerge] at h
                cases h
                rfl

/-- The version grows exactly if there is a version to grow to. -/
theorem version_lt_iff {now : Int64} {mutation : Mutation} {state' : SessionState}
    (h : mutate host now mutation state = .ok state') :
    state.metadata.overlayVersion < state'.metadata.overlayVersion ↔ Headroom mutation state := by
  have hLower := le_toInt state.metadata.overlayVersion
  have hUpper := toInt_lt state.metadata.overlayVersion
  cases mutation with
  | update request =>
    cases h
    simp only [Headroom, updateOverlay, lt_iff_toInt_lt, toInt_maxValue, toInt_saturatingSucc]
    split <;> omega
  | importSnapshot snapshot mode policy expected =>
    have hVersion := (import_ok h).2
    have hSnapshot := toInt_lt snapshot.overlayVersion
    cases mode with
    | replace =>
      simp only [Headroom, hVersion, lt_iff_toInt_lt, toInt_maxValue, toInt_max, toInt_succ]
      split <;> omega
    | merge =>
      simp only [Headroom, hVersion, lt_iff_toInt_lt, toInt_maxValue, toInt_max, toInt_succ]
      split <;> omega

/-! ## Runs of mutations -/

/-- What became of the write that commits a mutation: it is durable, it took effect and the
call reported an error, or it was given up. -/
inductive Outcome where
  | durable | applied | aborted
  deriving DecidableEq, Repr

structure Event where
  mutation : Mutation
  now : Int64
  outcome : Outcome

/-- The state that the event commits, if it commits one. -/
def committed (host : Host) (event : Event) (state : SessionState) : Option SessionState :=
  match mutate host event.now event.mutation state with
  | .error _ => none
  | .ok state' => if event.outcome = .aborted then none else some state'

def commitStep (host : Host) (event : Event) (state : SessionState) : SessionState :=
  (committed host event state).getD state

/-- How many mutations of the run were committed. -/
def commits (host : Host) : List Event → SessionState → Nat
  | [], _ => 0
  | event :: events, state =>
    (if (committed host event state).isSome then 1 else 0) +
      commits host events (commitStep host event state)

/-- A mutation that is committed has headroom. -/
def Roomy (host : Host) (event : Event) (state : SessionState) : Prop :=
  (committed host event state).isSome → Headroom event.mutation state

theorem version_commitStep {event : Event} (hRoomy : Roomy host event state) :
    state.metadata.overlayVersion.toInt + (if (committed host event state).isSome then 1 else 0) ≤
      (commitStep host event state).metadata.overlayVersion.toInt := by
  cases hCommit : committed host event state with
  | none => simp [commitStep, hCommit]
  | some state' =>
    have hHeadroom := hRoomy (by rw [hCommit]; rfl)
    have hOk : mutate host event.now event.mutation state = .ok state' := by
      unfold committed at hCommit
      split at hCommit
      · cases hCommit
      · rename_i found hFound
        split at hCommit
        · cases hCommit
        · cases hCommit
          exact hFound
    have hLt := lt_iff_toInt_lt.mp ((version_lt_iff hOk).mpr hHeadroom)
    simp only [commitStep, hCommit, Option.isSome_some, if_true, Option.getD_some]
    omega

/-- The version grows at least by one with every committed mutation. -/
theorem version_run {events : List Event}
    (hRoomy : Runs.Along (commitStep host) (Roomy host) events state) :
    state.metadata.overlayVersion.toInt + commits host events state ≤
      (Runs.run (commitStep host) events state).metadata.overlayVersion.toInt := by
  induction events generalizing state with
  | nil => simp [commits]
  | cons event events ih =>
    have hFirst := version_commitStep hRoomy.1
    have hRest := ih hRoomy.2
    rw [Runs.run_cons, commits]
    cases hCommit : (committed host event state).isSome with
    | true =>
      simp only [hCommit, if_true] at hFirst ⊢
      omega
    | false =>
      simp only [hCommit, Bool.false_eq_true, if_false] at hFirst ⊢
      omega

/-- A successful mutation increases the version exactly if it has headroom; and in a run
where all committed mutations have, an import that expects the version observed at its
start succeeds only if nothing was committed. -/
theorem versions_increase (host : Host) (state : SessionState) :
    (∀ now mutation state', mutate host now mutation state = .ok state' →
      (state.metadata.overlayVersion < state'.metadata.overlayVersion ↔ Headroom mutation state)) ∧
    (∀ events snapshot mode policy now state',
      Runs.Along (commitStep host) (Roomy host) events state →
      0 ≤ state.metadata.overlayVersion →
      mutate host now (.importSnapshot snapshot mode policy (some state.metadata.overlayVersion))
        (Runs.run (commitStep host) events state) = .ok state' →
      commits host events state = 0) := by
  refine ⟨fun now mutation state' h => version_lt_iff h, ?_⟩
  intro events snapshot mode policy now state' hRoomy hNonneg hImport
  have hSame := (import_ok hImport).1 _ rfl hNonneg
  have hGrown := version_run hRoomy
  rw [← hSame] at hGrown
  omega

/-! ## The largest version -/

/-- A session at the given version, without entries. -/
def sampleState (version : Int64) : SessionState :=
  ⟨⟨text "s", text "s", [], text "/cow", none, 0, 0, version⟩, ⟨false, [], [], []⟩, ∅⟩

def sampleSnapshot (version : Int64) : SessionSnapshot :=
  buildSnapshot (sampleState version)

def sampleHost : Host := ⟨text "/cow", some⟩

/-- An update that removes a path, and an import with the version observed before it and no
commit in between. -/
theorem versions_increase_unchanged :
    4 < (updateOverlay ⟨[], [], [text "/a"], []⟩ 1 (sampleState 4)).metadata.overlayVersion ∧
    commits sampleHost [⟨.update ⟨[], [], [], []⟩, 1, .aborted⟩] (sampleState 4) = 0 := by
  refine ⟨((versions_increase sampleHost (sampleState 4)).1 1 (.update ⟨[], [], [text "/a"], []⟩) _
    rfl).mpr (show (4 : Int64) < maxValue by decide), ?_⟩
  rcases hImport : mutate sampleHost 2
      (.importSnapshot (sampleSnapshot 2) .merge .error (some 4)) (sampleState 4) with e | state'
  · have hOk : (mutate sampleHost 2 (.importSnapshot (sampleSnapshot 2) .merge .error (some 4))
        (sampleState 4)).isOk = true := by decide +kernel
    rw [hImport] at hOk
    cases hOk
  · exact (versions_increase sampleHost (sampleState 4)).2 _ (sampleSnapshot 2) .merge .error 2
      state' ⟨(fun h => by cases h), trivial⟩ (by decide) hImport

/-- At the largest version an update commits without a new version; an import that replaces
the overlay, or merges into it, lowers the version. -/
theorem version_without_headroom :
    let top := sampleState maxValue
    (updateOverlay ⟨[], [], [text "/a"], []⟩ 1 top).metadata.overlayVersion = maxValue ∧
      (mutate sampleHost 1 (.importSnapshot (sampleSnapshot 2) .replace .error none) top).map
        (·.metadata.overlayVersion) = .ok 2 ∧
      (mutate sampleHost 1 (.importSnapshot (sampleSnapshot maxValue) .merge .error none)
        (sampleState 4)).map (·.metadata.overlayVersion) = .ok minValue := by
  decide +kernel

end FabricFs.Session
