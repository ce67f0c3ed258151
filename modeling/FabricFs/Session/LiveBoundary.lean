import FabricFs.Session.Quarantine

/-!
# Which writes have reached the live file

A write of the overlay file is staged, its recovery record is armed, and then the staged file
is renamed to the live file. `commit_live_overlay_update` takes a write that failed here for
one that left the live file alone, removes the staged file and the record, and keeps the old
state in memory.

* `writeWithRecovery_exits`: how a write ends, with what the disk then holds and which
  primitives worked.
* `restartLoads_live`, `restartLoads_counting`: what a restart finds on such a disk.
* `commit_classified_iff`: a write is reported rightly and an aborted one leaves memory,
  disk and restart in agreement, exactly if no rename goes unseen and no record is stranded.
* `commit_misclassified`: the directory cannot be opened after the rename, and the change is
  reported as aborted.
-/

namespace FabricFs.Session.Durability

open Lib Lib.Prog Protocol SessionDisk SessionDirectory List

/-! ## Symbolic execution with known verdicts -/

/-- Whether the primitive with the number works; those that are not listed do. -/
def worksAt (verdicts : List Bool) (k : Nat) : Bool := verdicts.getD k true

theorem worksAt_of_drop_nil {verdicts : List Bool} {k : Nat} (h : verdicts.drop k = []) :
    worksAt verdicts k = true ∧ verdicts.drop (k + 1) = [] := by
  have hEnd : verdicts.length ≤ k := drop_eq_nil_iff.mp h
  refine ⟨?_, drop_eq_nil_of_le (by omega)⟩
  rw [worksAt, getD_eq_getElem?_getD, List.getElem?_eq_none hEnd]
  rfl

theorem worksAt_of_drop_cons {verdicts rest : List Bool} {k : Nat} {works : Bool}
    (h : verdicts.drop k = works :: rest) :
    worksAt verdicts k = works ∧ verdicts.drop (k + 1) = rest := by
  have hHead : verdicts[k]? = some works := by
    rw [← List.head?_drop, h]
    rfl
  refine ⟨?_, ?_⟩
  · rw [worksAt, getD_eq_getElem?_getD, hHead]
    rfl
  · rw [← tail_drop, h]
    rfl

/-- The first `i` staging and `j` other primitives have been used. -/
structure Tracked (staging commit : List Bool) (i j : Nat) (P : SessionDisk → Memory → Prop)
    (s : StoreState) : Prop where
  staging : s.staging = (staging.drop i).map verdictOf
  commit : s.commit = (commit.drop j).map verdictOf
  fact : P s.disk s.memory

section Tracking

variable {env : DurabilityEnv} {α : Type} {staging commit : List Bool} {i j : Nat}
  {P P' : SessionDisk → Memory → Prop} {s : StoreState}

theorem Tracked.on (h : Tracked staging commit i j P s) : On P s := by
  refine ⟨fun verdict hVerdict loss => ?_, h.fact⟩
  rw [h.staging, h.commit, mem_append, mem_map, mem_map] at hVerdict
  rcases hVerdict with ⟨works, -, rfl⟩ | ⟨works, -, rfl⟩ <;> cases works <;> simp [verdictOf]

theorem triple_stagingTick :
    Triple env (Tracked staging commit i j P) stagingTick
      (fun _ s => Tracked staging commit (i + 1) j P s ∧ worksAt staging i = true)
      (fun s => Tracked staging commit (i + 1) j P s ∧ worksAt staging i = false) := by
  intro s hs
  unfold stagingTick
  cases hDrop : staging.drop i with
  | nil =>
    obtain ⟨hWorks, hRest⟩ := worksAt_of_drop_nil hDrop
    have hNone : s.staging = [] := by
      rw [hs.staging, hDrop]
      rfl
    rw [hNone]
    exact ⟨⟨by rw [hNone, hRest]; rfl, hs.commit, hs.fact⟩, hWorks⟩
  | cons works rest =>
    obtain ⟨hWorks, hRest⟩ := worksAt_of_drop_cons hDrop
    have hSome : s.staging = verdictOf works :: rest.map verdictOf := by
      rw [hs.staging, hDrop]
      rfl
    rw [hSome]
    cases works with
    | true => exact ⟨⟨by rw [hRest], hs.commit, hs.fact⟩, hWorks⟩
    | false => exact ⟨⟨by rw [hRest], hs.commit, hs.fact⟩, hWorks⟩

theorem triple_commitTick :
    Triple env (Tracked staging commit i j P) commitTick
      (fun _ s => Tracked staging commit i (j + 1) P s ∧ worksAt commit j = true)
      (fun s => Tracked staging commit i (j + 1) P s ∧ worksAt commit j = false) := by
  intro s hs
  unfold commitTick
  cases hDrop : commit.drop j with
  | nil =>
    obtain ⟨hWorks, hRest⟩ := worksAt_of_drop_nil hDrop
    have hNone : s.commit = [] := by
      rw [hs.commit, hDrop]
      rfl
    rw [hNone]
    exact ⟨⟨hs.staging, by rw [hNone, hRest]; rfl, hs.fact⟩, hWorks⟩
  | cons works rest =>
    obtain ⟨hWorks, hRest⟩ := worksAt_of_drop_cons hDrop
    have hSome : s.commit = verdictOf works :: rest.map verdictOf := by
      rw [hs.commit, hDrop]
      rfl
    rw [hSome]
    cases works with
    | true => exact ⟨⟨hs.staging, by rw [hRest], hs.fact⟩, hWorks⟩
    | false => exact ⟨⟨hs.staging, by rw [hRest], hs.fact⟩, hWorks⟩

end Tracking

/-! ## Programs that do not crash -/

/-- Without a crash among the verdicts, the program ends with a result or an error. -/
def CrashFree {α : Type} (env : DurabilityEnv) (x : StoreProg α) : Prop :=
  ∀ s, NoCrash s → (x env s).1 ≠ .error .crash ∧ NoCrash (x env s).2

section CrashFreeRules

variable {env : DurabilityEnv} {α β : Type} {x : StoreProg α}

theorem crashFree_pure (a : α) : CrashFree env (pure a) := fun _ hs => ⟨(fun h => by cases h), hs⟩

theorem crashFree_fail (e : SessionError) : CrashFree env (fail e : StoreProg α) :=
  fun _ hs => ⟨(fun h => by cases h), hs⟩

theorem crashFree_state (g : StoreState → α) : CrashFree env (state g) :=
  fun _ hs => ⟨(fun h => by cases h), hs⟩

theorem crashFree_changeDisk (f : SessionDisk → SessionDisk) : CrashFree env (changeDisk f) :=
  fun _ hs => ⟨(fun h => by cases h), hs⟩

theorem crashFree_bind {f : α → StoreProg β} (hx : CrashFree env x)
    (hf : ∀ a, CrashFree env (f a)) : CrashFree env (x >>= f) := by
  intro s hs
  obtain ⟨hResult, hAfter⟩ := hx s hs
  rw [bind_run]
  rcases hr : x env s with ⟨(_ | _) | a, s'⟩
  · rw [hr] at hAfter
    exact ⟨(fun h => by cases h), hAfter⟩
  · rw [hr] at hResult
    exact absurd rfl hResult
  · rw [hr] at hAfter
    exact hf a s' hAfter

theorem crashFree_attempt (hx : CrashFree env x) : CrashFree env (attempt x) := by
  intro s hs
  obtain ⟨hResult, hAfter⟩ := hx s hs
  unfold attempt
  rcases hr : x env s with ⟨(_ | _) | a, s'⟩
  · rw [hr] at hAfter
    exact ⟨(fun h => by cases h), hAfter⟩
  · rw [hr] at hResult
    exact absurd rfl hResult
  · rw [hr] at hAfter
    exact ⟨(fun h => by cases h), hAfter⟩

theorem crashFree_stagingTick : CrashFree env stagingTick := by
  intro s hs
  refine ⟨?_, ((keeps_iff.mp keeps_stagingTick) s ⟨hs, trivial⟩ : On (fun _ _ => True) _).1⟩
  unfold stagingTick
  split
  next => exact fun h => by cases h
  next => exact fun h => by cases h
  next => exact fun h => by cases h
  next loss rest hStaging => exact absurd rfl (hs (.crashes loss) (by simp [hStaging]) loss)

theorem crashFree_commitTick : CrashFree env commitTick := by
  intro s hs
  refine ⟨?_, ((keeps_iff.mp keeps_commitTick) s ⟨hs, trivial⟩ : On (fun _ _ => True) _).1⟩
  unfold commitTick
  split
  next => exact fun h => by cases h
  next => exact fun h => by cases h
  next => exact fun h => by cases h
  next loss rest hCommit => exact absurd rfl (hs (.crashes loss) (by simp [hCommit]) loss)

/-- An attempt of such a program always has a result. -/
theorem triple_attempt_crashFree {I F E : StoreState → Prop} {Q : α → StoreState → Prop}
    (hx : CrashFree env x) (hI : ∀ s, I s → NoCrash s) (h : Triple env I x Q F) :
    Triple env I (attempt x) (fun res s =>
      match res with
      | .ok a => Q a s
      | .error _ => F s) E := by
  intro s hs
  have hRun := h s hs
  have hResult := (hx s (hI s hs)).1
  unfold attempt
  rcases hr : x env s with ⟨(e | _) | a, s'⟩
  · rw [hr] at hRun
    exact hRun
  · rw [hr] at hResult
    exact absurd rfl hResult
  · rw [hr] at hRun
    exact hRun

theorem keeps_attempt_crashFree {I E : StoreState → Prop} (hx : CrashFree env x)
    (hI : ∀ s, I s → NoCrash s) (h : Keeps env I x) :
    Triple env I (attempt x) (fun _ => I) E :=
  (triple_attempt_crashFree hx hI h).post fun res _ hs => by cases res <;> exact hs

theorem crashFree_syncDirectory (f : SessionDisk → SessionDisk) : CrashFree env (syncDirectory f) :=
  crashFree_bind crashFree_commitTick fun _ => crashFree_changeDisk _

theorem crashFree_openOrCreate (slot : Slot) : CrashFree env (openOrCreate slot) := by
  refine crashFree_bind (crashFree_state _) fun disk => ?_
  split
  · exact crashFree_pure _
  · exact crashFree_bind (crashFree_changeDisk _) fun _ => crashFree_pure _

theorem crashFree_openExisting (slot : Slot) : CrashFree env (openExisting slot) := by
  refine crashFree_bind (crashFree_state _) fun disk => ?_
  split
  · exact crashFree_pure _
  · exact crashFree_fail _

theorem crashFree_stageFile (slot : Slot) (file : SessionFile) :
    CrashFree env (stageFile slot file) :=
  crashFree_bind crashFree_stagingTick fun _ =>
    crashFree_bind (crashFree_openOrCreate slot) fun _ =>
    crashFree_bind crashFree_stagingTick fun _ => crashFree_bind (crashFree_changeDisk _) fun _ =>
    crashFree_bind crashFree_stagingTick fun _ => crashFree_bind crashFree_stagingTick fun _ =>
    crashFree_bind crashFree_stagingTick fun _ => crashFree_bind crashFree_stagingTick fun _ =>
    crashFree_changeDisk _

theorem crashFree_commitFile (slot : Slot) (file : SessionFile) (contents : Contents) :
    CrashFree env (commitFile slot file contents) :=
  crashFree_bind (crashFree_openExisting slot) fun _ =>
    crashFree_bind crashFree_commitTick fun _ => crashFree_bind (crashFree_changeDisk _) fun _ =>
    crashFree_bind crashFree_commitTick fun _ =>
    crashFree_bind (crashFree_attempt (crashFree_syncDirectory _)) fun _ => crashFree_pure _

theorem crashFree_clearRecoveryState : CrashFree env clearRecoveryState :=
  crashFree_bind crashFree_commitTick fun _ => crashFree_bind (crashFree_changeDisk _) fun _ =>
    crashFree_syncDirectory _

theorem crashFree_persistRecoveryState (contents : Contents) (durability : SessionDurability) :
    CrashFree env (persistRecoveryState contents durability) := by
  refine crashFree_bind ?_ fun _ => crashFree_bind ?_ fun written => ?_
  · exact crashFree_bind crashFree_stagingTick fun _ =>
      crashFree_bind crashFree_stagingTick fun _ => crashFree_bind (crashFree_changeDisk _)
      fun _ => crashFree_bind crashFree_stagingTick fun _ =>
      crashFree_bind crashFree_stagingTick fun _ => crashFree_bind crashFree_stagingTick fun _ =>
      crashFree_bind crashFree_stagingTick fun _ => crashFree_changeDisk _
  · exact crashFree_bind crashFree_commitTick fun _ =>
      crashFree_bind (crashFree_changeDisk _) fun _ => crashFree_bind crashFree_commitTick fun _ =>
      crashFree_bind (crashFree_attempt (crashFree_syncDirectory _)) fun _ => crashFree_pure _
  · cases written with
    | durable => exact crashFree_pure _
    | renamedNeedsDirectorySync => exact crashFree_fail _

theorem crashFree_arm (contents : Contents) (durability : SessionDurability) :
    CrashFree env (armPreLiveRecoveryState contents durability) := by
  refine crashFree_bind (crashFree_attempt (crashFree_persistRecoveryState _ _)) fun res => ?_
  cases res with
  | ok => exact crashFree_pure _
  | error e =>
    exact crashFree_bind (crashFree_attempt crashFree_clearRecoveryState) fun _ =>
      crashFree_fail e

theorem crashFree_removeLiveTmp (file : SessionFile) : CrashFree env (removeLiveTmp file) := by
  refine crashFree_bind (crashFree_state _) fun disk => ?_
  split
  · exact crashFree_bind crashFree_commitTick fun _ => crashFree_changeDisk _
  · exact crashFree_commitTick

/-- What a write of a live file removes when it is aborted. -/
theorem crashFree_discardStaged :
    CrashFree env (discardPreLiveRecoveryArtifacts (.pendingSync .sessionDir)) :=
  crashFree_bind (crashFree_bind (crashFree_removeLiveTmp _) fun _ => crashFree_removeLiveTmp _)
    fun _ => crashFree_clearRecoveryState

theorem crashFree_retrySync (pending : PendingDirectorySync) :
    CrashFree env (retrySync pending) := by
  cases pending with
  | sessionDir =>
    exact crashFree_bind (crashFree_openExisting _) fun _ => crashFree_syncDirectory _
  | sessionsRoot => exact crashFree_syncDirectory _

end CrashFreeRules

/-! ## The steps of a write -/

/-- What the current entries of the disk are, as far as the session is concerned. -/
def Sees (n : Nat) (root : RootEntries) (dir : SessionDirectory) (record : Option RecoveryRecord)
    (memory : Memory) (d : SessionDisk) (m : Memory) : Prop :=
  d.root.current = root ∧ (d.dirs n).current = dir ∧ d.record = record ∧ m = memory

section Writes

variable {env : DurabilityEnv} {staging commit : List Bool} {i j n : Nat} {root : RootEntries}
  {dir : SessionDirectory} {record : Option RecoveryRecord} {memory : Memory}

variable {d : SessionDisk} {m : Memory} {E : StoreState → Prop}
  {found : Option SessionSnapshot × Option PasswordRecord}

theorem sees_onDir {f : Delayed SessionDirectory → Delayed SessionDirectory}
    {g : SessionDirectory → SessionDirectory} (hf : ∀ d, (f d).current = g d.current)
    (h : Sees n root dir record memory d m) :
    Sees n root (g dir) record memory (d.onDir n f) m := by
  refine ⟨h.1, ?_, h.2.2.1, h.2.2.2⟩
  simp [hf, h.2.1]

theorem sees_syncDir (h : Sees n root dir record memory d m) :
    Sees n root dir record memory (d.onDir n Delayed.sync) m :=
  sees_onDir (f := Delayed.sync) (g := id) current_sync h

theorem triple_openLive (hLive : root.live = some n) (x : StoreProg Nat)
    (hx : x = openOrCreate .live ∨ x = openExisting .live) :
    Triple env (Tracked staging commit i j (Sees n root dir record memory)) x
      (fun found s => Tracked staging commit i j (Sees n root dir record memory) s ∧ found = n)
      E := by
  intro s hs
  have hGet : s.disk.root.current.get .live = some n := by
    rw [hs.fact.1]
    exact hLive
  rcases hx with rfl | rfl
  · rw [openOrCreate, state_bind_run, hGet]
    exact ⟨hs, rfl⟩
  · rw [openExisting, state_bind_run, hGet]
    exact ⟨hs, rfl⟩

theorem triple_trackedDisk {P P' : SessionDisk → Memory → Prop} {f : SessionDisk → SessionDisk}
    (h : ∀ d m, P d m → P' (f d) m) :
    Triple env (Tracked staging commit i j P) (changeDisk f)
      (fun _ => Tracked staging commit i j P') E :=
  fun s hs => ⟨hs.staging, hs.commit, h s.disk s.memory hs.fact⟩

theorem triple_syncTracked {P : SessionDisk → Memory → Prop} {f : SessionDisk → SessionDisk}
    (h : ∀ d m, P d m → P (f d) m) :
    Triple env (Tracked staging commit i j P) (syncDirectory f)
      (fun _ s => Tracked staging commit i (j + 1) P s ∧ worksAt commit j = true)
      (fun s => Tracked staging commit i (j + 1) P s ∧ worksAt commit j = false) := by
  refine triple_learn triple_commitTick fun _ hWorks => ?_
  exact (triple_trackedDisk h).post (fun _ _ hs => ⟨hs, hWorks⟩)

/-- Six primitives in a row. -/
def SixWork (staging : List Bool) (i : Nat) : Prop := ∀ k < 6, worksAt staging (i + k) = true

def SomeOfSixFails (staging : List Bool) (i : Nat) : Prop :=
  ∃ k < 6, worksAt staging (i + k) = false

theorem sixWork_of (h0 : worksAt staging i = true) (h1 : worksAt staging (i + 1) = true)
    (h2 : worksAt staging (i + 2) = true) (h3 : worksAt staging (i + 3) = true)
    (h4 : worksAt staging (i + 4) = true) (h5 : worksAt staging (i + 5) = true) :
    SixWork staging i := by
  intro k hk
  have hCases : k = 0 ∨ k = 1 ∨ k = 2 ∨ k = 3 ∨ k = 4 ∨ k = 5 := by omega
  rcases hCases with rfl | rfl | rfl | rfl | rfl | rfl <;> assumption

/-- A staged file is there only by its temporary name. -/
theorem triple_stageLive (hLive : root.live = some n) (file : SessionFile) :
    Triple env (Tracked staging commit i j (Sees n root dir record memory)) (stageFile .live file)
      (fun _ s => Tracked staging commit (i + 6) j
        (Sees n root (dir.setTmp file true) record memory) s ∧ SixWork staging i)
      (fun s => (∃ present : Bool, On (Sees n root
          (if present then dir.setTmp file true else dir) record memory) s) ∧
        SomeOfSixFails staging i) := by
  refine triple_learn (triple_stagingTick.weaken fun s hs =>
    ⟨⟨false, hs.1.on⟩, 0, by omega, hs.2⟩) fun _ h0 => ?_
  refine triple_bind (triple_openLive hLive _ (.inl rfl)) fun found => triple_fact ?_
  rintro rfl
  refine triple_learn (triple_stagingTick.weaken fun s hs =>
    ⟨⟨false, hs.1.on⟩, 1, by omega, hs.2⟩) fun _ h1 => ?_
  refine triple_then (triple_trackedDisk fun d m =>
    sees_onDir (g := setTmp file true) fun d => by simp) ?_
  refine triple_learn (triple_stagingTick.weaken fun s hs =>
    ⟨⟨true, hs.1.on⟩, 2, by omega, hs.2⟩) fun _ h2 => ?_
  refine triple_learn (triple_stagingTick.weaken fun s hs =>
    ⟨⟨true, hs.1.on⟩, 3, by omega, hs.2⟩) fun _ h3 => ?_
  refine triple_learn (triple_stagingTick.weaken fun s hs =>
    ⟨⟨true, hs.1.on⟩, 4, by omega, hs.2⟩) fun _ h4 => ?_
  refine triple_learn (triple_stagingTick.weaken fun s hs =>
    ⟨⟨true, hs.1.on⟩, 5, by omega, hs.2⟩) fun _ h5 => ?_
  refine Triple.post (triple_trackedDisk fun d m => sees_syncDir)
    (fun _ _ hs => ⟨hs, sixWork_of h0 h1 h2 h3 h4 h5⟩)

theorem triple_stageRecord :
    Triple env (Tracked staging commit i j (Sees n root dir record memory)) stageRecord
      (fun _ s => Tracked staging commit (i + 6) j (Sees n root dir record memory) s ∧
        SixWork staging i)
      (fun s => On (Sees n root dir record memory) s ∧ SomeOfSixFails staging i) := by
  have hTick : ∀ {l k}, k < 6 → l = i + k →
      Triple env (Tracked staging commit l j (Sees n root dir record memory)) stagingTick
        (fun _ s => Tracked staging commit (l + 1) j (Sees n root dir record memory) s ∧
          worksAt staging l = true)
        (fun s => On (Sees n root dir record memory) s ∧ SomeOfSixFails staging i) := by
    intro l k hk hl
    exact triple_stagingTick.weaken fun s hs => ⟨hs.1.on, k, hk, hl ▸ hs.2⟩
  refine triple_learn (hTick (k := 0) (by omega) rfl) fun _ h0 => ?_
  refine triple_learn (hTick (k := 1) (by omega) rfl) fun _ h1 => ?_
  have hName : ∀ d m, Sees n root dir record memory d m → Sees n root dir record memory
      (d.onRecovery (Delayed.change fun e => { e with recordTmp := true })) m := by
    rintro d m ⟨hRoot, hDir, hRecord, hMemory⟩
    exact ⟨hRoot, hDir, by simpa [SessionDisk.record] using hRecord, hMemory⟩
  refine triple_then (triple_trackedDisk hName) ?_
  refine triple_learn (hTick (k := 2) (by omega) rfl) fun _ h2 => ?_
  refine triple_learn (hTick (k := 3) (by omega) rfl) fun _ h3 => ?_
  refine triple_learn (hTick (k := 4) (by omega) rfl) fun _ h4 => ?_
  refine triple_learn (hTick (k := 5) (by omega) rfl) fun _ h5 => ?_
  refine Triple.post (triple_trackedDisk fun d m h => h)
    (fun _ _ hs => ⟨hs, sixWork_of h0 h1 h2 h3 h4 h5⟩)

/-- As `Sees`, with several possible records. -/
def SeesOneOf (n : Nat) (root : RootEntries) (dir : SessionDirectory)
    (records : List (Option RecoveryRecord)) (memory : Memory) (d : SessionDisk) (m : Memory) :
    Prop :=
  d.root.current = root ∧ (d.dirs n).current = dir ∧ d.record ∈ records ∧ m = memory

theorem Sees.oneOf {records : List (Option RecoveryRecord)} (h : Sees n root dir record memory d m)
    (hMem : record ∈ records) :
    SeesOneOf n root dir records memory d m :=
  ⟨h.1, h.2.1, h.2.2.1 ▸ hMem, h.2.2.2⟩

theorem triple_persistLive (new : RecoveryRecord) :
    Triple env (Tracked staging commit i j (Sees n root dir record memory))
      (persistRecoveryState new.contents new.durability)
      (fun _ s => Tracked staging commit (i + 6) (j + 3) (Sees n root dir (some new) memory) s ∧
        SixWork staging i ∧ ∀ k < 3, worksAt commit (j + k) = true)
      (fun s => On (SeesOneOf n root dir [record, some new] memory) s ∧
        (SomeOfSixFails staging i ∨ ∃ k < 3, worksAt commit (j + k) = false)) := by
  have hOld : ∀ {s k}, k < 3 → On (Sees n root dir record memory) s ∧
      worksAt commit (j + k) = false → On (SeesOneOf n root dir [record, some new] memory) s ∧
        (SomeOfSixFails staging i ∨ ∃ k < 3, worksAt commit (j + k) = false) :=
    fun hk hs => ⟨hs.1.mono fun h => h.oneOf (by simp), .inr ⟨_, hk, hs.2⟩⟩
  have hNew : ∀ {s k}, k < 3 → On (Sees n root dir (some new) memory) s ∧
      worksAt commit (j + k) = false → On (SeesOneOf n root dir [record, some new] memory) s ∧
        (SomeOfSixFails staging i ∨ ∃ k < 3, worksAt commit (j + k) = false) :=
    fun hk hs => ⟨hs.1.mono fun h => h.oneOf (by simp), .inr ⟨_, hk, hs.2⟩⟩
  refine triple_learn (triple_stageRecord.weaken fun s hs =>
    ⟨hs.1.mono fun h => h.oneOf (by simp), .inl hs.2⟩) fun _ hSix => ?_
  -- the outcome of the commit is known only from its last primitive
  refine triple_bind (Q := fun written s => Tracked staging commit (i + 6) (j + 3)
      (Sees n root dir (some new) memory) s ∧ worksAt commit j = true ∧
      worksAt commit (j + 1) = true ∧
      (worksAt commit (j + 2) = true ↔ written = .durable)) ?_ fun written => ?_
  · refine triple_learn (triple_commitTick.weaken fun s hs =>
      hOld (k := 0) (by omega) ⟨hs.1.on, hs.2⟩) fun _ h0 => ?_
    have hPut : ∀ d m, Sees n root dir record memory d m → Sees n root dir (some new) memory
        (d.onRecovery (Delayed.change fun _ => ⟨some new, false⟩)) m := by
      rintro d m ⟨hRoot, hDir, -, hMemory⟩
      exact ⟨hRoot, hDir, by simp [SessionDisk.record], hMemory⟩
    refine triple_then (triple_trackedDisk hPut) ?_
    refine triple_learn (triple_commitTick.weaken fun s hs =>
      hNew (k := 1) (by omega) ⟨hs.1.on, hs.2⟩) fun _ h1 => ?_
    refine triple_bind (triple_attempt (triple_syncTracked fun d m h => h) fun s hs =>
      hNew (k := 2) (by omega) ⟨hs.1.on, hs.2⟩) fun synced => ?_
    cases synced with
    | ok => exact triple_pure fun s hs => ⟨hs.1, h0, h1, by simp [hs.2, outcome]⟩
    | error e => exact triple_pure fun s hs => ⟨hs.1, h0, h1, by simp [hs.2, outcome]⟩
  · refine triple_fact fun hWorks => ?_
    cases written with
    | durable =>
      refine triple_pure fun s hs => ⟨hs, hSix, fun k hk => ?_⟩
      have hCases : k = 0 ∨ k = 1 ∨ k = 2 := by omega
      rcases hCases with rfl | rfl | rfl
      · exact hWorks.1
      · exact hWorks.2.1
      · exact hWorks.2.2.mpr rfl
    | renamedNeedsDirectorySync =>
      refine triple_throw fun s hs => hNew (k := 2) (by omega) ⟨hs.on, ?_⟩
      simpa using hWorks.2.2

/-- The record is armed only if its primitives work; otherwise it may be left behind. -/
theorem triple_armLive (new : RecoveryRecord) :
    Triple env (Tracked staging commit i j (Sees n root dir record memory))
      (armPreLiveRecoveryState new.contents new.durability)
      (fun _ s => Tracked staging commit (i + 6) (j + 3) (Sees n root dir (some new) memory) s ∧
        SixWork staging i ∧ ∀ k < 3, worksAt commit (j + k) = true)
      (fun s => On (SeesOneOf n root dir [record, some new, none] memory) s ∧
        (SomeOfSixFails staging i ∨ ∃ k < 3, worksAt commit (j + k) = false)) := by
  have hMore : ∀ s, On (SeesOneOf n root dir [record, some new] memory) s →
      On (SeesOneOf n root dir [record, some new, none] memory) s :=
    fun s hs => hs.mono fun h => ⟨h.1, h.2.1, by
      have hMem := h.2.2.1
      simp only [mem_cons, not_mem_nil, or_false] at hMem ⊢
      tauto, h.2.2.2⟩
  refine triple_bind (triple_attempt (triple_persistLive new) fun s hs => ⟨hMore s hs.1, hs.2⟩)
    fun persisted => ?_
  cases persisted with
  | ok => exact triple_done
  | error e =>
    refine triple_fact fun hFact => ?_
    refine triple_conseq (P := On (SeesOneOf n root dir [record, some new, none] memory))
      (E := On (SeesOneOf n root dir [record, some new, none] memory)) ?_ hMore
      (fun _ _ hs => hs) (fun s hs => ⟨hs, hFact⟩)
    refine triple_seq (keeps_attempt (keeps_seq keeps_commitTick <|
      keeps_seq (keeps_changeDisk ?_) <|
      keeps_seq keeps_commitTick <| keeps_changeDisk fun _ _ h => h)) <|
      triple_thrown
    rintro d m ⟨hRoot, hDir, -, hMemory⟩
    exact ⟨hRoot, hDir, by simp [SessionDisk.record], hMemory⟩

/-- A failed commit has renamed the file exactly if its first primitive worked. -/
theorem triple_commitLive (hLive : root.live = some n) (file : SessionFile) (contents : Contents) :
    Triple env (Tracked staging commit i j (Sees n root dir record memory))
      (commitFile .live file contents)
      (fun _ s => On (Sees n root (dir.put file contents) record memory) s ∧
        worksAt commit j = true ∧ worksAt commit (j + 1) = true)
      (fun s => Tracked staging commit i (j + 1) (Sees n root dir record memory) s ∧
          worksAt commit j = false ∨
        On (Sees n root (dir.put file contents) record memory) s ∧
          worksAt commit j = true ∧ worksAt commit (j + 1) = false) := by
  refine triple_bind (triple_openLive hLive _ (.inr rfl)) fun found => triple_fact ?_
  rintro rfl
  refine triple_learn (triple_commitTick.weaken fun s hs => .inl hs) fun _ h0 => ?_
  refine triple_then (triple_trackedDisk fun d m =>
    sees_onDir (g := put file contents) fun d => by simp) ?_
  refine triple_learn (triple_commitTick.weaken fun s hs => .inr ⟨hs.1.on, h0, hs.2⟩) fun _ h1 => ?_
  refine triple_bind (triple_attempt_crashFree (crashFree_syncDirectory _)
    (fun s hs => hs.on.1) (triple_syncTracked fun d m => sees_syncDir)) fun synced => ?_
  cases synced with
  | ok => exact triple_pure fun s hs => ⟨hs.1.on, h0, h1⟩
  | error e => exact triple_pure fun s hs => ⟨hs.1.on, h0, h1⟩

theorem triple_removeLiveTmp (hLive : root.live = some n) (file : SessionFile) :
    Triple env (Tracked staging commit i j (Sees n root dir record memory)) (removeLiveTmp file)
      (fun _ s => Tracked staging commit i (j + 1)
        (Sees n root (dir.setTmp file false) record memory) s ∧ worksAt commit j = true)
      (fun s => Tracked staging commit i (j + 1) (Sees n root dir record memory) s ∧
        worksAt commit j = false) := by
  intro s hs
  have hGet : s.disk.root.current.live = some n := by
    rw [hs.fact.1]
    exact hLive
  rw [removeLiveTmp, state_bind_run, hGet]
  refine triple_learn triple_commitTick (fun _ hWorks => ?_) s hs
  exact Triple.post (triple_trackedDisk fun d m =>
    sees_onDir (g := setTmp file false) fun d => by simp) (fun _ _ hs => ⟨hs, hWorks⟩)

/-- The directory without the files that a write stages. -/
def SessionDirectory.unstaged (dir : SessionDirectory) : SessionDirectory :=
  (dir.setTmp .overlay false).setTmp .password false

/-- Where an abort stops: with both files left, with one, with only the record, or done. -/
theorem triple_discardLive (hLive : root.live = some n) :
    Triple env (Tracked staging commit i j (Sees n root dir record memory))
      (discardPreLiveRecoveryArtifacts (.pendingSync .sessionDir))
      (fun _ s => On (Sees n root dir.unstaged none memory) s ∧
        worksAt commit (j + 1) = true ∧ worksAt commit (j + 2) = true)
      (fun s => (On (Sees n root dir record memory) s ∧ worksAt commit j = false) ∨
        (On (Sees n root (dir.setTmp .overlay false) record memory) s ∧
          worksAt commit j = true ∧ worksAt commit (j + 1) = false) ∨
        (On (Sees n root dir.unstaged record memory) s ∧
          worksAt commit j = true ∧ worksAt commit (j + 1) = true ∧
          worksAt commit (j + 2) = false) ∨
        (On (Sees n root dir.unstaged none memory) s ∧
          worksAt commit (j + 1) = true ∧ worksAt commit (j + 2) = true)) := by
  have hClear : ∀ d m, Sees n root dir.unstaged record memory d m →
      Sees n root dir.unstaged none memory
        (d.onRecovery (Delayed.change fun e => { e with record := none })) m := by
    rintro d m ⟨hRoot, hDir, -, hMemory⟩
    exact ⟨hRoot, hDir, by simp [SessionDisk.record], hMemory⟩
  refine triple_bind (Q := fun _ s => (Tracked staging commit i (j + 2)
      (Sees n root dir.unstaged record memory) s ∧ worksAt commit (j + 1) = true) ∧
      worksAt commit j = true) ?_ fun _ => triple_fact fun h0 => triple_fact fun h1 => ?_
  · refine triple_learn ((triple_removeLiveTmp hLive .overlay).weaken fun s hs =>
      .inl ⟨hs.1.on, hs.2⟩) fun _ h0 => ?_
    exact triple_imp (triple_removeLiveTmp hLive .password)
      (fun _ _ hs => ⟨hs, h0⟩) (fun _ hs => .inr (.inl ⟨hs.1.on, h0, hs.2⟩))
  · refine triple_learn (triple_commitTick.weaken fun s hs =>
      .inr (.inr (.inl ⟨hs.1.on, h0, h1, hs.2⟩))) fun _ h2 => ?_
    refine triple_then (triple_trackedDisk hClear) ?_
    exact triple_imp (triple_syncTracked fun d m h => h)
      (fun _ _ hs => ⟨hs.1.on, h1, h2⟩) (fun _ hs => .inr (.inr (.inr ⟨hs.1.on, h1, h2⟩)))

/-- The files of the live directory. -/
def FilesAt (n : Nat) (root : RootEntries) (found : Option SessionSnapshot × Option PasswordRecord)
    (d : SessionDisk) (_ : Memory) : Prop :=
  d.root.current = root ∧ files (d.dirs n).current = found

theorem keeps_files_clear : Keeps env (On (FilesAt n root found)) clearRecoveryState :=
  keeps_seq keeps_commitTick <| keeps_seq (keeps_changeDisk fun _ _ h => h) <|
    keeps_seq keeps_commitTick <| keeps_changeDisk fun _ _ h => h

theorem keeps_files_retrySync : Keeps env (On (FilesAt n root found)) (retrySync .sessionDir) := by
  refine keeps_bind (keeps_openExisting _) fun k => keeps_seq keeps_commitTick <|
    keeps_changeDisk ?_
  rintro d m ⟨hRoot, hFiles⟩
  refine ⟨hRoot, ?_⟩
  simp only [onDir]
  split
  · rw [current_sync]
    exact hFiles
  · exact hFiles

theorem triple_settleLive {E : StoreState → Prop}
    {found : Option SessionSnapshot × Option PasswordRecord} (contents : Contents)
    (written : PersistenceOutcome) :
    Triple env (On (FilesAt n root found))
      (settleLivePersistence contents (.pendingSync .sessionDir) .sessionDir written)
      (fun _ => On (FilesAt n root found)) E :=
  (triple_settle
    (keeps_attempt_crashFree crashFree_clearRecoveryState (fun _ hs => hs.1) keeps_files_clear)
    (keeps_attempt_crashFree (crashFree_retrySync _) (fun _ hs => hs.1) keeps_files_retrySync)
    contents written).post fun _ _ hs => hs.1

end Writes

/-! ## How a write ends -/

/-- `recoveryRecordPrecedesLiveBoundary` in terms of the entries. -/
def precedesIn (durability : SessionDurability) (root : RootEntries) (dir : SessionDirectory) :
    Bool :=
  match durability with
  | .pendingSync .sessionDir => dir.overlayTmp || dir.passwordTmp
  | .pendingSync .sessionsRoot => root.staging.isSome
  | .pendingDelete .sessionsRootSync => false
  | .pendingDelete _ => root.deleting.isNone
  | .clean => false

theorem precedes_eq {n : Nat} {disk : SessionDisk} (durability : SessionDurability)
    (hLive : disk.root.current.live = some n) :
    recoveryRecordPrecedesLiveBoundary durability disk =
      precedesIn durability disk.root.current (disk.dirs n).current := by
  have hDir : disk.directory .live = some (disk.dirs n).current := by
    simp [directory, hLive]
  have hBoundary : decide (deleteBoundaryState disk = .preLive) =
      disk.root.current.deleting.isNone := by
    rw [deleteBoundaryState, hLive]
    cases disk.root.current.deleting <;> rfl
  cases durability with
  | clean => rfl
  | pendingSync pending =>
    cases pending with
    | sessionDir => simp [recoveryRecordPrecedesLiveBoundary, precedesIn, hDir]
    | sessionsRoot => rfl
  | pendingDelete stage =>
    cases stage with
    | liveRename => exact hBoundary
    | directoryRemoval => exact hBoundary
    | sessionsRootSync => rfl

theorem precedesIn_setTmp {durability : SessionDurability} {root : RootEntries}
    {dir : SessionDirectory} (file : SessionFile) (h : precedesIn durability root dir = true) :
    precedesIn durability root (dir.setTmp file true) = true := by
  cases durability with
  | clean => exact h
  | pendingSync pending =>
    cases pending with
    | sessionDir => cases file <;> simp [precedesIn, setTmp]
    | sessionsRoot => exact h
  | pendingDelete stage => cases stage <;> exact h

theorem files_setTmp (file : SessionFile) (present : Bool) (dir : SessionDirectory) :
    files (dir.setTmp file present) = files dir := by
  cases file <;> rfl

theorem files_unstaged (dir : SessionDirectory) : files dir.unstaged = files dir := rfl

/-- The live files are as they were, and a record does not count or has the same state. -/
def Kept (n : Nat) (root : RootEntries) (dir : SessionDirectory) (c : Contents) (memory : Memory)
    (d : SessionDisk) (m : Memory) : Prop :=
  d.root.current = root ∧ files (d.dirs n).current = files dir ∧
    (∀ record, d.record = some record →
      precedesIn record.durability root (d.dirs n).current = true ∨ record.contents = c) ∧
    m = memory

/-- The live files are as they were, and the record of the write counts. -/
def Stranded (n : Nat) (root : RootEntries) (dir : SessionDirectory) (new : RecoveryRecord)
    (memory : Memory) (d : SessionDisk) (m : Memory) : Prop :=
  d.root.current = root ∧ files (d.dirs n).current = files dir ∧ d.record = some new ∧
    precedesIn new.durability root (d.dirs n).current = false ∧ m = memory

/-- The file is the new one. -/
def Renamed (n : Nat) (root : RootEntries) (dir : SessionDirectory) (new : RecoveryRecord)
    (memory : Memory) (d : SessionDisk) (m : Memory) : Prop :=
  d.root.current = root ∧ files (d.dirs n).current = files dir ∧
    (∀ record, d.record = some record → record = new) ∧ m = memory

/-- The file is staged and its record armed. -/
def Reached (staging commit : List Bool) : Prop :=
  SixWork staging 0 ∧ SixWork staging 6 ∧ ∀ k < 3, worksAt commit k = true

/-- The file is renamed, and then its directory cannot be opened. -/
def RenamedUnseen (staging commit : List Bool) : Prop :=
  Reached staging commit ∧ worksAt commit 3 = true ∧ worksAt commit 4 = false

/-- The file cannot be renamed, its temporary name is removed and the record is not. -/
def RecordStranded (staging commit : List Bool) (file : SessionFile) (dir : SessionDirectory) :
    Prop :=
  Reached staging commit ∧ worksAt commit 3 = false ∧ worksAt commit 4 = true ∧
    (worksAt commit 5 = false ∧ file = .overlay ∧ dir.passwordTmp = false ∨
      worksAt commit 5 = true ∧ worksAt commit 6 = false)

section Exits

variable {env : DurabilityEnv} {staging commit : List Bool} {n : Nat} {root : RootEntries}
  {dir : SessionDirectory} {record : Option RecoveryRecord} {memory : Memory}

theorem not_reached_of_staging (h : SomeOfSixFails staging 0) : ¬Reached staging commit := by
  rintro ⟨hSix, -⟩
  obtain ⟨k, hk, hFails⟩ := h
  rw [hSix k hk] at hFails
  cases hFails

theorem not_reached_of_arm
    (h : SomeOfSixFails staging 6 ∨ ∃ k < 3, worksAt commit (0 + k) = false) :
    ¬Reached staging commit := by
  rintro ⟨-, hSix, hThree⟩
  rcases h with ⟨k, hk, hFails⟩ | ⟨k, hk, hFails⟩
  · rw [hSix k hk] at hFails
    cases hFails
  · rw [Nat.zero_add, hThree k hk] at hFails
    cases hFails

/-- What an aborted write leaves, by what the primitives did. -/
def AbortedExit (staging commit : List Bool) (n : Nat) (root : RootEntries)
    (dir : SessionDirectory) (c : Contents) (file : SessionFile) (contents : Contents)
    (memory : Memory) (s : StoreState) : Prop :=
  (On (Kept n root dir c memory) s ∧ ¬RenamedUnseen staging commit ∧
    ¬RecordStranded staging commit file dir) ∨
  (On (Stranded n root dir ⟨contents, .pendingSync .sessionDir⟩ memory) s ∧
    RecordStranded staging commit file dir) ∨
  (On (Renamed n root (dir.put file contents) ⟨contents, .pendingSync .sessionDir⟩ memory) s ∧
    RenamedUnseen staging commit)

variable {file : SessionFile} {contents c : Contents}

theorem abortedExit_of_not_reached {s : StoreState} (h : On (Kept n root dir c memory) s)
    (hReached : ¬Reached staging commit) :
    AbortedExit staging commit n root dir c file contents memory s :=
  .inl ⟨h, fun hUnseen => hReached hUnseen.1, fun hStranded => hReached hStranded.1⟩

theorem triple_abortBefore {E : StoreState → Prop} (hLive : root.live = some n)
    (hReached : Reached staging commit) (hRename : worksAt commit 3 = false) (e : SessionError) :
    Triple env (Tracked staging commit 12 4 (Sees n root (dir.setTmp file true)
        (some ⟨contents, .pendingSync .sessionDir⟩) memory))
      (abortPreLivePendingSync .sessionDir e)
      (fun written s => (∃ e durability, written = .aborted e durability) ∧
        AbortedExit staging commit n root dir c file contents memory s) E := by
  have hSeen : ¬RenamedUnseen staging commit := by
    rintro ⟨-, hWorks, -⟩
    rw [hRename] at hWorks
    cases hWorks
  have hDone : ∀ {s}, On (Sees n root (dir.setTmp file true).unstaged none memory) s →
      worksAt commit 5 = true → worksAt commit 6 = true →
      AbortedExit staging commit n root dir c file contents memory s := by
    intro s hs h5 h6
    refine .inl ⟨hs.mono fun h => ⟨h.1, ?_, fun r hr => ?_, h.2.2.2⟩, hSeen, ?_⟩
    · rw [h.2.1, files_unstaged, files_setTmp]
    · rw [h.2.2.1] at hr
      cases hr
    · rintro ⟨-, -, -, ⟨hFails, -⟩ | ⟨-, hFails⟩⟩
      · rw [h5] at hFails
        cases hFails
      · rw [h6] at hFails
        cases hFails
  refine triple_bind (triple_attempt_crashFree crashFree_discardStaged (fun s hs => hs.on.1)
    (triple_discardLive hLive)) fun discarded => ?_
  cases discarded with
  | ok => exact triple_pure fun s hs => ⟨⟨_, _, rfl⟩, hDone hs.1 hs.2.1 hs.2.2⟩
  | error e =>
    refine triple_pure fun s hs => ⟨⟨_, _, rfl⟩, ?_⟩
    rcases hs with ⟨hs, h4⟩ | ⟨hs, h4, h5⟩ | ⟨hs, h4, h5, h6⟩ | ⟨hs, h5, h6⟩
    · -- nothing is removed: the staged file shows that the record does not count
      refine .inl ⟨hs.mono fun h => ⟨h.1, ?_, fun r hr => ?_, h.2.2.2⟩, hSeen, ?_⟩
      · rw [h.2.1, files_setTmp]
      · rw [h.2.2.1] at hr
        obtain rfl := Option.some.inj hr
        rw [h.2.1]
        exact .inl (by cases file <;> simp [precedesIn, setTmp])
      · rintro ⟨-, -, hWorks, -⟩
        rw [h4] at hWorks
        cases hWorks
    · -- the staged overlay is removed, and a staged password may be left
      by_cases hLeft : file = .overlay ∧ dir.passwordTmp = false
      · refine .inr (.inl ⟨hs.mono fun h => ⟨h.1, ?_, h.2.2.1, ?_, h.2.2.2⟩,
          hReached, hRename, h4, .inl ⟨h5, hLeft⟩⟩)
        · rw [h.2.1, files_setTmp, files_setTmp]
        · rw [h.2.1, hLeft.1]
          simp [precedesIn, setTmp, hLeft.2]
      · refine .inl ⟨hs.mono fun h => ⟨h.1, ?_, fun r hr => ?_, h.2.2.2⟩, hSeen, ?_⟩
        · rw [h.2.1, files_setTmp, files_setTmp]
        · rw [h.2.2.1] at hr
          obtain rfl := Option.some.inj hr
          rw [h.2.1]
          refine .inl ?_
          cases file with
          | overlay =>
            have hTmp : dir.passwordTmp = true := by
              simpa using hLeft
            simp [precedesIn, setTmp, hTmp]
          | password => simp [precedesIn, setTmp]
        · rintro ⟨-, -, -, ⟨-, hFile⟩ | ⟨hWorks, -⟩⟩
          · exact hLeft hFile
          · rw [h5] at hWorks
            cases hWorks
    · refine .inr (.inl ⟨hs.mono fun h => ⟨h.1, ?_, h.2.2.1, ?_, h.2.2.2⟩,
        hReached, hRename, h4, .inr ⟨h5, h6⟩⟩)
      · rw [h.2.1, files_unstaged, files_setTmp]
      · rw [h.2.1]
        cases file <;> rfl
    · exact hDone hs h5 h6

theorem triple_abortAfter {E : StoreState → Prop} (e : SessionError) {dir' : SessionDirectory} :
    Triple env (On (Sees n root dir' (some ⟨contents, .pendingSync .sessionDir⟩) memory))
      (abortPreLivePendingSync .sessionDir e)
      (fun written s => (∃ e durability, written = .aborted e durability) ∧
        On (Renamed n root dir' ⟨contents, .pendingSync .sessionDir⟩ memory) s) E := by
  have hTmp : ∀ file, Keeps env (On (Renamed n root dir' ⟨contents, .pendingSync .sessionDir⟩
      memory)) (removeLiveTmp file) := by
    intro file
    refine keeps_bind (keeps_state _) fun disk => ?_
    split
    next k hLive =>
      refine keeps_seq keeps_commitTick <| keeps_changeDisk ?_
      rintro d m ⟨hRoot, hFiles, hRest⟩
      refine ⟨hRoot, ?_, hRest⟩
      simp only [onDir]
      split
      · rw [Delayed.current_change, files_setTmp, hFiles]
      · exact hFiles
    · exact keeps_commitTick
  have hClear : Keeps env (On (Renamed n root dir' ⟨contents, .pendingSync .sessionDir⟩
      memory)) clearRecoveryState := by
    refine keeps_seq keeps_commitTick <| keeps_seq (keeps_changeDisk ?_) <|
      keeps_seq keeps_commitTick <| keeps_changeDisk fun _ _ h => h
    rintro d m ⟨hRoot, hFiles, -, hMemory⟩
    refine ⟨hRoot, hFiles, fun r hr => ?_, hMemory⟩
    simp [record] at hr
  refine triple_bind (triple_attempt_crashFree crashFree_discardStaged (fun s hs => hs.1)
    ((keeps_seq (keeps_seq (hTmp .overlay) <| hTmp .password) hClear).pre
      (fun s hs => hs.mono fun h => ⟨h.1, by rw [h.2.1], fun r hr => ?_, h.2.2.2⟩)))
        fun discarded => ?_
  · rw [h.2.2.1] at hr
    exact (Option.some.inj hr).symm
  · cases discarded with
    | ok => exact triple_pure fun s hs => ⟨⟨_, _, rfl⟩, hs⟩
    | error e => exact triple_pure fun s hs => ⟨⟨_, _, rfl⟩, hs⟩

theorem keeps_dropStaged {dir' : SessionDirectory} (file : SessionFile) :
    Keeps env (On fun d m => Kept n root dir' c memory d m ∧ d.record = none)
      (removeLiveTmp file) := by
  refine keeps_bind (keeps_state _) fun disk => ?_
  split
  next k hLive =>
    refine keeps_seq keeps_commitTick <| keeps_changeDisk ?_
    rintro d m ⟨⟨hRoot, hFiles, -, hMemory⟩, hNone⟩
    refine ⟨⟨hRoot, ?_, fun r hr => ?_, hMemory⟩, hNone⟩
    · simp only [onDir]
      split
      · rw [Delayed.current_change, files_setTmp, hFiles]
      · exact hFiles
    · rw [show (d.onDir k _).record = d.record from rfl, hNone] at hr
      cases hr
  · exact keeps_commitTick

/-- Every way in which a write of a live file can end. -/
theorem writeWithRecovery_exits {E : StoreState → Prop} (durability : SessionDurability)
    (hLive : root.live = some n)
    (hRecord : ∀ r, record = some r → precedesIn r.durability root dir = true ∨ r.contents = c) :
    Triple env (Tracked staging commit 0 0 (Sees n root dir record memory))
      (writeWithRecovery durability file contents)
      (fun written s =>
        match written with
        | .aborted _ _ => AbortedExit staging commit n root dir c file contents memory s
        | .applied _ _ => On (FilesAt n root (files (dir.put file contents))) s ∧
          ¬RenamedUnseen staging commit ∧ ¬RecordStranded staging commit file dir) E := by
  refine triple_bind (triple_attempt_crashFree (crashFree_stageFile _ _) (fun s hs => hs.on.1)
    (triple_stageLive hLive file)) fun staged => ?_
  cases staged with
  | error e =>
    refine triple_pure fun s hs => ?_
    obtain ⟨⟨present, hs⟩, hFails⟩ := hs
    refine abortedExit_of_not_reached (hs.mono fun h => ?_) (not_reached_of_staging hFails)
    refine ⟨h.1, ?_, fun r hr => ?_, h.2.2.2⟩
    · rw [h.2.1]
      cases present with
      | true => exact files_setTmp file true dir
      | false => rfl
    · have hBefore := hRecord r (h.2.2.1 ▸ hr)
      rw [h.2.1]
      cases present with
      | true => exact hBefore.imp_left (precedesIn_setTmp file)
      | false => exact hBefore
  | ok =>
    refine triple_fact fun hStaged => ?_
    refine triple_bind (triple_attempt_crashFree (crashFree_arm _ _) (fun s hs => hs.on.1)
      (triple_armLive ⟨contents, .pendingSync .sessionDir⟩)) fun journaled => ?_
    cases journaled with
    | error e =>
      refine triple_fact fun hFails => ?_
      have hReached := not_reached_of_arm hFails
      refine triple_disk fun disk => triple_ite (fun hNone => ?_) fun hSome => ?_
      · have hDrop := @keeps_dropStaged env n root memory c dir file
        refine triple_bind ((triple_attempt_crashFree (crashFree_removeLiveTmp file)
          (fun s hs => hs.1) hDrop).pre (fun s hs => hs.mono fun h => ?_)) fun removed => ?_
        · obtain ⟨rfl, hRoot, hDir, -, hMemory⟩ := h
          refine ⟨⟨hRoot, ?_, fun r hr => ?_, hMemory⟩, hNone⟩
          · rw [hDir, files_setTmp]
          · rw [hNone] at hr
            cases hr
        · cases removed with
          | ok =>
            exact triple_pure fun s hs =>
              abortedExit_of_not_reached (hs.mono fun h => h.1) hReached
          | error e =>
            exact triple_pure fun s hs =>
              abortedExit_of_not_reached (hs.mono fun h => h.1) hReached
      · refine triple_pure fun s hs => abortedExit_of_not_reached (hs.mono fun h => ?_) hReached
        obtain ⟨rfl, hRoot, hDir, hMem, hMemory⟩ := h
        refine ⟨hRoot, ?_, fun r hr => ?_, hMemory⟩
        · rw [hDir, files_setTmp]
        · rw [hr] at hMem
          rw [hDir]
          simp only [mem_cons, not_mem_nil, or_false, Option.some.injEq,
            reduceCtorEq] at hMem
          rcases hMem with hOld | rfl
          · exact (hRecord r hOld.symm).imp_left (precedesIn_setTmp file)
          · exact .inl (by cases file <;> simp [precedesIn, setTmp])
    | ok =>
      refine triple_fact fun hArmed => ?_
      have hReached : Reached staging commit :=
        ⟨hStaged, hArmed.1, fun k hk => by simpa using hArmed.2 k hk⟩
      refine triple_bind (triple_attempt_crashFree (crashFree_commitFile _ _ _)
        (fun s hs => hs.on.1) (triple_commitLive hLive file contents)) fun committed => ?_
      cases committed with
      | error e =>
        intro s hs
        rcases hs with ⟨hs, h3⟩ | ⟨hs, h3, h4⟩
        · refine (triple_abortBefore (c := c) hLive hReached h3 e).post
            (fun written s hs => ?_) s hs
          obtain ⟨⟨e, durability, rfl⟩, hExit⟩ := hs
          exact hExit
        · refine (triple_abortAfter e).post (fun written s hs => ?_) s hs
          obtain ⟨⟨e, durability, rfl⟩, hExit⟩ := hs
          refine .inr (.inr ⟨hExit.mono fun h => ?_, hReached, h3, h4⟩)
          obtain ⟨hRoot, hFiles, hRest⟩ := h
          refine ⟨hRoot, hFiles.trans ?_, hRest⟩
          cases file <;> rfl
      | ok written =>
        refine triple_fact fun hWorks => ?_
        have hSettle := @triple_settleLive env n root E (files (dir.put file contents)) contents
          written
        refine triple_bind (hSettle.pre (fun s hs =>
          hs.mono fun h => ⟨h.1, ?_⟩)) fun settled => ?_
        · rw [h.2.1]
          cases file <;> rfl
        · refine triple_pure fun s hs => ⟨hs, ?_, ?_⟩
          · rintro ⟨-, -, hFails⟩
            rw [show worksAt commit 4 = true from hWorks.2] at hFails
            cases hFails
          · rintro ⟨-, hFails, -⟩
            rw [show worksAt commit 3 = true from hWorks.1] at hFails
            cases hFails

end Exits

/-! ## What a restart finds -/

section Restart

variable {env : DurabilityEnv} {n : Nat} {c : Contents} {s : StoreState}

/-- Every primitive to come works. -/
def Idle (s : StoreState) : Prop := s.staging = [] ∧ s.commit = []

theorem Idle.eq (h : Idle s) : s = ⟨s.disk, s.memory, s.possible, s.held, s.answers, [], []⟩ := by
  obtain ⟨disk, memory, possible, held, answers, staging, commit⟩ := s
  obtain ⟨rfl, rfl⟩ := h
  rfl

-- On a working disk every program is run to its end.
attribute [local simp] stageFile openOrCreate openExisting attempt bind_run stagingTick commitTick
  changeDisk syncDirectory armPreLiveRecoveryState persistRecoveryState stageRecord commitRecord
  clearRecoveryState discardPreLiveRecoveryArtifacts removeStaged removeDirAll removeTmp Idle

theorem writeWithRecovery_idle (durability : SessionDurability) (file : SessionFile)
    (contents : Contents) (hIdle : Idle s) (hLive : s.disk.root.current.live = some n) :
    ∃ t, writeWithRecovery durability file contents env s = (.ok (.applied (.ok ()) .clean), t) ∧
      Idle t ∧ t.disk.root.current.live = some n := by
  rw [hIdle.eq]
  simp [writeWithRecovery, outcome, requireDurablePersistence, commitFile, settleLivePersistence,
    completeSuccess, hLive]

theorem loadLiveSession_eq (h : c.Consistent) (hLive : s.disk.root.current.live = some n)
    (hHolds : HoldsSession c (s.disk.dirs n).current) : loadLiveSession env s = (.ok c, s) := by
  have hDir : s.disk.directory .live = some (s.disk.dirs n).current := by
    simp [directory, hLive]
  rw [loadLiveSession, ask_bind_run, state_bind_run, hDir]
  simp only [hHolds.1, loadLive_holds env.sessionId h hHolds]
  rfl

theorem completeFile_idle (needed : Bool) (file : SessionFile) (contents : Contents)
    (hIdle : Idle s) (hLive : s.disk.root.current.live = some n) :
    ∃ t, completeFile needed file contents .clean env s = (.ok .clean, t) ∧ Idle t := by
  cases needed with
  | false => exact ⟨s, rfl, hIdle⟩
  | true =>
    obtain ⟨t, hRun, hAfter, -⟩ := @writeWithRecovery_idle env n s .clean file contents hIdle hLive
    refine ⟨t, ?_, hAfter⟩
    rw [completeFile, if_pos rfl, bind_run_ok hRun]
    rfl

theorem load_without_record (h : c.Consistent) (hIdle : Idle s)
    (hLive : s.disk.root.current.live = some n)
    (hHolds : HoldsSession c (s.disk.dirs n).current) {before : StoreState}
    (hRecovery : loadRecoverySession env before = (.ok none, s)) :
    (load env before).2.memory = .loaded (some ⟨c, .clean⟩) := by
  have hDir : s.disk.directory .live = some (s.disk.dirs n).current := by
    simp [directory, hLive]
  obtain ⟨t, hPassword, -⟩ := @completeFile_idle env n s
    ((s.disk.dirs n).current.password = none) .password c hIdle hLive
  have hStatus : completeFile (storedStatus c.overlay ≠ some (passwordStatus c.password)) .overlay
      c .clean env t = (.ok .clean, t) := by
    rw [completeFile, if_neg (by simp [h.1])]
    rfl
  rw [load, bind_run_ok hRecovery]
  simp only [state_bind_run, hDir, hHolds.1]
  rw [loadExisting, bind_run_ok (loadLiveSession_eq h hLive hHolds), bind_run_ok hPassword,
    bind_run_ok hStatus]
  rfl

/-- A record that does not count is discarded, and the live files stay. -/
theorem discard_idle (durability : SessionDurability) (hIdle : Idle s)
    (hLive : s.disk.root.current.live = some n)
    (hStaging : s.disk.root.current.staging ≠ some n) :
    ∃ t, discardPreLiveRecoveryArtifacts durability env s = (.ok (), t) ∧ Idle t ∧
      t.disk.root.current.live = some n ∧
      files (t.disk.dirs n).current = files (s.disk.dirs n).current := by
  rw [hIdle.eq]
  cases durability with
  | clean =>
    simp [hLive]
  | pendingDelete stage =>
    simp [hLive]
  | pendingSync pending =>
    cases pending with
    | sessionDir =>
      simp [removeLiveTmp, hLive, files_setTmp]
    | sessionsRoot =>
      cases hDir : s.disk.root.current.staging with
      | none =>
        simp [hDir, hLive]
      | some k =>
        have hOther : ¬n = k := by
          rintro rfl
          exact hStaging hDir
        simp [hDir, unlinkFile, hLive, hOther]

theorem load_counting_record {record : RecoveryRecord} (hRecord : s.disk.record = some record)
    (hCounts : recoveryRecordPrecedesLiveBoundary record.durability s.disk = false) :
    (load env s).2.memory = .loaded (some ⟨record.contents, record.durability⟩) := by
  have hFound : loadRecoverySession env s = (.ok (some record), s) := by
    rw [loadRecoverySession, state_bind_run, hRecord]
    simp only [hCounts]
    rfl
  rw [load, bind_run_ok hFound]
  obtain ⟨contents, durability⟩ := record
  cases durability <;> rfl

/-- What the process has of the session after a restart on a working disk. -/
def restartLoads (env : DurabilityEnv) (s : StoreState) : Option Contents :=
  (Runs.run (diskEvent env) [.restart, .call .load [] []] s).memory.session.map (·.contents)

/-- The disk decides what a restart finds. -/
theorem restartLoads_counting {record : RecoveryRecord} (hRecord : s.disk.record = some record)
    (hCounts : recoveryRecordPrecedesLiveBoundary record.durability s.disk = false) :
    restartLoads env s = some record.contents := by
  have hLoad := @load_counting_record env ((diskEvent env .restart s).scheduled [] []) record
    hRecord hCounts
  exact congrArg (fun m => m.session.map (·.contents)) hLoad

theorem restartLoads_live (h : c.Consistent) (hLive : s.disk.root.current.live = some n)
    (hStaging : s.disk.root.current.staging ≠ some n)
    (hHolds : HoldsSession c (s.disk.dirs n).current)
    (hRecord : ∀ record, s.disk.record = some record →
      recoveryRecordPrecedesLiveBoundary record.durability s.disk = true ∨ record.contents = c) :
    restartLoads env s = some c := by
  let before := (diskEvent env .restart s).scheduled [] []
  have hIdle : Idle before := ⟨rfl, rfl⟩
  have hLoaded : (load env before).2.memory = .loaded (some ⟨c, .clean⟩) →
      restartLoads env s = some c :=
    fun hLoad => congrArg (fun m => m.session.map (·.contents)) hLoad
  cases hFound : s.disk.record with
  | none =>
    refine hLoaded (load_without_record h hIdle hLive hHolds ?_)
    rw [loadRecoverySession, state_bind_run, show before.disk.record = none from hFound]
    rfl
  | some record =>
    by_cases hCounts : recoveryRecordPrecedesLiveBoundary record.durability s.disk = true
    · obtain ⟨t, hDiscard, hAfter, hLive', hFiles⟩ :=
        @discard_idle env n before record.durability hIdle hLive hStaging
      refine hLoaded (load_without_record h hAfter hLive' (holdsSession_of_files hFiles hHolds) ?_)
      rw [loadRecoverySession, state_bind_run, show before.disk.record = _ from hFound]
      have hCounts' : recoveryRecordPrecedesLiveBoundary record.durability before.disk = true :=
        hCounts
      simp only [hCounts', if_true]
      rw [bind_run_ok hDiscard]
      rfl
    · rw [restartLoads_counting hFound (by simpa using hCounts),
        (hRecord record hFound).resolve_left hCounts]

end Restart

/-! ## Reports of updates -/

/-- `commit_live_overlay_update`, and the same for the other file, for a clean session: the new
state is kept in memory if the write was applied. -/
def commitLiveUpdate (file : SessionFile) (contents : Contents) : StoreProg LiveWrite := do
  let written ← writeWithRecovery .clean file contents
  match written with
  | .applied _ durability => do
    setSession contents durability
    pure written
  | .aborted _ _ => pure written

def liveFiles (disk : SessionDisk) : Option (Option SessionSnapshot × Option PasswordRecord) :=
  (disk.directory .live).map files

/-- The report is right, and an aborted update has left everything as it was. -/
def ReportedRightly (env : DurabilityEnv) (c : Contents) (file : SessionFile)
    (contents : Contents) (s : StoreState) : Prop :=
  let done := commitLiveUpdate file contents env s
  match done.1 with
  | .ok (.aborted _ _) => liveFiles done.2.disk = liveFiles s.disk ∧
      done.2.memory = s.memory ∧ restartLoads env done.2 = some c
  | .ok (.applied _ _) => liveFiles done.2.disk =
      (s.disk.directory .live).map (fun dir => files (dir.put file contents))
  | .error _ => False

/-- The memory, the live files and what a restart would load agree. -/
structure SettledOn (env : DurabilityEnv) (c : Contents) (n : Nat) (s : StoreState) : Prop where
  consistent : c.Consistent
  memory : s.memory = .loaded (some ⟨c, .clean⟩)
  live : s.disk.root.current.live = some n
  staging : s.disk.root.current.staging ≠ some n
  holds : HoldsSession c (s.disk.dirs n).current
  restart : restartLoads env s = some c

/-- The new state differs from the old one in the file that is written. -/
def ChangesOnly (file : SessionFile) (contents c : Contents) : Prop :=
  match file with
  | .overlay => contents.password = c.password
  | .password => contents.overlay = c.overlay

theorem SettledOn.record {env : DurabilityEnv} {c : Contents} {n : Nat} {s : StoreState}
    (h : SettledOn env c n s) (record : RecoveryRecord) (hRecord : s.disk.record = some record) :
    precedesIn record.durability s.disk.root.current (s.disk.dirs n).current = true ∨
      record.contents = c := by
  rw [← precedes_eq record.durability h.live]
  refine or_iff_not_imp_left.mpr fun hCounts => ?_
  have hLoads := @restartLoads_counting env s record hRecord (by simpa using hCounts)
  rw [h.restart] at hLoads
  exact (Option.some.inj hLoads).symm

/-- A file that is written with what it holds is part of the old state. -/
theorem eq_of_files_put {file : SessionFile} {contents c : Contents} {dir : SessionDirectory}
    (hOnly : ChangesOnly file contents c) (hHolds : HoldsSession c dir)
    (hSame : files (dir.put file contents) = files dir) : contents = c := by
  obtain ⟨overlay, password⟩ := contents
  obtain ⟨overlay', password'⟩ := c
  cases file with
  | overlay =>
    have hOverlay : some overlay = dir.overlay := (Prod.mk.inj hSame).1
    rw [hHolds.1] at hOverlay
    obtain rfl := Option.some.inj hOverlay
    obtain rfl : password = password' := hOnly
    rfl
  | password =>
    have hPassword : some password = dir.password := (Prod.mk.inj hSame).2
    obtain rfl : overlay = overlay' := hOnly
    rcases hHolds.2 with hFound | ⟨hNone, -⟩
    · rw [hFound] at hPassword
      obtain rfl := Option.some.inj hPassword
      rfl
    · rw [hNone] at hPassword
      cases hPassword

section Reports

variable {env : DurabilityEnv} {n : Nat} {c contents : Contents} {file : SessionFile}
  {s t : StoreState} {staging commit : List Bool}

theorem liveFiles_eq {disk : SessionDisk} (hLive : disk.root.current.live = some n) :
    liveFiles disk = some (files (disk.dirs n).current) := by
  simp [liveFiles, directory, hLive]

/-- What was kept is as it was before the write. -/
theorem SettledOn.of_kept (h : SettledOn env c n s)
    (hKept : Kept n s.disk.root.current (s.disk.dirs n).current c s.memory t.disk t.memory) :
    liveFiles t.disk = liveFiles s.disk ∧ t.memory = s.memory ∧ restartLoads env t = some c := by
  obtain ⟨hRoot, hFiles, hRecord, hMemory⟩ := hKept
  have hLive : t.disk.root.current.live = some n := by rw [hRoot, h.live]
  refine ⟨by rw [liveFiles_eq hLive, liveFiles_eq h.live, hFiles], hMemory, ?_⟩
  refine restartLoads_live h.consistent hLive (hRoot ▸ h.staging)
    (holdsSession_of_files hFiles h.holds) fun record hFound => ?_
  rw [precedes_eq record.durability hLive, hRoot]
  exact hRecord record hFound

/-- A write is reported rightly, and an aborted one leaves memory, live files and restart as
they were, exactly if a rename is not followed by a failure to open the directory and a
failed rename is not followed by a failure to remove the record, unless nothing changes. -/
theorem commit_classified_iff (env : DurabilityEnv) (c : Contents) (n : Nat) (s : StoreState)
    (file : SessionFile) (contents : Contents) (staging commit : List Bool)
    (hSettled : SettledOn env c n s) (hOnly : ChangesOnly file contents c) :
    ReportedRightly env c file contents
        (s.scheduled (staging.map verdictOf) (commit.map verdictOf)) ↔
      (RenamedUnseen staging commit →
        files ((s.disk.dirs n).current.put file contents) = files (s.disk.dirs n).current) ∧
      (RecordStranded staging commit file (s.disk.dirs n).current → contents = c) := by
  let start := s.scheduled (staging.map verdictOf) (commit.map verdictOf)
  have hStart : Tracked staging commit 0 0 (Sees n s.disk.root.current (s.disk.dirs n).current
      s.disk.record s.memory) start := ⟨rfl, rfl, rfl, rfl, rfl, rfl⟩
  have hExit := @writeWithRecovery_exits env staging commit n s.disk.root.current
    (s.disk.dirs n).current s.disk.record s.memory file contents c (fun _ => False)
    .clean hSettled.live hSettled.record start hStart
  have hExclusive : RenamedUnseen staging commit →
      ¬RecordStranded staging commit file (s.disk.dirs n).current := by
    rintro ⟨-, hWorks, -⟩ ⟨-, hFails, -⟩
    rw [hWorks] at hFails
    cases hFails
  rcases hRun : writeWithRecovery .clean file contents env start with ⟨e | written, t⟩
  · rw [hRun] at hExit
    exact hExit.elim
  rw [hRun] at hExit
  cases written with
  | applied res durability =>
    obtain ⟨⟨-, hRoot, hFiles⟩, hSeen, hCleared⟩ := hExit
    have hDone : commitLiveUpdate file contents env start = (.ok (.applied res durability),
        { t with memory := .loaded (some ⟨contents, durability⟩) }) := by
      rw [commitLiveUpdate, bind_run_ok hRun]
      rfl
    rw [ReportedRightly, show s.scheduled _ _ = start from rfl, hDone]
    have hLive : t.disk.root.current.live = some n := by rw [hRoot, hSettled.live]
    refine ⟨fun _ => ⟨fun h => absurd h hSeen, fun h => absurd h hCleared⟩, fun _ => ?_⟩
    have hDir : start.disk.directory .live = some (s.disk.dirs n).current := by
      simp [start, StoreState.scheduled, directory, hSettled.live]
    refine (liveFiles_eq hLive).trans ?_
    rw [hFiles, hDir]
    rfl
  | aborted e durability =>
    have hDone : commitLiveUpdate file contents env start = (.ok (.aborted e durability), t) := by
      rw [commitLiveUpdate, bind_run_ok hRun]
      rfl
    rw [ReportedRightly, show s.scheduled _ _ = start from rfl, hDone]
    have hRight : Kept n s.disk.root.current (s.disk.dirs n).current c s.memory t.disk t.memory →
        liveFiles t.disk = liveFiles start.disk ∧ t.memory = start.memory ∧
          restartLoads env t = some c := hSettled.of_kept
    rcases hExit with ⟨⟨-, hKept⟩, hSeen, hCleared⟩ | ⟨⟨-, hStranded⟩, hLeft⟩ |
      ⟨⟨-, hRenamed⟩, hUnseen⟩
    · exact ⟨fun _ => ⟨fun h => absurd h hSeen, fun h => absurd h hCleared⟩, fun _ => hRight hKept⟩
    · obtain ⟨hRoot, hFiles, hRecord, hCounts, hMemory⟩ := hStranded
      have hLive : t.disk.root.current.live = some n := by rw [hRoot, hSettled.live]
      have hLoads : restartLoads env t = some contents :=
        restartLoads_counting hRecord (by rw [precedes_eq _ hLive, hRoot, hCounts])
      refine ⟨fun h => ⟨fun hUnseen => absurd hLeft (hExclusive hUnseen), fun _ => ?_⟩,
        fun h => hRight ⟨hRoot, hFiles, fun r hr => .inr ?_, hMemory⟩⟩
      · exact Option.some.inj (hLoads.symm.trans h.2.2)
      · rw [hRecord] at hr
        obtain rfl := Option.some.inj hr
        exact h.2 hLeft
    · obtain ⟨hRoot, hFiles, hRecord, hMemory⟩ := hRenamed
      have hLive : t.disk.root.current.live = some n := by rw [hRoot, hSettled.live]
      refine ⟨fun h => ⟨fun _ => ?_, fun hLeft => absurd hLeft (hExclusive hUnseen)⟩,
        fun h => hRight ⟨hRoot, hFiles.trans (h.1 hUnseen), fun r hr => .inr ?_, hMemory⟩⟩
      · have hSame := h.1
        rw [liveFiles_eq hLive, liveFiles_eq (show start.disk.root.current.live = some n from
          hSettled.live), hFiles] at hSame
        exact Option.some.inj hSame
      · rw [hRecord r hr]
        exact eq_of_files_put hOnly hSettled.holds (h.1 hUnseen)

/-- A session that was created on a working disk. -/
def settledSample : StoreState :=
  Runs.run (diskEvent sampleStoreEnv) [.call .load [] [], .call (.create sampleNew) [] []]
    initialState

theorem settledSample_settled :
    SettledOn sampleStoreEnv (sampleContents unprotectedRecord 1) 0 settledSample where
  consistent := sampleNew.2
  memory := rfl
  live := rfl
  staging := by decide +kernel
  holds := ⟨rfl, .inl rfl⟩
  restart := by decide +kernel

/-- The rename of the file fails, and everything is removed. -/
theorem commit_classified_after_failed_rename :
    ReportedRightly sampleStoreEnv (sampleContents unprotectedRecord 1) .overlay
      (sampleContents unprotectedRecord 2)
      (settledSample.scheduled [] ([true, true, true, false].map verdictOf)) := by
  refine (commit_classified_iff sampleStoreEnv (sampleContents unprotectedRecord 1) 0 settledSample
    .overlay (sampleContents unprotectedRecord 2) [] [true, true, true, false]
    settledSample_settled rfl).mpr ⟨?_, ?_⟩
  · rintro ⟨-, hWorks, -⟩
    revert hWorks
    decide
  · rintro ⟨-, -, -, ⟨hFails, -⟩ | ⟨-, hFails⟩⟩
    · revert hFails
      decide
    · revert hFails
      decide

/-- The file is renamed and its directory cannot be opened: the update is reported as aborted,
the live file has the new state, and so has what a restart loads. -/
theorem commit_misclassified :
    let s := settledSample.scheduled [] ([true, true, true, true, false].map verdictOf)
    let done := commitLiveUpdate .overlay (sampleContents unprotectedRecord 2) sampleStoreEnv s
    SettledOn sampleStoreEnv (sampleContents unprotectedRecord 1) 0 settledSample ∧
      (∃ e, done.1 = .ok (.aborted e .clean)) ∧
      liveFiles done.2.disk ≠ liveFiles s.disk ∧
      restartLoads sampleStoreEnv done.2 = some (sampleContents unprotectedRecord 2) ∧
      ¬ReportedRightly sampleStoreEnv (sampleContents unprotectedRecord 1) .overlay
        (sampleContents unprotectedRecord 2) s := by
  intro s done
  have hReport : done.1 = .ok (.aborted .io .clean) := rfl
  have hFiles : liveFiles done.2.disk ≠ liveFiles s.disk := by decide +kernel
  refine ⟨settledSample_settled, ⟨_, hReport⟩, hFiles, by decide +kernel, fun h => ?_⟩
  rw [ReportedRightly, show commitLiveUpdate _ _ _ _ = done from rfl, hReport] at h
  exact hFiles h.1

end Reports

end FabricFs.Session.Durability
