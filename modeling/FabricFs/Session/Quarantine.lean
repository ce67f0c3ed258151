import FabricFs.Session.Histories

/-!
# Deletions that fail half-way

Histories of the session store in which any primitive of the disk may fail and the process
may be restarted, but the machine does not crash; `path_exists` answers truly. A deletion
writes its recovery record before it moves the live directory into the quarantine, and a
session with a quarantine is to have its record.

* `Loose P`: a fact about the disk and the memory that depends on the disk only through the
  name of the quarantine. All programs but those of a deletion keep such a fact.
* `Journaled`: the invariant of the store that a deletion goes through.
* `quarantine_journaled`: if no deletion is tried again while its record is gone, then every
  quarantine has its record, and a restart and one more deletion finish it.
* `quarantine_without_record`: the move fails, the record is removed and its directory cannot
  be synced; the next deletion moves the session without a record.
-/

namespace FabricFs.Session.Durability

open Lib Lib.Prog Lib.Runs Protocol SessionDisk

/-! ## Histories without crashes -/

def verdictOf (works : Bool) : Verdict := if works then .works else .fails

/-- A call, with what each primitive of the disk does, or a restart of the process. -/
inductive DiskEvent where
  | call (call : StoreCall) (staging commit : List Bool)
  | restart

def diskEvent (env : DurabilityEnv) : DiskEvent → StoreState → StoreState
  | .call call staging commit, s =>
    runCall env call (s.scheduled (staging.map verdictOf) (commit.map verdictOf))
  | .restart, s => { s with memory := .unloaded }

/-- No primitive to come crashes. -/
def NoCrash (s : StoreState) : Prop :=
  ∀ verdict ∈ s.staging ++ s.commit, ∀ loss, verdict ≠ .crashes loss

theorem noCrash_scheduled (s : StoreState) (staging commit : List Bool) :
    NoCrash (s.scheduled (staging.map verdictOf) (commit.map verdictOf)) := by
  intro verdict hVerdict loss
  simp only [StoreState.scheduled, List.mem_append, List.mem_map] at hVerdict
  rcases hVerdict with ⟨works, -, rfl⟩ | ⟨works, -, rfl⟩ <;> cases works <;> simp [verdictOf]

/-- A fact about the disk and the memory, in a state without crashes to come. -/
def On (P : SessionDisk → Memory → Prop) (s : StoreState) : Prop := NoCrash s ∧ P s.disk s.memory

section Rules

variable {env : DurabilityEnv} {α : Type} {P : SessionDisk → Memory → Prop}

variable {I E : StoreState → Prop}

theorem keeps_attempt {x : StoreProg α} (h : Keeps env I x) : Keeps env I (attempt x) := by
  intro s hs
  have hRun := h s hs
  unfold attempt
  rcases hr : x env s with ⟨(e | _) | a, s'⟩
  · rw [hr] at hRun
    exact hRun
  · rw [hr] at hRun
    exact hRun
  · rw [hr] at hRun
    exact hRun

theorem triple_attempt {F : StoreState → Prop} {Q : α → StoreState → Prop} {x : StoreProg α}
    (h : Triple env I x Q F) (hF : ∀ s, F s → E s) :
    Triple env I (attempt x) (fun res s =>
      match res with
      | .ok a => Q a s
      | .error _ => F s) E := by
  intro s hs
  have hRun := h s hs
  unfold attempt
  rcases hr : x env s with ⟨(e | _) | a, s'⟩
  · rw [hr] at hRun
    exact hRun
  · rw [hr] at hRun
    exact hF _ hRun
  · rw [hr] at hRun
    exact hRun

theorem keeps_fail (e : SessionError) : Keeps env I (fail e : StoreProg α) := fun _ hs => hs

theorem keeps_stagingTick : Keeps env (On P) stagingTick := by
  refine keeps_iff.mpr fun s hs => ?_
  have hLater : ∀ verdict rest, s.staging = verdict :: rest → On P { s with staging := rest } := by
    intro verdict rest hStaging
    refine ⟨fun v hv => hs.1 v ?_, hs.2⟩
    rw [hStaging]
    simp only [List.mem_append, List.mem_cons] at hv ⊢
    tauto
  unfold stagingTick
  split
  · exact hs
  next rest hStaging => exact hLater _ _ hStaging
  next rest hStaging => exact hLater _ _ hStaging
  next loss rest hStaging => exact absurd rfl (hs.1 (.crashes loss) (by simp [hStaging]) loss)

theorem keeps_commitTick : Keeps env (On P) commitTick := by
  refine keeps_iff.mpr fun s hs => ?_
  have hLater : ∀ verdict rest, s.commit = verdict :: rest → On P { s with commit := rest } := by
    intro verdict rest hCommit
    refine ⟨fun v hv => hs.1 v ?_, hs.2⟩
    rw [hCommit]
    simp only [List.mem_append, List.mem_cons] at hv ⊢
    tauto
  unfold commitTick
  split
  · exact hs
  next rest hCommit => exact hLater _ _ hCommit
  next rest hCommit => exact hLater _ _ hCommit
  next loss rest hCommit => exact absurd rfl (hs.1 (.crashes loss) (by simp [hCommit]) loss)

theorem keeps_changeDisk {f : SessionDisk → SessionDisk}
    (h : ∀ disk memory, P disk memory → P (f disk) memory) : Keeps env (On P) (changeDisk f) :=
  keeps_change fun s hs => ⟨hs.1, h s.disk s.memory hs.2⟩

theorem triple_changeDisk {P' : SessionDisk → Memory → Prop} {f : SessionDisk → SessionDisk}
    (h : ∀ disk memory, P disk memory → P' (f disk) memory) :
    Triple env (On P) (changeDisk f) (fun _ => On P') E :=
  fun s hs => ⟨hs.1, h s.disk s.memory hs.2⟩

theorem triple_setMemory {P' : SessionDisk → Memory → Prop} {memory : Memory}
    (h : ∀ disk old, P disk old → P' disk memory) :
    Triple env (On P) (setMemory memory) (fun _ => On P') E :=
  fun s hs => ⟨hs.1, h s.disk s.memory hs.2⟩

theorem keeps_noteAttempt (contents : Option Contents) :
    Keeps env (On P) (noteAttempt contents) := keeps_change fun _ hs => hs

theorem keeps_noteAnswer (contents : Option Contents) :
    Keeps env (On P) (noteAnswer contents) := keeps_change fun _ hs => hs

theorem keeps_noteRead (contents : Contents) : Keeps env (On P) (noteRead contents) :=
  keeps_seq (keeps_noteAnswer _) <| keeps_change fun _ hs => hs

theorem keeps_noteHeld (held : List (Option Contents)) : Keeps env (On P) (noteHeld held) :=
  keeps_change fun _ hs => hs

end Rules

/-! ## Programs that leave the quarantine alone -/

/-- The disk matters only through the name of the quarantine. -/
def Loose (P : SessionDisk → Memory → Prop) : Prop :=
  ∀ disk disk' memory, disk'.root.current.deleting = disk.root.current.deleting →
    P disk memory → P disk' memory

theorem current_sync {β : Type} (d : Delayed β) : d.sync.current = d.current := rfl

section LooseRules

variable {env : DurabilityEnv} {α : Type} {P : SessionDisk → Memory → Prop} (hP : Loose P)
include hP

variable {slot : Slot}

theorem keeps_sameQuarantine {f : SessionDisk → SessionDisk}
    (h : ∀ disk, (f disk).root.current.deleting = disk.root.current.deleting) :
    Keeps env (On P) (changeDisk f) :=
  keeps_changeDisk fun disk memory => hP disk (f disk) memory (h disk)

theorem keeps_onDir (dir : Nat) (f : Delayed SessionDirectory → Delayed SessionDirectory) :
    Keeps env (On P) (changeDisk (onDir dir f)) :=
  keeps_sameQuarantine hP fun _ => rfl

theorem keeps_onRecovery (f : Delayed RecoveryEntries → Delayed RecoveryEntries) :
    Keeps env (On P) (changeDisk (onRecovery f)) :=
  keeps_sameQuarantine hP fun _ => rfl

theorem keeps_syncRoot : Keeps env (On P) (syncDirectory (onRoot Delayed.sync)) :=
  keeps_seq keeps_commitTick <| keeps_sameQuarantine hP fun _ => rfl

theorem keeps_openOrCreate (hSlot : slot ≠ .deleting) : Keeps env (On P) (openOrCreate slot) := by
  refine keeps_bind (keeps_state _) fun disk => ?_
  split
  · exact keeps_pure _
  · refine keeps_map (keeps_sameQuarantine hP fun _ => ?_)
    cases slot with
    | live => simp [create]
    | staging => simp [create]
    | deleting => exact absurd rfl hSlot

omit hP in
theorem keeps_openExisting (slot : Slot) : Keeps env (On P) (openExisting slot) := by
  refine keeps_bind (keeps_state _) fun disk => ?_
  split
  · exact keeps_pure _
  · exact keeps_fail _

theorem keeps_stageFile (hSlot : slot ≠ .deleting) (file : SessionFile) :
    Keeps env (On P) (stageFile slot file) :=
  keeps_seq keeps_stagingTick <|
  keeps_seq (keeps_openOrCreate hP hSlot) <|
  keeps_seq keeps_stagingTick <|
  keeps_seq (keeps_onDir hP _ _) <|
  keeps_four keeps_stagingTick <|
  keeps_onDir hP _ _

theorem keeps_commitFile (slot : Slot) (file : SessionFile) (contents : Contents) :
    Keeps env (On P) (commitFile slot file contents) :=
  keeps_seq (keeps_openExisting slot) <|
  keeps_seq keeps_commitTick <|
  keeps_seq (keeps_onDir hP _ _) <|
  keeps_seq keeps_commitTick <|
  keeps_map (keeps_attempt (keeps_seq keeps_commitTick <| keeps_onDir hP _ _))

omit hP in
theorem keeps_requireDurable (written : PersistenceOutcome) :
    Keeps env (On P) (requireDurablePersistence written) := by
  cases written
  · exact keeps_pure _
  · exact keeps_fail _

theorem keeps_atomicWrite (hSlot : slot ≠ .deleting) (file : SessionFile) (contents : Contents) :
    Keeps env (On P) (atomicWrite slot file contents) :=
  keeps_seq (keeps_stageFile hP hSlot file) <| keeps_commitFile hP slot file contents

theorem keeps_clearRecoveryState : Keeps env (On P) clearRecoveryState :=
  keeps_seq keeps_commitTick <|
  keeps_seq (keeps_onRecovery hP _) <|
  keeps_seq keeps_commitTick <|
  keeps_onRecovery hP _

theorem keeps_persistRecoveryState (contents : Contents) (durability : SessionDurability) :
    Keeps env (On P) (persistRecoveryState contents durability) := by
  refine keeps_seq ?_ <| keeps_bind ?_ fun written => keeps_requireDurable written
  · exact keeps_seq keeps_stagingTick <| keeps_seq keeps_stagingTick <|
      keeps_seq (keeps_onRecovery hP _) <|
      keeps_four keeps_stagingTick <|
      keeps_onRecovery hP _
  · exact keeps_seq keeps_commitTick <| keeps_seq (keeps_onRecovery hP _) <|
      keeps_seq keeps_commitTick <|
      keeps_map (keeps_attempt (keeps_seq keeps_commitTick <| keeps_onRecovery hP _))

theorem keeps_arm (contents : Contents) (durability : SessionDurability) :
    Keeps env (On P) (armPreLiveRecoveryState contents durability) := by
  refine keeps_bind (keeps_attempt (keeps_persistRecoveryState hP _ _)) fun armed => ?_
  cases armed with
  | ok => exact keeps_pure _
  | error e =>
    exact keeps_seq (keeps_attempt (keeps_clearRecoveryState hP)) <| keeps_fail _

theorem keeps_removeTmp (dir : Nat) (file : SessionFile) : Keeps env (On P) (removeTmp dir file) :=
  keeps_seq keeps_commitTick <| keeps_onDir hP _ _

theorem keeps_unlinkFile (dir : Nat) (file : SessionFile) :
    Keeps env (On P) (unlinkFile dir file) :=
  keeps_seq keeps_commitTick <| keeps_onDir hP _ _

theorem keeps_removeDirAll (hSlot : slot ≠ .deleting) : Keeps env (On P) (removeDirAll slot) := by
  refine triple_ask <| keeps_bind (keeps_state _) fun disk => ?_
  split
  · exact keeps_commitTick
  · refine keeps_seq (keeps_unlinkFile hP _ _) <| keeps_seq (keeps_unlinkFile hP _ _) <|
      keeps_seq (keeps_removeTmp hP _ _) <|
      keeps_seq (keeps_removeTmp hP _ _) <|
      keeps_seq keeps_commitTick <|
      keeps_sameQuarantine hP fun _ => ?_
    cases slot with
    | live => simp
    | staging => simp
    | deleting => exact absurd rfl hSlot

theorem keeps_removeLiveTmp (file : SessionFile) : Keeps env (On P) (removeLiveTmp file) := by
  refine keeps_bind (keeps_state _) fun disk => ?_
  split
  · exact keeps_removeTmp hP _ _
  · exact keeps_commitTick

theorem keeps_discard (durability : SessionDurability) :
    Keeps env (On P) (discardPreLiveRecoveryArtifacts durability) := by
  refine keeps_seq ?_ <| keeps_clearRecoveryState hP
  unfold removeStaged
  split
  · exact keeps_seq (keeps_removeLiveTmp hP _) <| keeps_removeLiveTmp hP _
  · exact keeps_removeDirAll hP (by decide)
  · exact keeps_pure _
  · exact keeps_pure _

theorem keeps_retrySync (pending : PendingDirectorySync) :
    Keeps env (On P) (retrySync pending) := by
  cases pending with
  | sessionDir =>
    exact keeps_seq (keeps_openExisting _) <| keeps_seq keeps_commitTick <| keeps_onDir hP _ _
  | sessionsRoot => exact keeps_syncRoot hP

omit hP in
theorem keeps_loadLiveSession : Keeps env (On P) loadLiveSession := by
  refine triple_ask <| keeps_bind (keeps_state _) fun disk => ?_
  split
  · split
    · split
      · exact keeps_pure _
      · exact keeps_fail _
    · exact keeps_fail _
  · exact keeps_fail _

theorem keeps_stageNewSession (contents : Contents) :
    Keeps env (On P) (stageNewSession contents) := by
  refine keeps_bind (keeps_state _) fun disk =>
    keeps_seq (keeps_onlyIf fun _ => keeps_removeDirAll hP (by decide)) <|
    keeps_seq keeps_stagingTick <|
    keeps_seq (keeps_openOrCreate hP (by decide)) <|
    keeps_bind (keeps_attempt ?_) fun written => ?_
  · exact keeps_seq (keeps_atomicWrite hP (by decide) _ _) <| keeps_seq (keeps_requireDurable _) <|
      keeps_seq (keeps_atomicWrite hP (by decide) _ _) <| keeps_requireDurable _
  · cases written with
    | ok => exact keeps_pure _
    | error e =>
      exact keeps_seq (keeps_attempt (keeps_removeDirAll hP (by decide))) <| keeps_fail _

theorem keeps_commitNewSession : Keeps env (On P) commitNewSession :=
  keeps_seq (keeps_openExisting _) <|
  keeps_seq keeps_commitTick <|
  keeps_seq (keeps_sameQuarantine hP fun _ => by simp) <|
  keeps_map (keeps_attempt (keeps_syncRoot hP))

theorem keeps_rewriteSession (contents : Contents) (pending : PendingDirectorySync) :
    Keeps env (On P) (rewriteSession contents pending) := by
  cases pending with
  | sessionDir =>
    exact keeps_seq (keeps_atomicWrite hP (by decide) _ _) <|
      keeps_seq (keeps_requireDurable _) <| keeps_atomicWrite hP (by decide) _ _
  | sessionsRoot =>
    exact keeps_seq (keeps_removeDirAll hP (by decide)) <|
      keeps_seq (keeps_stageNewSession hP _) <| keeps_commitNewSession hP

end LooseRules

/-! ## Sessions without a deletion -/

/-- The session waits for its directory to be moved or removed. -/
def armed : SessionDurability → Bool
  | .pendingDelete .liveRename => true
  | .pendingDelete .directoryRemoval => true
  | _ => false

theorem armed_cases {durability : SessionDurability} (h : armed durability = true) :
    durability = .pendingDelete .liveRename ∨ durability = .pendingDelete .directoryRemoval := by
  unfold armed at h
  split at h
  · exact .inl rfl
  · exact .inr rfl
  · cases h

def Memory.waiting (memory : Memory) : Bool :=
  memory.session.any fun session => armed session.durability

/-- There is no quarantine, and the session does not wait for one. -/
def Free (disk : SessionDisk) (memory : Memory) : Prop :=
  disk.root.current.deleting = none ∧ memory.waiting = false

theorem loose_free : Loose Free := fun _ _ _ hSame h => ⟨hSame.trans h.1, h.2⟩

section FreeRules

variable {env : DurabilityEnv} {P : SessionDisk → Memory → Prop}

variable {durability : SessionDurability}

/-- A write that waits for a sync is settled, or waits on. -/
theorem triple_settle {I E : StoreState → Prop} {pending : PendingDirectorySync}
    (hClear : Triple env I (attempt clearRecoveryState) (fun _ => I) E)
    (hRetry : Triple env I (attempt (retrySync pending)) (fun _ => I) E) (contents : Contents)
    (written : PersistenceOutcome) :
    Triple env I (settleLivePersistence contents (.pendingSync pending) pending written)
      (fun settled s => I s ∧ (settled.2 = .clean ∨ settled.2 = .pendingSync pending) ∧
        (settled.1 = .ok () → settled.2 = .clean)) E := by
  have hComplete : Triple env I (completeSuccess (.pendingSync pending))
      (fun settled s => I s ∧ (settled.2 = .clean ∨ settled.2 = .pendingSync pending) ∧
        (settled.1 = .ok () → settled.2 = .clean)) E := by
    refine triple_bind hClear fun cleared => ?_
    cases cleared with
    | ok => exact triple_pure fun _ hs => ⟨hs, .inl rfl, fun _ => rfl⟩
    | error e => exact triple_pure fun _ hs => ⟨hs, .inr rfl, fun h => by cases h⟩
  cases written with
  | durable => exact hComplete
  | renamedNeedsDirectorySync =>
    refine triple_bind hRetry fun retried => ?_
    cases retried with
    | ok => exact hComplete
    | error e =>
      exact triple_ite (fun _ => triple_pure fun _ hs => ⟨hs, .inr rfl, fun h => by cases h⟩)
        fun hOther => absurd rfl hOther

theorem armed_of_waiting {pending : PendingDirectorySync}
    (h : durability = .clean ∨ durability = .pendingSync pending) : armed durability = false := by
  rcases h with rfl | rfl <;> rfl

theorem triple_settle_loose (hP : Loose P) (contents : Contents) (pending : PendingDirectorySync)
    (written : PersistenceOutcome) :
    Triple env (On P) (settleLivePersistence contents (.pendingSync pending) pending written)
      (fun settled s => On P s ∧ armed settled.2 = false) (On P) :=
  (triple_settle (keeps_attempt (keeps_clearRecoveryState hP))
    (keeps_attempt (keeps_retrySync hP pending)) contents written).post
    fun _ _ hs => ⟨hs.1, armed_of_waiting hs.2.1⟩

/-- A write of a live file whose steps all keep `I`. -/
theorem triple_writeWithRecovery {I : StoreState → Prop} {file : SessionFile} {contents : Contents}
    (previous : SessionDurability)
    (hStage : Keeps env I (stageFile .live file))
    (hArm : Keeps env I (armPreLiveRecoveryState contents (.pendingSync .sessionDir)))
    (hTmp : Keeps env I (removeLiveTmp file))
    (hCommit : Keeps env I (commitFile .live file contents))
    (hDiscard : Keeps env I (discardPreLiveRecoveryArtifacts (.pendingSync .sessionDir)))
    (hClear : Keeps env I clearRecoveryState) (hRetry : Keeps env I (retrySync .sessionDir)) :
    Triple env I (writeWithRecovery previous file contents)
      (fun written s => I s ∧ (written.durability = previous ∨
        written.durability = .clean ∨ written.durability = .pendingSync .sessionDir)) I := by
  refine triple_bind (keeps_attempt hStage) fun staged => ?_
  cases staged with
  | error e => exact triple_pure fun _ hs => ⟨hs, .inl rfl⟩
  | ok =>
    refine triple_bind (keeps_attempt hArm) fun journaled => ?_
    cases journaled with
    | error e =>
      refine triple_bind (keeps_state _) fun disk => triple_if ?_ ?_
      · exact triple_seq (keeps_attempt hTmp) <| triple_pure fun _ hs => ⟨hs, .inl rfl⟩
      · exact triple_pure fun _ hs => ⟨hs, .inl rfl⟩
    | ok =>
      refine triple_bind (keeps_attempt hCommit) fun committed => ?_
      cases committed with
      | error e =>
        refine triple_bind (keeps_attempt hDiscard) fun discarded => ?_
        cases discarded with
        | ok => exact triple_pure fun _ hs => ⟨hs, .inr (.inl rfl)⟩
        | error e => exact triple_pure fun _ hs => ⟨hs, .inr (.inr rfl)⟩
      | ok written =>
        exact triple_bind (triple_settle (keeps_attempt hClear) (keeps_attempt hRetry) _ written)
          fun settled => triple_pure fun _ hs => ⟨hs.1, .inr hs.2.1⟩

theorem triple_write_loose (hP : Loose P) (file : SessionFile) (contents : Contents)
    (hArmed : armed durability = false) :
    Triple env (On P) (writeWithRecovery durability file contents)
      (fun written s => On P s ∧ armed written.durability = false) (On P) :=
  (triple_writeWithRecovery durability (keeps_stageFile hP (by decide) file) (keeps_arm hP _ _)
    (keeps_removeLiveTmp hP _) (keeps_commitFile hP _ _ _) (keeps_discard hP _)
    (keeps_clearRecoveryState hP) (keeps_retrySync hP _)).post
    fun _ _ hs => ⟨hs.1, hs.2.elim (fun hSame => hSame ▸ hArmed) armed_of_waiting⟩

theorem triple_setFree {contents : Contents} (hArmed : armed durability = false) :
    Keeps env (On Free) (setSession contents durability) :=
  triple_setMemory fun _ _ h => ⟨h.1, hArmed⟩

theorem keeps_setNone : Keeps env (On Free) (setMemory (.loaded none)) :=
  triple_setMemory fun _ _ h => ⟨h.1, rfl⟩

/-- A value whose durability is not armed may be stored. -/
theorem triple_settled {α β : Type} {x : StoreProg α} {f : α → StoreProg β}
    {d : α → SessionDurability}
    (hx : Triple env (On Free) x (fun a s => On Free s ∧ armed (d a) = false) (On Free))
    (hf : ∀ a, armed (d a) = false → Keeps env (On Free) (f a)) :
    Keeps env (On Free) (x >>= f) :=
  triple_learn hx fun a hArmed => hf a hArmed

theorem keeps_answer {e : Except SessionError Unit} :
    Keeps env (On Free) (match e with
      | .ok () => pure ()
      | .error e => fail e : StoreProg Unit) := by
  cases e with
  | ok => exact keeps_pure _
  | error e => exact keeps_fail e

theorem keeps_insertNewSession (contents : Contents) :
    Keeps env (On Free) (insertNewSession contents) := by
  refine triple_ask <| keeps_bind (keeps_state _) fun memory =>
    keeps_bind (keeps_state _) fun disk => keeps_if (keeps_fail _) ?_
  refine keeps_seq (keeps_noteAttempt _) <|
    keeps_seq (keeps_onlyIf fun _ => keeps_removeDirAll loose_free (by decide)) <|
    keeps_seq (keeps_stageNewSession loose_free _) <|
    keeps_bind (keeps_attempt (keeps_arm loose_free _ _)) fun journaled => ?_
  cases journaled with
  | error e =>
    refine keeps_bind (keeps_state _) fun disk => keeps_if ?_ <| keeps_fail _
    exact keeps_seq (keeps_attempt (keeps_removeDirAll loose_free (by decide))) <| keeps_fail _
  | ok =>
    refine keeps_bind (keeps_attempt (keeps_commitNewSession loose_free)) fun committed => ?_
    cases committed with
    | error e =>
      exact keeps_seq (keeps_bind (keeps_attempt (keeps_discard loose_free _)) fun discarded => by
        cases discarded <;> exact keeps_pure _) <| keeps_fail _
    | ok written =>
      refine triple_settled (triple_settle_loose loose_free contents _ written)
        fun settled hArmed => ?_
      exact keeps_seq (triple_setFree hArmed) keeps_answer

theorem keeps_recoverPendingSync (contents : Contents) (pending : PendingDirectorySync) :
    Keeps env (On Free) (recoverPendingSync contents pending) := by
  refine keeps_bind (keeps_rewriteSession loose_free _ _) fun written => ?_
  refine triple_settled (triple_settle_loose loose_free contents _ written) fun settled hArmed => ?_
  refine keeps_then (triple_setFree hArmed) ?_
  split
  · exact keeps_fail _
  · refine keeps_bind (keeps_attempt (keeps_clearRecoveryState loose_free)) fun cleared => ?_
    cases cleared with
    | ok => exact keeps_pure _
    | error e => exact keeps_seq (triple_setFree rfl) <| keeps_fail _

theorem keeps_reloadLive : Keeps env (On Free) reloadLive :=
  keeps_seq keeps_loadLiveSession <|
  keeps_map (triple_setFree rfl)

theorem keeps_reconcile {session : LoadedSession} (hArmed : armed session.durability = false) :
    Keeps env (On Free) (reconcileSessionDurability session) := by
  refine triple_ask <| keeps_bind (keeps_state _) fun disk => ?_
  split
  · exact keeps_pure _
  · refine keeps_if ?_ ?_
    · refine keeps_then (keeps_discard loose_free _) ?_
      split
      · exact keeps_reloadLive
      · exact keeps_pure _
    · exact keeps_map (keeps_recoverPendingSync _ _)
  · exact keeps_seq (keeps_syncRoot loose_free) <|
      keeps_map (keeps_clearRecoveryState loose_free)
  next stage hStage hDurability =>
    cases stage with
    | liveRename => rw [hDurability] at hArmed; cases hArmed
    | directoryRemoval => rw [hDurability] at hArmed; cases hArmed
    | sessionsRootSync => simp at hStage

theorem triple_disk {α : Type} {Q : α → StoreState → Prop} {E : StoreState → Prop}
    {f : SessionDisk → StoreProg α}
    (h : ∀ disk, Triple env (On fun d m => d = disk ∧ P d m) (f disk) Q E) :
    Triple env (On P) (state (·.disk) >>= f) Q E :=
  fun s hs => h s.disk s ⟨hs.1, rfl, hs.2⟩

theorem triple_currentSession :
    Triple env (On P) currentSession
      (fun session => On fun d m => P d m ∧ m = .loaded (some session)) (On P) := by
  intro s hs
  rw [currentSession, ask_bind_run, state_bind_run]
  cases hMemory : s.memory with
  | unloaded => exact hs
  | loaded session =>
    cases session with
    | none => exact hs
    | some session => exact ⟨hs.1, hs.2, hMemory⟩

theorem keeps_enforcePassword (session : LoadedSession) (password : Option Text) :
    Keeps env (On P) (enforcePassword session password) := by
  refine keeps_bind keeps_ask fun _ => ?_
  split
  · exact keeps_pure _
  · exact keeps_fail _

end FreeRules

/-! ## Deletions -/

/-- The record says that a deletion has begun. -/
def RecordArmed (disk : SessionDisk) : Prop :=
  ∃ record, disk.record = some record ∧ armed record.durability = true

/-- The invariant of the store: a session in quarantine has its record, and so has one that
waits to get there, unless the record was removed. -/
structure Journaled (disk : SessionDisk) (memory : Memory) : Prop where
  moved : disk.root.current.deleting.isSome = true → disk.root.current.live = none ∧
    RecordArmed disk ∧ (memory = .unloaded ∨ memory.waiting = true)
  waiting : memory.waiting = true → disk.record = none ∨ RecordArmed disk

/-- There is no quarantine, and the record says nothing else than that a deletion has begun. -/
def Pausing (disk : SessionDisk) (_ : Memory) : Prop :=
  disk.root.current.deleting = none ∧ (disk.record = none ∨ RecordArmed disk)

/-- The record is written and the directory not moved. -/
def Ready (disk : SessionDisk) (_ : Memory) : Prop :=
  disk.root.current.deleting = none ∧ RecordArmed disk

/-- The directory was moved. -/
def Moved (disk : SessionDisk) (memory : Memory) : Prop :=
  disk.root.current.live = none ∧ RecordArmed disk ∧ memory.waiting = true

section Deletion

variable {env : DurabilityEnv} {P : SessionDisk → Memory → Prop} {s : StoreState}

variable {disk : SessionDisk} {memory : Memory}

theorem On.mono {P' : SessionDisk → Memory → Prop} (h : On P s)
    (hP : P s.disk s.memory → P' s.disk s.memory) : On P' s := ⟨h.1, hP h.2⟩

theorem Free.journaled (h : Free disk memory) : Journaled disk memory where
  moved hMoved := by rw [h.1] at hMoved; cases hMoved
  waiting hWaiting := by rw [h.2] at hWaiting; cases hWaiting

theorem Pausing.journaled (h : Pausing disk memory) : Journaled disk memory where
  moved hMoved := by rw [h.1] at hMoved; cases hMoved
  waiting _ := h.2

theorem Moved.journaled (h : Moved disk memory) : Journaled disk memory where
  moved _ := ⟨h.1, h.2.1, .inr h.2.2⟩
  waiting _ := .inr h.2.1

theorem Ready.pausing (h : Ready disk memory) :
    Pausing disk memory := ⟨h.1, .inr h.2⟩

/-- Where the memory is loaded and does not wait, there is no quarantine. -/
theorem Journaled.free {session : Option LoadedSession} (h : Journaled disk (.loaded session))
    (hWaiting : (Memory.loaded session).waiting = false) :
    Free disk (.loaded session) := by
  refine ⟨?_, hWaiting⟩
  cases hDeleting : disk.root.current.deleting with
  | none => rfl
  | some dir =>
    rcases (h.moved (by rw [hDeleting]; rfl)).2.2 with hUnloaded | hWaits
    · cases hUnloaded
    · rw [hWaiting] at hWaits
      cases hWaits

theorem keeps_clear_pausing : Keeps env (On Pausing) clearRecoveryState :=
  keeps_seq keeps_commitTick <|
  keeps_seq (keeps_changeDisk fun disk _ h => ⟨h.1, .inl (by
    simp [record])⟩) <|
  keeps_seq keeps_commitTick <|
  keeps_changeDisk fun _ _ h => h

theorem keeps_discard_pausing (stage : PendingDeleteStage) :
    Keeps env (On Pausing) (discardPreLiveRecoveryArtifacts (.pendingDelete stage)) :=
  keeps_seq (keeps_pure _) keeps_clear_pausing

theorem keeps_setMemory_pausing (memory : Memory) :
    Keeps env (On Pausing) (setMemory memory) := triple_setMemory fun _ _ h => h

theorem triple_finalize (contents : Contents) :
    Triple env (On Pausing) (finalizeDeletedSession contents) (fun _ => On Journaled)
      (On Journaled) := by
  have hEnd : ∀ s, On Pausing s → On Journaled s := fun s hs => hs.mono Pausing.journaled
  refine triple_bind (Keeps.weaken (keeps_attempt ?_) hEnd) fun synced => ?_
  · exact keeps_seq keeps_commitTick <| keeps_changeDisk fun _ _ h => h
  · cases synced with
    | ok =>
      exact triple_imp (keeps_seq keeps_clear_pausing <|
        keeps_seq (keeps_setMemory_pausing _) <| keeps_noteHeld _) (fun _ => hEnd) hEnd
    | error e =>
      refine triple_then (Q := On Free) (triple_setMemory fun _ _ h => ⟨h.1, rfl⟩)
        ?_
      exact triple_imp (keeps_seq (keeps_persistRecoveryState loose_free _ _) <|
        keeps_fail e) (fun _ _ hs => hs.mono Free.journaled)
        (fun _ hs => hs.mono Free.journaled)

theorem keeps_finalize_free (contents : Contents) :
    Keeps env (On Free) (finalizeDeletedSession contents) := by
  refine keeps_bind (keeps_attempt (keeps_syncRoot loose_free)) fun synced => ?_
  cases synced with
  | ok =>
    exact keeps_seq (keeps_clearRecoveryState loose_free) <|
      keeps_seq keeps_setNone <| keeps_noteHeld _
  | error e =>
    exact keeps_seq (triple_setFree rfl) <|
      keeps_seq (keeps_persistRecoveryState loose_free _ _) <| keeps_fail e

/-- The quarantine is there until its last entry is removed. -/
theorem triple_removeDeleting :
    Triple env (On Moved) (removeDirAll .deleting) (fun _ => On Pausing) (On Moved) := by
  refine triple_ask (triple_disk fun disk => ?_)
  split
  next hNone =>
    refine triple_imp keeps_commitTick ?_ (fun s hs => hs.mono (·.2))
    rintro - s ⟨hCrash, rfl, hMoved⟩
    exact ⟨hCrash, hNone, .inr hMoved.2.1⟩
  · refine triple_then (Q := On Moved) ?_ ?_
    · exact Triple.pre (P := On Moved) (keeps_seq keeps_commitTick <|
        keeps_changeDisk fun _ _ h => h) (fun s hs => hs.mono (·.2))
    · refine triple_bind (Q := fun _ => On Moved) ?_ fun _ =>
        triple_bind (Q := fun _ => On Moved) ?_ fun _ =>
        triple_bind (Q := fun _ => On Moved) ?_ fun _ =>
        triple_bind (Q := fun _ => On Moved) keeps_commitTick fun _ =>
        triple_changeDisk fun d m h => ⟨?_, .inr h.2.1⟩
      · exact keeps_seq keeps_commitTick <| keeps_changeDisk fun _ _ h => h
      · exact keeps_seq keeps_commitTick <| keeps_changeDisk fun _ _ h => h
      · exact keeps_seq keeps_commitTick <| keeps_changeDisk fun _ _ h => h
      · simp

theorem triple_removeQuarantine (contents : Contents) :
    Triple env (On Moved) (removeQuarantineDirectory contents) (fun _ => On Journaled)
      (On Journaled) := by
  refine triple_bind (triple_attempt triple_removeDeleting fun s hs =>
    hs.mono Moved.journaled) fun removed => ?_
  cases removed with
  | ok => exact triple_finalize contents
  | error e =>
    refine triple_then (Q := On Moved) (triple_setMemory fun _ _ h => ⟨h.1, h.2.1, rfl⟩)
      ?_
    exact triple_throw fun s hs => hs.mono Moved.journaled

theorem triple_rename (contents : Contents) :
    Triple env (On Ready) (renameSessionIntoDeleteQuarantine contents) (fun _ => On Moved)
      (On Journaled) := by
  have hEnd : ∀ s, On Pausing s → On Journaled s := fun s hs => hs.mono Pausing.journaled
  have hReady : ∀ s, On Ready s → On Journaled s := fun s hs => hEnd s (hs.mono Ready.pausing)
  refine triple_ask (triple_bind (Keeps.weaken (keeps_state _) hReady) fun disk => ?_)
  refine triple_if (triple_throw hReady) ?_
  refine triple_bind (Keeps.weaken (keeps_attempt keeps_commitTick) hReady) fun moved => ?_
  cases moved with
  | ok =>
    refine triple_then (Q := On fun d _ => d.root.current.live = none ∧ RecordArmed d)
      (triple_changeDisk fun d _ h => ⟨by simp, h.2⟩) ?_
    exact triple_setMemory fun _ _ h => ⟨h.1, h.2, rfl⟩
  | error e =>
    refine triple_conseq (P := On Pausing) (E := On Pausing) ?_
      (fun s hs => hs.mono Ready.pausing) (fun _ _ hs => hs) hEnd
    refine triple_bind (keeps_attempt (keeps_discard_pausing _)) fun discarded => ?_
    cases discarded with
    | ok => exact triple_seq (keeps_setMemory_pausing _) <| triple_thrown
    | error cleanup => exact triple_thrown

theorem triple_moveAndRemove (contents : Contents) :
    Triple env (On Ready) (moveAndRemove contents) (fun _ => On Journaled) (On Journaled) :=
  triple_seq (triple_rename contents) <| triple_removeQuarantine contents

/-- A record that is armed without an error is there. -/
theorem triple_arm (contents : Contents) :
    Triple env (On Free) (armPreLiveRecoveryState contents (.pendingDelete .liveRename))
      (fun _ => On fun d m => Free d m ∧ RecordArmed d) (On Free) := by
  have hPersist : Triple env (On Free) (persistRecoveryState contents (.pendingDelete .liveRename))
      (fun _ => On fun d m => Free d m ∧ RecordArmed d) (On Free) := by
    have hFree : ∀ s, (On fun d m => Free d m ∧ RecordArmed d) s → On Free s :=
      fun s hs => hs.mono (·.1)
    refine triple_bind (Q := fun _ => On Free) ?_ fun _ =>
      triple_bind (Q := fun _ => On fun d m => Free d m ∧ RecordArmed d) ?_ fun written =>
      Keeps.weaken (keeps_requireDurable written) hFree
    · exact keeps_seq keeps_stagingTick <| keeps_seq keeps_stagingTick <|
        keeps_seq (keeps_onRecovery loose_free _) <|
        keeps_four keeps_stagingTick <|
        keeps_onRecovery loose_free _
    · refine triple_seq keeps_commitTick <|
        triple_bind (Q := fun _ => On fun d m => Free d m ∧ RecordArmed d)
          (triple_changeDisk fun d m h =>
            ⟨⟨h.1, h.2⟩, ⟨contents, .pendingDelete .liveRename⟩, ?_, rfl⟩) fun _ =>
        Keeps.weaken (keeps_seq keeps_commitTick <| keeps_map (keeps_attempt
          (keeps_seq keeps_commitTick <| keeps_changeDisk fun _ _ h => h))) hFree
      simp [record]
  refine triple_bind (triple_attempt hPersist fun _ hs => hs) fun persisted => ?_
  cases persisted with
  | ok => exact triple_done
  | error e =>
    exact triple_seq (keeps_attempt (keeps_clearRecoveryState loose_free)) <|
      triple_thrown

/-! ## Calls -/

theorem triple_reconcileEntry :
    Triple env (On Journaled) reconcileSessionEntry (fun _ => On Free) (On Journaled) := by
  have hFree : ∀ s, On Free s → On Journaled s := fun s hs => hs.mono Free.journaled
  have hDeleted : ∀ access : SessionAccessOutcome, Keeps env (On Free) (do
      onlyIf (access = .deleted) (setMemory (.loaded none))
      pure access) := fun access =>
    keeps_map (keeps_onlyIf fun _ => keeps_setNone)
  refine triple_bind triple_currentSession fun session => ?_
  by_cases hArmed : armed session.durability = true
  · -- a deletion has begun; it is undone if the live directory is in place
    refine triple_bind (Q := fun _ => On Free) ?_ fun access => (hDeleted access).weaken hFree
    refine triple_ask (triple_disk fun disk => ?_)
    have hKept : ∀ s, On (fun d m => d = disk ∧ Journaled d m ∧ m = .loaded (some session)) s →
        On Journaled s := fun s hs => hs.mono fun h => h.2.1
    have hPreLive : ∀ stage, deleteBoundaryState disk = .preLive →
        Triple env (On fun d m => d = disk ∧ Journaled d m ∧ m = .loaded (some session)) (do
          discardPreLiveRecoveryArtifacts (.pendingDelete stage)
          reloadLive) (fun _ => On Free) (On Journaled) := by
      intro stage hBoundary
      refine triple_conseq (P := On Pausing) (E := On Pausing) (Q := fun _ => On Free) ?_ ?_
        (fun _ _ hs => hs) (fun s hs => hs.mono Pausing.journaled)
      · refine triple_seq (keeps_discard_pausing stage) <|
          triple_bind keeps_loadLiveSession fun contents => ?_
        refine triple_bind (Q := fun _ => On Free)
          (triple_setMemory fun _ _ h => ⟨h.1, rfl⟩) fun _ => triple_done
      · rintro s ⟨hCrash, rfl, hJournaled, hMemory⟩
        refine ⟨hCrash, ?_, hJournaled.waiting (by rw [hMemory]; exact hArmed)⟩
        unfold deleteBoundaryState at hBoundary
        split at hBoundary
        · assumption
        all_goals cases hBoundary
    obtain ⟨contents, durability⟩ := session
    rcases @armed_cases durability hArmed with rfl | rfl
    · dsimp only
      split
      next hBoundary => exact hPreLive .liveRename hBoundary
      all_goals exact triple_throw hKept
    · dsimp only
      split
      next hBoundary => exact hPreLive .directoryRemoval hBoundary
      all_goals exact triple_throw hKept
  · have hNot : armed session.durability = false := by simpa using hArmed
    refine triple_conseq (P := On Free) (E := On Free) (Q := fun _ => On Free)
      (keeps_bind (keeps_reconcile hNot) hDeleted) ?_ (fun _ _ hs => hs) hFree
    rintro s ⟨hCrash, hJournaled, hMemory⟩
    rw [hMemory] at hJournaled
    exact ⟨hCrash, hMemory ▸ hJournaled.free hNot⟩

theorem triple_authorize (password : Option Text) :
    Triple env (On Journaled) (authorize password)
      (fun session s => On Free s ∧ armed session.durability = false) (On Journaled) := by
  have hFree : ∀ s, On Free s → On Journaled s := fun s hs => hs.mono Free.journaled
  refine triple_ask (triple_bind triple_reconcileEntry fun access => ?_)
  refine triple_if ?_ ?_
  · exact triple_seq ((keeps_noteAnswer none).weaken hFree) <| triple_throw hFree
  · refine triple_learn (φ := fun session => armed session.durability = false)
      (triple_imp triple_currentSession (fun session s hs => ⟨hs.mono (·.1), ?_⟩) hFree)
      fun session hArmed => ?_
    · obtain ⟨-, ⟨-, hWaiting⟩, hMemory⟩ := hs
      rw [hMemory] at hWaiting
      exact hWaiting
    · exact triple_seq ((keeps_enforcePassword session password).weaken hFree) <|
        triple_pure fun _ hs => ⟨hs, hArmed⟩

theorem keeps_readSession (password : Option Text) :
    Keeps env (On Journaled) (readSession password) := by
  refine triple_learn (triple_authorize password) fun session _ => ?_
  refine triple_bind (Q := fun _ => On Journaled) ?_ fun _ => triple_done
  exact triple_imp (keeps_noteRead session.contents)
    (fun _ s hs => hs.mono Free.journaled) (fun s hs => hs.mono Free.journaled)

theorem keeps_listSessions : Keeps env (On Journaled) listSessions := by
  have hFree : ∀ s, On Free s → On Journaled s := fun s hs => hs.mono Free.journaled
  refine keeps_bind (keeps_state _) fun memory => keeps_if ?_ ?_
  · exact keeps_map (keeps_noteAnswer none)
  · refine triple_bind triple_reconcileEntry fun access =>
      triple_imp (P := On Free) (Q := fun _ => On Free) (E := On Free) ?_
        (fun _ => hFree) hFree
    refine keeps_if ?_ ?_
    · exact keeps_map (keeps_noteAnswer none)
    · refine triple_bind (Q := fun _ => On Free) (triple_currentSession.post
        (fun _ s hs => hs.mono (·.1))) fun session => ?_
      exact keeps_map (keeps_noteRead _)

theorem keeps_updateSession (mutation : Mutation) (password : Option Text) :
    Keeps env (On Journaled) (updateSession mutation password) := by
  have hFree : ∀ s, On Free s → On Journaled s := fun s hs => hs.mono Free.journaled
  refine triple_learn (triple_authorize password) fun session hSession =>
    triple_imp (P := On Free) (Q := fun _ => On Free) (E := On Free) ?_
      (fun _ => hFree) hFree
  split
  · exact keeps_fail _
  · refine keeps_then (keeps_noteAttempt _) ?_
    refine triple_settled (triple_write_loose loose_free _ _ hSession) fun written hArmed => ?_
    cases written with
    | applied res durability => exact keeps_seq (triple_setFree hArmed) keeps_answer
    | aborted e durability => exact keeps_fail e

/-- A deletion is not tried again while its record is gone and the live directory is in
place. -/
def RecordKept (disk : SessionDisk) (memory : Memory) : Prop :=
  memory.waiting = true → deleteBoundaryState disk = .preLive → disk.record ≠ none

theorem triple_deleteWaiting {session : LoadedSession} (password : Option Text)
    (hArmed : armed session.durability = true) (disk : SessionDisk) :
    Triple env (On fun d m => d = disk ∧ Journaled d m ∧ RecordKept d m ∧
        m = .loaded (some session))
      (match deleteBoundaryState disk with
        | .preLive => do
          enforcePassword session password
          moveAndRemove session.contents
        | .quarantined => do
          setSession session.contents (.pendingDelete .directoryRemoval)
          removeQuarantineDirectory session.contents
        | .removed => finalizeDeletedSession session.contents
        | .ambiguous => fail (.invalidRequest (text "session " ++ env.sessionId ++
            text " has both live and delete-quarantine directories present")))
      (fun _ => On Journaled) (On Journaled) := by
  have hWaits : ∀ m : Memory, m = .loaded (some session) → m.waiting = true := by
    rintro m rfl
    exact hArmed
  split
  next hBoundary =>
    refine Triple.pre (P := On Ready) (Q := fun _ => On Journaled) (E := On Journaled)
      (triple_seq ((keeps_enforcePassword session password).weaken fun s hs =>
        hs.mono fun h => (Ready.pausing h).journaled) <| triple_moveAndRemove _) ?_
    rintro s ⟨hCrash, rfl, hJournaled, hKept, hMemory⟩
    refine ⟨hCrash, ?_, ?_⟩
    · unfold deleteBoundaryState at hBoundary
      split at hBoundary
      · assumption
      all_goals cases hBoundary
    · exact (hJournaled.waiting (hWaits _ hMemory)).resolve_left
        (hKept (hWaits _ hMemory) hBoundary)
  next hBoundary =>
    refine triple_bind (Q := fun _ => On Moved) (triple_setMemory ?_) fun _ =>
      triple_removeQuarantine _
    rintro d m ⟨rfl, hJournaled, -, -⟩
    have hSome : d.root.current.deleting.isSome = true := by
      unfold deleteBoundaryState at hBoundary
      split at hBoundary
      case h_2 hDeleting => rw [hDeleting]; rfl
      all_goals cases hBoundary
    obtain ⟨hLive, hRecord, -⟩ := hJournaled.moved hSome
    exact ⟨hLive, hRecord, rfl⟩
  next hBoundary =>
    refine (triple_finalize _).pre ?_
    rintro s ⟨hCrash, rfl, hJournaled, -, hMemory⟩
    refine ⟨hCrash, ?_, hJournaled.waiting (hWaits _ hMemory)⟩
    unfold deleteBoundaryState at hBoundary
    split at hBoundary
    case h_3 hDeleting => exact hDeleting
    all_goals cases hBoundary
  · exact triple_throw fun s hs => hs.mono fun h => h.2.1

theorem triple_deleteSession (password : Option Text) :
    Triple env (On fun d m => Journaled d m ∧ RecordKept d m) (deleteSession password)
      (fun _ => On Journaled) (On Journaled) := by
  have hFree : ∀ s, On Free s → On Journaled s := fun s hs => hs.mono Free.journaled
  refine triple_ask (triple_bind ((triple_currentSession).weaken fun s hs => hs.mono (·.1))
    fun session => ?_)
  refine triple_then ((keeps_noteAttempt none).weaken fun s hs => hs.mono (·.1.1)) ?_
  by_cases hArmed : armed session.durability = true
  · have hWaiting := @triple_deleteWaiting env session password hArmed
    obtain ⟨contents, durability⟩ := session
    rcases @armed_cases durability hArmed with rfl | rfl <;>
      exact triple_disk fun disk => (hWaiting disk).pre (fun s hs => hs.mono
        fun h => ⟨h.1, h.2.1.1, h.2.1.2, h.2.2⟩)
  · have hNot : armed session.durability = false := by simpa using hArmed
    have hToFree : ∀ s, On (fun d m => (Journaled d m ∧ RecordKept d m) ∧
        m = .loaded (some session)) s → On Free s := by
      rintro s ⟨hCrash, ⟨hJournaled, -⟩, hMemory⟩
      rw [hMemory] at hJournaled
      exact ⟨hCrash, hMemory ▸ hJournaled.free hNot⟩
    have hLive : Triple env (On Free) (deleteReconciled password) (fun _ => On Journaled)
        (On Journaled) := by
      refine triple_bind (triple_reconcileEntry.pre hFree) fun access =>
        triple_if (triple_pure hFree) ?_
      refine triple_bind (Q := fun _ => On Free) (triple_imp triple_currentSession
        (fun _ s hs => hs.mono (·.1)) hFree) fun current =>
        triple_seq ((keeps_enforcePassword current password).weaken hFree) <|
        triple_seq ((keeps_noteHeld _).weaken hFree) <|
        triple_seq ((triple_arm current.contents).weaken hFree) <|
        triple_bind (Q := fun _ => On Ready) ?_ fun _ => triple_moveAndRemove _
      exact triple_setMemory fun _ _ h => ⟨h.1.1, h.2⟩
    refine Triple.pre (P := On Free) (Q := fun _ => On Journaled) (E := On Journaled) ?_ hToFree
    obtain ⟨contents, durability⟩ := session
    cases durability with
    | clean => exact hLive
    | pendingSync pending => exact hLive
    | pendingDelete stage =>
      cases stage with
      | sessionsRootSync =>
        exact triple_imp (keeps_finalize_free contents) (fun _ => hFree) hFree
      | liveRename => cases hNot
      | directoryRemoval => cases hNot

theorem boundary_of_deleting (h : disk.root.current.deleting.isSome = true) :
    deleteBoundaryState disk ≠ .preLive := by
  unfold deleteBoundaryState
  intro hBoundary
  split at hBoundary
  case h_1 hDeleting => rw [hDeleting] at h; cases h
  all_goals cases hBoundary

theorem not_precedes_of_deleting {durability : SessionDurability}
    (h : disk.root.current.deleting.isSome = true) (hArmed : armed durability = true) :
    recoveryRecordPrecedesLiveBoundary durability disk = false := by
  have hBoundary := boundary_of_deleting h
  rcases armed_cases hArmed with rfl | rfl <;>
    simpa [recoveryRecordPrecedesLiveBoundary] using hBoundary

/-- What a record that counts says of the session. -/
def Recovered (record : RecoveryRecord) (disk : SessionDisk) (_ : Memory) : Prop :=
  Journaled disk (.loaded (some ⟨record.contents, record.durability⟩))

theorem triple_loadRecoverySession :
    Triple env (On fun d m => Journaled d m ∧ m = .unloaded) loadRecoverySession
      (fun found => match found with
        | none => On Free
        | some record => On (Recovered record)) (On Journaled) := by
  have hFree : ∀ d m, d.root.current.deleting = none ∧ Journaled d m ∧ m = .unloaded →
      Free d m := by
    rintro d m ⟨hNone, -, rfl⟩
    exact ⟨hNone, rfl⟩
  refine triple_disk fun disk => ?_
  by_cases hDeleting : disk.root.current.deleting.isSome = true
  · -- the record of a quarantined session counts
    rintro s ⟨hCrash, rfl, hJournaled, hMemory⟩
    obtain ⟨hLive, ⟨record, hRecord, hArmed⟩, -⟩ := hJournaled.moved hDeleting
    simp only [hRecord, not_precedes_of_deleting hDeleting hArmed]
    exact ⟨hCrash, fun _ => ⟨hLive, ⟨record, hRecord, hArmed⟩, .inr hArmed⟩,
      fun _ => .inr ⟨record, hRecord, hArmed⟩⟩
  · have hNone : disk.root.current.deleting = none := by simpa using hDeleting
    cases hRecord : disk.record with
    | none =>
      refine triple_pure fun s hs => hs.mono ?_
      rintro ⟨hSame, h⟩
      exact hFree _ _ ⟨hSame ▸ hNone, h⟩
    | some record =>
      dsimp only
      refine triple_if ?_ ?_
      · refine triple_bind (Q := fun _ => On Free) (triple_conseq (keeps_discard loose_free _) ?_
          (fun _ _ hs => hs) fun s hs => hs.mono Free.journaled) fun _ =>
          triple_pure fun _ hs => hs
        intro s hs
        refine hs.mono ?_
        rintro ⟨hSame, h⟩
        exact hFree _ _ ⟨hSame ▸ hNone, h⟩
      · refine triple_pure fun s hs => hs.mono ?_
        rintro ⟨rfl, hJournaled, hMemory⟩
        constructor
        · intro hMoved
          rw [hNone] at hMoved
          cases hMoved
        · intro hWaiting
          exact .inr ⟨record, hRecord, hWaiting⟩

theorem keeps_loadExisting (dir : SessionDirectory) (overlay : SessionSnapshot) :
    Keeps env (On Free) (loadExisting dir overlay) := by
  have hComplete : ∀ (needed : Bool) file contents durability, armed durability = false →
      Triple env (On Free) (completeFile needed file contents durability)
        (fun d s => On Free s ∧ armed d = false) (On Free) := by
    intro needed file contents durability hArmed
    refine triple_if ?_ <| triple_pure fun _ hs => ⟨hs, hArmed⟩
    exact triple_bind (triple_write_loose loose_free _ _ hArmed) fun written =>
      triple_pure fun _ hs => hs
  refine keeps_bind keeps_loadLiveSession fun contents => ?_
  refine triple_settled (d := id) (hComplete _ _ contents _ rfl) fun first hFirst => ?_
  refine triple_settled (d := id) (hComplete _ _ contents _ hFirst) fun second hSecond => ?_
  exact keeps_seq (triple_setFree hSecond) <| keeps_noteHeld _

theorem triple_load :
    Triple env (On fun d m => Journaled d m ∧ m = .unloaded) load (fun _ => On Journaled)
      (On Journaled) := by
  have hFree : ∀ s, On Free s → On Journaled s := fun s hs => hs.mono Free.journaled
  have hNone : Keeps env (On Free) loadNone :=
    keeps_seq keeps_setNone <| keeps_noteHeld _
  refine triple_bind triple_loadRecoverySession fun found => ?_
  cases found with
  | some record =>
    refine triple_then (Q := On Journaled) (triple_setMemory fun _ _ h => h) ?_
    split
    · exact keeps_noteHeld _
    · exact keeps_pure _
  | none =>
    refine triple_imp (P := On Free) (Q := fun _ => On Free) (E := On Free) ?_
      (fun _ => hFree) hFree
    refine keeps_bind (keeps_state _) fun disk => ?_
    split
    · exact hNone
    · split
      · exact hNone
      · exact keeps_loadExisting _ _

/-! ## Histories -/

/-- A deletion is only called when it does not move a directory without a record. -/
def KeepsRecord : DiskEvent → StoreState → Prop
  | .call (.delete _) _ _, s => RecordKept s.disk s.memory
  | _, _ => True

/-- A new session is refused while there is one. -/
theorem journaled_insert {session : Option LoadedSession} (contents : Contents)
    (h : On Journaled s) (hMemory : s.memory = .loaded session) :
    On Journaled (insertNewSession contents env s).2 := by
  cases session with
  | some session =>
    have hRefused : (insertNewSession contents env s).2 = s := by
      simp [insertNewSession, hMemory, Memory.session]
      rfl
    rw [hRefused]
    exact h
  | none =>
    have hJournaled := h.2
    rw [hMemory] at hJournaled
    have hFree : On Free s := ⟨h.1, hMemory ▸ hJournaled.free rfl⟩
    exact ((keeps_insertNewSession contents).after hFree).mono Free.journaled

theorem journaled_event {event : DiskEvent} (h : Journaled s.disk s.memory)
    (hKept : KeepsRecord event s) :
    Journaled (diskEvent env event s).disk (diskEvent env event s).memory := by
  cases event with
  | restart =>
    exact ⟨fun hMoved => ⟨(h.moved hMoved).1, (h.moved hMoved).2.1, .inl rfl⟩,
      fun hWaiting => by cases hWaiting⟩
  | call call staging commit =>
    have hOn : On Journaled (s.scheduled (staging.map verdictOf) (commit.map verdictOf)) :=
      ⟨noCrash_scheduled s staging commit, h⟩
    simp only [diskEvent, runCall]
    split
    case h_1 hMemory => exact (triple_load.after ⟨hOn.1, h, hMemory⟩).2
    case h_2 hMemory => exact (journaled_insert _ hOn hMemory).2
    · exact ((keeps_updateSession _ _).after hOn).2
    · exact ((triple_deleteSession _).after ⟨hOn.1, h, hKept⟩).2
    · exact ((keeps_readSession _).after hOn).2
    · exact (keeps_listSessions.after hOn).2
    · exact h

/-! ## A deletion on a disk that works -/

theorem removeQuarantine_finishes {contents : Contents} {dir : Nat} (hCommit : s.commit = [])
    (hDeleting : s.disk.root.current.deleting = some dir) :
    (removeQuarantineDirectory contents env s).1 = .ok () ∧
      (removeQuarantineDirectory contents env s).2.disk.root.current.deleting = none := by
  obtain ⟨disk, memory, possible, held, answers, staging, commit⟩ := s
  subst hCommit
  simp only at hDeleting
  simp [removeQuarantineDirectory, removeDirAll, attempt, unlinkFile, removeTmp, bind_run,
    commitTick, changeDisk, finalizeDeletedSession, syncDirectory, clearRecoveryState, setMemory,
    noteHeld, hDeleting, current_sync]

/-- With a working disk, a deletion that finds the quarantine ends without it. -/
theorem delete_finishes {contents : Contents} {durability : SessionDurability} {dir : Nat}
    (password : Option Text) (hCommit : s.commit = [])
    (hMemory : s.memory = .loaded (some ⟨contents, durability⟩))
    (hArmed : armed durability = true) (hLive : s.disk.root.current.live = none)
    (hDeleting : s.disk.root.current.deleting = some dir) :
    (deleteSession password env s).1 = .ok () ∧
      (deleteSession password env s).2.disk.root.current.deleting = none := by
  have hBoundary : deleteBoundaryState s.disk = .quarantined := by
    rw [deleteBoundaryState, hLive, hDeleting]
  have hRun : ∃ t : StoreState, t.commit = [] ∧ t.disk = s.disk ∧
      deleteSession password env s = removeQuarantineDirectory contents env t := by
    refine ⟨{ s with
      memory := .loaded (some ⟨contents, .pendingDelete .directoryRemoval⟩)
      possible := s.possible ++ [none]
      held := s.held ++ [none] }, hCommit, rfl, ?_⟩
    have hSession : currentSession env s = (.ok ⟨contents, durability⟩, s) := by
      rw [currentSession, ask_bind_run, state_bind_run, hMemory]
      rfl
    rw [deleteSession, ask_bind_run, bind_run_ok hSession]
    rcases armed_cases hArmed with rfl | rfl <;>
      simp [noteAttempt, setSession, setMemory, hBoundary]
  obtain ⟨t, hWorks, hDisk, hSame⟩ := hRun
  rw [hSame]
  exact removeQuarantine_finishes hWorks (hDisk ▸ hDeleting)

theorem load_finds_quarantine {record : RecoveryRecord}
    (hMemory : s.memory = .unloaded) (hDeleting : s.disk.root.current.deleting.isSome = true)
    (hRecord : s.disk.record = some record) (hArmed : armed record.durability = true) :
    (runCall env .load s).memory = .loaded (some ⟨record.contents, record.durability⟩) ∧
      (runCall env .load s).disk = s.disk := by
  have hFound : loadRecoverySession env s = (.ok (some record), s) := by
    rw [loadRecoverySession, state_bind_run, hRecord]
    simp only [not_precedes_of_deleting hDeleting hArmed]
    rfl
  have hLoad : runCall env .load s = (load env s).2 := by
    simp only [runCall, hMemory]
  rw [hLoad, load, bind_run_ok hFound]
  obtain ⟨contents, durability⟩ := record
  rcases @armed_cases durability hArmed with rfl | rfl <;> exact ⟨rfl, rfl⟩

/-- In every history in which no deletion is tried again while its record is gone, a session
in quarantine has its record; a restart finds it, and one more deletion on a working disk
finishes it. -/
theorem quarantine_journaled (env : DurabilityEnv) (events : List DiskEvent)
    (hKept : Along (diskEvent env) KeepsRecord events initialState) :
    let s := run (diskEvent env) events initialState
    s.disk.root.current.deleting.isSome = true → s.disk.record.isSome = true ∧
      let restarted := run (diskEvent env) [.restart, .call .load [] []] s
      restarted.memory.session.isSome = true ∧
        ∀ password, let retry := deleteSession password env (restarted.scheduled [] [])
          retry.1 = .ok () ∧ retry.2.disk.root.current.deleting = none := by
  intro s hMoved
  have hInitial : Journaled initialState.disk initialState.memory :=
    ⟨fun h => (by cases h), fun h => by cases h⟩
  have hJournaled : Journaled s.disk s.memory :=
    run_invariant (I := fun s => Journaled s.disk s.memory)
      (fun event s h hC => journaled_event h hC) hInitial hKept
  obtain ⟨hLive, ⟨record, hRecord, hArmed⟩, -⟩ := hJournaled.moved hMoved
  refine ⟨by rw [hRecord]; rfl, ?_⟩
  intro restarted
  obtain ⟨hMemory, hDisk⟩ := @load_finds_quarantine env
    ((diskEvent env .restart s).scheduled [] []) record rfl hMoved hRecord hArmed
  refine ⟨by rw [show restarted.memory = _ from hMemory]; rfl, ?_⟩
  intro password
  obtain ⟨dir, hDir⟩ := Option.isSome_iff_exists.mp hMoved
  have hSame : (restarted.scheduled [] []).disk = s.disk := hDisk
  have hDir' : (restarted.scheduled [] []).disk.root.current.deleting = some dir := by
    rw [hSame, hDir]
  exact delete_finishes password rfl hMemory hArmed (by rw [hSame, hLive]) hDir'

/-- A deletion whose quarantine cannot be emptied. -/
def stuckDeletion : List DiskEvent :=
  [.call .load [] [], .call (.create sampleNew) [] [],
    .call (.delete none) [] [true, true, true, true, false]]

theorem quarantine_journaled_stuck :
    let s := run (diskEvent sampleStoreEnv) stuckDeletion initialState
    s.disk.root.current.deleting.isSome = true ∧ s.disk.record.isSome = true := by
  intro s
  have hMoved : s.disk.root.current.deleting.isSome = true := by decide +kernel
  refine ⟨hMoved, (quarantine_journaled sampleStoreEnv stuckDeletion ?_ hMoved).1⟩
  refine ⟨trivial, trivial, fun hWaiting => ?_, trivial⟩
  revert hWaiting
  decide +kernel

/-- The move fails, the record is removed and its directory cannot be synced. The session
still waits for its deletion, so the next one moves the directory without a record; the
quarantine cannot be emptied, and after a restart the store does not know the session. -/
theorem quarantine_without_record :
    let s := run (diskEvent sampleStoreEnv)
      [.call .load [] [], .call (.create sampleNew) [] [],
        .call (.delete none) [] [true, true, true, false, true, false],
        .call (.delete none) [] [true, false]] initialState
    let restarted := run (diskEvent sampleStoreEnv) [.restart, .call .load [] []] s
    s.disk.root.current.deleting.isSome = true ∧ s.disk.record = none ∧
      restarted.disk.root.current.deleting.isSome = true ∧
      restarted.memory.session.isSome = false ∧
      (deleteSession none sampleStoreEnv (restarted.scheduled [] [])).1 =
        .error (.fail (.notFound (text "s"))) := by
  decide +kernel

end Deletion

end FabricFs.Session.Durability
