import FabricFs.Session.Recovery

/-!
# What the store tells about a session

Every call of the store keeps `Inv`: the disk and the memory agree up to what a crash may
still undo, and what the calls told was possible when they told it. Primitives fail only
while a file or a new directory is staged; a crash may come anywhere.

* `spec_readSession`, `spec_listSessions`, `spec_updateSession`, `spec_insertNewSession`: the
  calls keep `Inv`.
* `spec_deleteSession`: a deletion that returns leaves nothing that a crash could bring back.
* `spec_load`: a load fails only on the disk of a protected session, and after it the session
  is gone for good or in memory.
-/

namespace FabricFs.Session.Durability

open Lib Lib.Prog Lib.Runs Protocol SessionDirectory List Option

section Calls

variable {α β : Type} {env : DurabilityEnv} {K : Held → Prop} {held : Held} {memory : Memory}
  {P P' F : SessionDisk → Prop} {Q : α → SessionDisk → Prop} {n : Nat}
  {V : Option RecoveryRecord → Prop} {S : StoreState → Prop} {T : α → StoreState → Prop}

/-! ## Rules for calls -/

variable {x : StoreProg α} {contents a c : Contents} {disk : SessionDisk}

theorem Frame.inv {s : StoreState} (h : Frame K held memory P s)
    (hP : ∀ disk, P disk → MemOk held disk memory) : Inv K s := by
  obtain ⟨hSafe, hSub, hAnswers, rfl, rfl, hDisk, hKind⟩ := h
  exact ⟨hSafe, hSub, hAnswers, hKind, hP _ hDisk⟩

theorem Inv.frame {s : StoreState} (h : Inv K s) :
    Frame K s.held s.memory (fun disk => MemOk s.held disk s.memory) s :=
  ⟨h.safe, h.sub, h.answers, rfl, rfl, h.memory, h.kind⟩

theorem Holds.orInv (h : Holds env K held memory P x Q F)
    (hF : ∀ disk, F disk → MemOk held disk memory) :
    Spec env (Inv K) (Frame K held memory P) x (fun a => Frame K held memory (Q a)) (Inv K) :=
  spec_conseq h (fun _ hs => hs) (fun _ _ hs => hs) (fun _ hs => hs.inv hF)

theorem frame_attempt (h : Holds env K held memory P x Q F) :
    Spec env (Inv K) (Frame K held memory P) (attempt x) (fun res => Frame K held memory
      (fun disk => match res with
        | .ok a => Q a disk
        | .error _ => F disk)) S :=
  spec_conseq (holds_attempt h (G := fun _ => False)) (fun _ hs => hs) (fun _ _ hs => hs)
    (fun _ hs => hs.disk.elim)

theorem frame_disk {f : SessionDisk → StoreProg α}
    (h : ∀ d, P d → Spec env (Inv K) (Frame K held memory (fun disk => P disk ∧ disk = d)) (f d)
      T S) :
    Spec env (Inv K) (Frame K held memory P) (state (·.disk) >>= f) T S :=
  fun s hs => h s.disk hs.disk s ⟨hs.1, hs.2, hs.3, hs.4, hs.5, ⟨hs.6, rfl⟩, hs.7⟩

theorem frame_fact {φ : Prop} (h : φ → Spec env (Inv K) (Frame K held memory P) x T S) :
    Spec env (Inv K) (Frame K held memory (fun disk => P disk ∧ φ)) x T S :=
  fun s hs => h hs.disk.2 s (hs.mono fun _ hd => hd.1)

theorem frame_learn {φ : Prop} (hP : ∀ disk, P disk → φ)
    (h : φ → Spec env (Inv K) (Frame K held memory P) x T S) :
    Spec env (Inv K) (Frame K held memory P) x T S :=
  fun s hs => h (hP _ hs.disk) s hs

theorem frame_weaken (h : Spec env (Inv K) (Frame K held memory P) x T S)
    (hP : ∀ disk, P' disk → P disk) : Spec env (Inv K) (Frame K held memory P') x T S :=
  fun s hs => h s (hs.mono hP)

theorem frame_setMemory (next : Memory) :
    Spec env (Inv K) (Frame K held memory P) (setMemory next) (fun _ => Frame K held next P) S :=
  fun _ hs => ⟨hs.1, hs.2, hs.3, hs.4, rfl, hs.6, hs.7⟩

theorem frame_setSession (contents : Contents) (durability : SessionDurability) :
    Spec env (Inv K) (Frame K held memory P) (setSession contents durability)
      (fun _ => Frame K held (.loaded (some ⟨contents, durability⟩)) P) S :=
  frame_setMemory _

theorem frame_noteAttempt {contents : Option Contents} (hK : K (held ++ [contents])) :
    Spec env (Inv K) (Frame K held memory P) (noteAttempt contents)
      (fun _ => Frame K (held ++ [contents]) memory P) S := by
  intro s hs
  obtain ⟨hSafe, hSub, hAnswers, rfl, hMemory, hDisk, _⟩ := hs
  refine ⟨hSafe, ?_, hAnswers, rfl, hMemory, hDisk, hK⟩
  exact append_subset.2 ⟨fun _ h => mem_append_left _ (hSub h),
    fun _ h => mem_append_right _ h⟩

theorem frame_noteHeld (next : Held) (hNext : next ⊆ held) (hK : K next) :
    Spec env (Inv K) (Frame K held memory P) (noteHeld next)
      (fun _ => Frame K next memory P) S := by
  intro s hs
  obtain ⟨hSafe, hSub, hAnswers, rfl, hMemory, hDisk, _⟩ := hs
  exact ⟨hSafe, fun _ h => hSub (hNext h), hAnswers, rfl, hMemory, hDisk, hK⟩

theorem frame_noteAnswer {contents : Option Contents} (hMem : contents ∈ held) :
    Spec env (Inv K) (Frame K held memory P) (noteAnswer contents)
      (fun _ => Frame K held memory P) S := by
  intro s hs
  obtain ⟨hSafe, hSub, hAnswers, rfl, hMemory, hDisk, hKind⟩ := hs
  refine ⟨hSafe, hSub, ?_, rfl, hMemory, hDisk, hKind⟩
  intro answer hAnswer
  rcases mem_cons.1 hAnswer with rfl | hAnswer
  · exact ⟨hSub hMem, _, hKind, hMem⟩
  · exact hAnswers answer hAnswer

theorem frame_noteRead (hMem : some contents ∈ held) (hK : K [some contents]) :
    Spec env (Inv K) (Frame K held memory P) (noteRead contents)
      (fun _ => Frame K [some contents] memory P) S := by
  refine spec_then (frame_noteAnswer hMem) ?_
  intro s hs
  exact ⟨hs.safe, List.Subset.refl _, hs.answers, rfl, hs.memory, hs.disk, hK⟩

/-! ## Reading the live directory -/

theorem withStatus_eq (h : contents.Consistent) :
    withStatus contents.overlay contents.password = contents.overlay := by
  obtain ⟨⟨metadata, entries, version⟩, password⟩ := contents
  have hStatus := h.1
  cases metadata with
  | none => cases hStatus
  | some metadata =>
    have : metadata.password = some (passwordStatus password) := hStatus
    simp [withStatus, ← this]

theorem loadLive_holds {dir : SessionDirectory} (sessionId : Text) (h : contents.Consistent)
    (hDir : HoldsSession contents dir) :
    loadLive sessionId contents.overlay dir.password = .ok contents := by
  rcases hDir.2 with hPassword | ⟨hPassword, hProtected⟩
  · rw [hPassword, loadLive, withStatus_eq h]
  · have hRecord := h.2 hProtected
    have hStatus := h.status
    rw [hProtected] at hStatus
    rw [hPassword, loadLive, hStatus, if_neg Bool.false_ne_true, ← hRecord, withStatus_eq h]

theorem holds_loadLiveSession (h : contents.Consistent) :
    Holds env K held memory (Phase n (· = contents) V) loadLiveSession
      (fun loaded disk => Phase n (· = contents) V disk ∧ loaded = contents) F := by
  refine holds_ask (holds_disk fun d hd => ?_)
  obtain ⟨_, rfl, hHolds⟩ := hd.base.dirs.current
  have hDir : d.directory .live = some (d.dirs n).current := by
    rw [SessionDisk.directory, liveSlot hd]
    rfl
  simp only [hDir, hHolds.1, loadLive_holds env.sessionId h hHolds]
  exact holds_pure (fun _ h => ⟨h.1, rfl⟩)

/-! ## Records that do not count -/

theorem holds_discardSessionDir (ha : IsHeld held a)
    (hV : ∀ r, V (some r) → PhaseRecord held a.password r) :
    Holds env K held memory (Phase n (· = a) V)
      (discardPreLiveRecoveryArtifacts (.pendingSync .sessionDir))
      (fun _ => Phase n (· = a) (· = none)) F := by
  have hTmp : ∀ file dir disk, Phase n (· = a) V disk → Phase n (· = a) V
      (disk.onDir dir (Delayed.change (setTmp file false))) :=
    fun file dir disk h => Phase.covered h (quiet_setTmp disk dir file false).toCovered
  have hGood : ∀ disk, Phase n (· = a) V disk → Good held disk := fun _ h => h.good_eq ha hV
  refine spec_then (spec_seq (holds_removeLiveTmp hGood (hTmp .overlay)) <|
    holds_removeLiveTmp hGood (hTmp .password)) ?_
  refine holds_clearRecoveryState (recoveryFree_liveAt n _) hGood fun _ h => ?_
  refine Phase.good_eq h ha ?_
  rintro r (hr | hr)
  · exact hV r hr
  · cases hr

/-! ## Recovery -/

theorem put_password_congr (h : c.password = a.password) : put .password c = put .password a := by
  funext dir
  simp [put, h]

theorem commitFile_password (slot : Slot) (h : c.password = a.password) :
    commitFile slot .password c = commitFile slot .password a := by
  unfold commitFile
  rw [put_password_congr h]

theorem holds_rewriteSessionDir (ha : IsHeld held a) (hc : IsHeld held c)
    (hPassword : c.password = a.password) (hV : ∀ r, V (some r) → PhaseRecord held a.password r) :
    Holds env K held memory (Phase n (· = a) V) (rewriteSession c .sessionDir)
      (fun written disk => Phase n (· = c) V disk ∧ written = .durable) (Phase n (· = a) V) := by
  have hFirst : Holds env K held memory (Phase n (· = a) V) (atomicWrite .live .password c)
      (fun written disk => Phase n (· = a) V disk ∧ written = .durable) (Phase n (· = a) V) := by
    refine spec_then (holds_stageLive ha hV) ?_
    rw [commitFile_password .live hPassword]
    exact holds_commitLive ha ha rfl (fun _ => rfl) hV
  refine spec_bind hFirst fun _ => ?_
  refine spec_bind holds_requireDurable fun _ => ?_
  refine spec_bind (holds_stageLive ha hV) fun _ => ?_
  exact holds_commitLive ha hc hPassword (fun h => by cases h) hV

theorem holds_rewriteSessionsRoot (hc : IsHeld held c) (hNone : none ∈ held)
    (hV : ∀ r, V (some r) → OpenRecord held r) :
    Holds env K held memory (With (Open held) V) (rewriteSession c .sessionsRoot)
      (fun written disk => (∃ n, Phase n (· = c) V disk) ∧ written = .durable)
      (fun disk => With (Open held) V disk ∧ disk.root.current.staging = none) := by
  refine spec_then (holds_removeOpen _ (by decide) hNone hV) ?_
  refine spec_then (holds_conseq (holds_stageNewSession hNone hV) (fun _ h => h.1) (fun _ _ h => h)
    (fun _ h => h)) ?_
  refine holds_exists fun k => ?_
  exact holds_conseq (holds_commitNewSession hc hNone hV) (fun _ h => h)
    (fun _ _ h => ⟨⟨k, h.1⟩, h.2⟩) (fun _ h => h)

/-- Once the files are written again the session is settled. -/
theorem spec_recoverPendingSync {pending : PendingDirectorySync} (hc : IsHeld held c)
    (hV : ∀ r, V (some r) → PhaseRecord held c.password r)
    (hRewrite : Holds env K held memory P (rewriteSession c pending) (fun written disk => (∃ n,
      Phase n (· = c) V disk) ∧ written = .durable) F)
    (hF : ∀ disk, F disk → MemOk held disk memory) :
    Spec env (Inv K) (Frame K held memory P) (recoverPendingSync c pending)
      (fun _ s => ∃ n, Frame K held (.loaded (some ⟨c, .clean⟩)) (Phase n (· = c) (· = none)) s)
      (Inv K) := by
  refine spec_bind (hRewrite.orInv hF) fun written => ?_
  refine frame_fact fun hWritten => ?_
  subst hWritten
  intro s hs
  obtain ⟨n, hn⟩ := hs.disk
  have hNone : ∀ r : RecoveryRecord, some r = none → PhaseRecord held c.password r :=
    fun r hr => by cases hr
  refine (?_ : Spec env (Inv K) (Frame K held memory (Phase n (· = c) V)) _ _ _) s
    ⟨hs.1, hs.2, hs.3, hs.4, hs.5, hn, hs.7⟩
  refine frame_then (holds_completeSuccess hc hV pending) fun settled =>
    frame_fact fun hSettled => ?_
  subst hSettled
  refine spec_then (frame_setSession c .clean) ?_
  exact frame_sure (holds_clearRecoveryState (recoveryFree_liveAt n _)
    (fun _ h => Phase.good_eq h hc hNone)
    (fun _ h => Phase.good_eq h hc (by rintro r (hr | hr) <;> cases hr)))
    fun _ => spec_pure (fun _ h => ⟨n, h⟩)

/-! ## Access -/

/-- What reconciliation leaves. -/
def Reconciled (K : Held → Prop) (held : Held) (access : SessionAccessOutcome) (s : StoreState) :
    Prop :=
  match access with
  | .accessible => ∃ c n, IsHeld held c ∧
      Frame K held (.loaded (some ⟨c, .clean⟩)) (Phase n (· = c) (· = none)) s
  | .deleted => False

theorem memOk_clean (hc : IsHeld held c) (h : Phase n (· = c) (· = none) disk) :
    MemOk held disk (.loaded (some ⟨c, .clean⟩)) :=
  ⟨hc.1, hc.2, n, h⟩

theorem memOk_none (hNone : none ∈ held) (h : With (Open held) (· = none) disk) :
    MemOk held disk (.loaded none) :=
  ⟨hNone, h.base.live, ⟨none, h.base.deleting⟩, h.record⟩

theorem spec_reloadLive (ha : IsHeld held a) :
    Spec env (Inv K) (Frame K held memory (Phase n (· = a) (· = none))) reloadLive
      (Reconciled K held) S := by
  refine frame_then (holds_loadLiveSession ha.2) fun loaded => frame_fact fun hLoaded => ?_
  subst hLoaded
  refine spec_then (frame_setSession loaded .clean) ?_
  exact spec_pure (fun _ h => ⟨loaded, n, ha, h⟩)

theorem boundary_of_noLive (h : disk.root.current.live = none) :
    deleteBoundaryState disk = .quarantined ∨ deleteBoundaryState disk = .removed := by
  unfold deleteBoundaryState
  rw [h]
  cases disk.root.current.deleting with
  | none => exact .inr rfl
  | some dir => exact .inl rfl

/-- A change of a file that waits for a sync is dropped if it is still staged, and synced
otherwise. -/
theorem spec_reconcileSessionDir (contents : Contents) :
    Spec env (Inv K) (Frame K held (.loaded (some ⟨contents, .pendingSync .sessionDir⟩))
        (fun disk => MemOk held disk (.loaded (some ⟨contents, .pendingSync .sessionDir⟩))))
      (reconcileSessionDurability ⟨contents, .pendingSync .sessionDir⟩) (Reconciled K held)
      (Inv K) := by
  intro s hs
  obtain ⟨hHeld, hConsistent, n, live, hLive, hLiveConsistent, hPassword, hPhase⟩ := hs.disk
  have hc : IsHeld held contents := ⟨hHeld, hConsistent⟩
  have ha : IsHeld held live := ⟨hLive, hLiveConsistent⟩
  have hV : ∀ r : RecoveryRecord, (some r = none ∨
      some r = some ⟨contents, .pendingSync .sessionDir⟩) →
      PhaseRecord held live.password r := by
    rintro r (hr | hr)
    · cases hr
    · obtain rfl := some.inj hr
      exact phaseRecord_sessionDir hc hPassword.symm
  have hMem : ∀ disk, Phase n (· = live) (fun record => record = none ∨
      record = some ⟨contents, .pendingSync .sessionDir⟩) disk →
      MemOk held disk (.loaded (some ⟨contents, .pendingSync .sessionDir⟩)) :=
    fun disk h => ⟨hHeld, hConsistent, n, live, hLive, hLiveConsistent, hPassword, h⟩
  refine (frame_disk fun d _ => frame_weaken (spec_ite (fun _ => ?_) fun _ => ?_)
    fun _ h => h.1 : Spec env (Inv K) (Frame K held (.loaded (some
      ⟨contents, .pendingSync .sessionDir⟩)) (Phase n (· = live) (fun record => record = none ∨
      record = some ⟨contents, .pendingSync .sessionDir⟩))) _ _ _) s
    ⟨hs.1, hs.2, hs.3, hs.4, hs.5, hPhase, hs.7⟩
  · exact frame_then (holds_discardSessionDir ha hV) fun _ => spec_reloadLive ha
  · refine spec_then (spec_recoverPendingSync hc (hPassword ▸ hV) (holds_conseq
      (holds_rewriteSessionDir ha hc hPassword.symm hV) (fun _ h => h)
      (fun _ _ h => ⟨⟨n, h.1⟩, h.2⟩) (fun _ h => h)) hMem) ?_
    exact spec_pure fun _ ⟨k, hk⟩ => ⟨contents, k, hc, hk⟩

/-- A new session that waits for a sync is written again if its directory was lost. -/
theorem spec_reconcileSessionsRoot (contents : Contents) :
    Spec env (Inv K) (Frame K held (.loaded (some ⟨contents, .pendingSync .sessionsRoot⟩))
        (fun disk => MemOk held disk (.loaded (some ⟨contents, .pendingSync .sessionsRoot⟩))))
      (reconcileSessionDurability ⟨contents, .pendingSync .sessionsRoot⟩) (Reconciled K held)
      (Inv K) := by
  intro s hs
  obtain ⟨hHeld, hNone, hConsistent, hLive, hStaging, hDeleting, hRecord⟩ := hs.disk
  have hc : IsHeld held contents := ⟨hHeld, hConsistent⟩
  have hV : ∀ r : RecoveryRecord, (some r = none ∨
      some r = some ⟨contents, .pendingSync .sessionsRoot⟩) → OpenRecord held r :=
    fun r hr => hr.elim (fun h => by cases h) (openRecord_sessionsRoot hc r)
  have hMem : ∀ disk, With (Open held) (fun record => record = none ∨
      record = some ⟨contents, .pendingSync .sessionsRoot⟩) disk ∧
      disk.root.current.staging = none →
      MemOk held disk (.loaded (some ⟨contents, .pendingSync .sessionsRoot⟩)) :=
    fun disk h => ⟨hHeld, hNone, hConsistent, h.1.base.live, h.2, h.1.base.deleting, h.1.record⟩
  refine (frame_disk fun d _ => frame_weaken (spec_ite (fun hPre => ?_) fun _ => ?_)
    fun _ h => h.1.1 : Spec env (Inv K) (Frame K held (.loaded (some
      ⟨contents, .pendingSync .sessionsRoot⟩)) (fun disk => With (Open held) (fun record =>
      record = none ∨ record = some ⟨contents, .pendingSync .sessionsRoot⟩) disk ∧
      disk.root.current.staging = none)) _ _ _) s
    ⟨hs.1, hs.2, hs.3, hs.4, hs.5, ⟨⟨⟨hLive, hDeleting⟩, hRecord⟩, hStaging⟩, hs.7⟩
  · have hStaged : s.disk.root.current.staging.isSome = true := hPre
    rw [hStaging] at hStaged
    cases hStaged
  · refine spec_then (spec_recoverPendingSync hc (fun r hr => ?_)
      (holds_rewriteSessionsRoot hc hNone hV) hMem) ?_
    · obtain ⟨hDurability, hMember, hOther⟩ := hV r hr
      exact .inr (.inr ⟨hDurability, hMember, hNone, hOther⟩)
    · exact spec_pure fun _ ⟨k, hk⟩ => ⟨contents, k, hc, hk⟩

/-- A deletion that waits has no live directory, so every access fails. -/
theorem spec_reconcileDelete (contents : Contents) (stage : PendingDeleteStage) :
    Spec env (Inv K) (Frame K held (.loaded (some ⟨contents, .pendingDelete stage⟩))
        (fun disk => MemOk held disk (.loaded (some ⟨contents, .pendingDelete stage⟩))))
      (reconcileSessionDurability ⟨contents, .pendingDelete stage⟩) (Reconciled K held)
      (Inv K) := by
  intro s hs
  have hFails : ∀ d, MemOk held d (.loaded (some ⟨contents, .pendingDelete stage⟩)) →
      deleteBoundaryState d = .quarantined ∨ deleteBoundaryState d = .removed :=
    fun d h => boundary_of_noLive h.2.2.1.current
  have hStage := hs.disk.1
  have hInv : ∀ s', Frame K held (.loaded (some ⟨contents, .pendingDelete stage⟩))
      (fun disk => MemOk held disk (.loaded (some ⟨contents, .pendingDelete stage⟩)) ∧
        disk = s.disk) s' → Inv K s' := fun s' hs' => hs'.inv fun _ h => h.1
  have hFrame := hInv s ⟨hs.1, hs.2, hs.3, hs.4, hs.5, ⟨hs.6, rfl⟩, hs.7⟩
  cases stage with
  | sessionsRootSync => exact (hStage rfl).elim
  | liveRename =>
    rcases hFails s.disk hs.disk with h | h <;>
      simp only [reconcileSessionDurability, ask_bind_run, state_bind_run, h] <;> exact hFrame
  | directoryRemoval =>
    rcases hFails s.disk hs.disk with h | h <;>
      simp only [reconcileSessionDurability, ask_bind_run, state_bind_run, h] <;> exact hFrame

theorem spec_reconcile (session : LoadedSession) :
    Spec env (Inv K) (Frame K held (.loaded (some session))
        (fun disk => MemOk held disk (.loaded (some session))))
      (reconcileSessionDurability session) (Reconciled K held) (Inv K) := by
  obtain ⟨contents, durability⟩ := session
  cases durability with
  | clean =>
    intro s hs
    obtain ⟨hHeld, hConsistent, n, hPhase⟩ := hs.disk
    exact ⟨contents, n, ⟨hHeld, hConsistent⟩, hs.1, hs.2, hs.3, hs.4, hs.5, hPhase, hs.7⟩
  | pendingSync pending =>
    cases pending with
    | sessionDir => exact spec_reconcileSessionDir contents
    | sessionsRoot => exact spec_reconcileSessionsRoot contents
  | pendingDelete stage => exact spec_reconcileDelete contents stage

theorem frame_memory {f : Memory → StoreProg α}
    (h : Spec env (Inv K) (Frame K held memory P) (f memory) T S) :
    Spec env (Inv K) (Frame K held memory P) (state (·.memory) >>= f) T S := by
  intro s hs
  have hRun := h s hs
  rw [← hs.memory] at hRun
  exact hRun

theorem frame_ask {f : DurabilityEnv → StoreProg α}
    (h : Spec env (Inv K) (Frame K held memory P) (f env) T S) :
    Spec env (Inv K) (Frame K held memory P) (ask >>= f) T S := h

theorem spec_inv
    (h : ∀ held memory, K held → Spec env (Inv K) (Frame K held memory (fun disk => MemOk held disk
      memory)) x T S) :
    Spec env (Inv K) (Inv K) x T S :=
  fun s hs => h s.held s.memory hs.kind s hs.frame

theorem spec_currentSession (hP : ∀ disk, P disk → MemOk held disk memory) :
    Spec env (Inv K) (Frame K held memory P) currentSession
      (fun session s => memory = .loaded (some session) ∧ Frame K held memory P s) (Inv K) := by
  refine frame_ask (frame_memory ?_)
  cases memory with
  | unloaded => exact fun _ hs => hs.inv hP
  | loaded session =>
    cases session with
    | some session => exact spec_pure fun _ hs => ⟨rfl, hs⟩
    | none =>
      refine frame_learn (fun _ h => (hP _ h).1) fun hNone => ?_
      exact spec_seq (frame_noteAnswer (S := Inv K) hNone) <| spec_fail fun _ hs => hs.inv hP

/-- Reconciliation, with the memory that it leaves. -/
theorem spec_reconcileEntry :
    Spec env (Inv K) (Frame K held memory (fun disk => MemOk held disk memory))
      reconcileSessionEntry
      (fun access s =>
        match access with
        | .accessible => ∃ c n, IsHeld held c ∧
            Frame K held (.loaded (some ⟨c, .clean⟩)) (Phase n (· = c) (· = none)) s
        | .deleted => False) (Inv K) := by
  refine spec_bind (spec_currentSession fun _ h => h) fun session => ?_
  refine spec_fact fun hSession => ?_
  subst hSession
  refine spec_bind (spec_reconcile session) fun access => ?_
  cases access with
  | accessible => exact fun _ hs => hs
  | deleted => exact fun _ hs => hs.elim

theorem spec_enforcePassword {session : LoadedSession} {password : Option Text}
    (hP : ∀ disk, P disk → MemOk held disk memory) :
    Spec env (Inv K) (Frame K held memory P) (enforcePassword session password)
      (fun _ => Frame K held memory P) (Inv K) := by
  refine frame_ask ?_
  split
  · exact spec_pure fun _ hs => hs
  · exact spec_fail fun _ hs => hs.inv hP

theorem spec_authorize {password : Option Text} :
    Spec env (Inv K) (Frame K held memory (fun disk => MemOk held disk memory)) (authorize password)
      (fun session s => ∃ n, IsHeld held session.contents ∧ Frame K held
        (.loaded (some ⟨session.contents, .clean⟩))
        (Phase n (· = session.contents) (· = none)) s) (Inv K) := by
  refine frame_ask (spec_bind spec_reconcileEntry fun access => ?_)
  cases access with
  | deleted => exact fun _ hs => hs.elim
  | accessible =>
    refine spec_exists fun c => spec_exists fun n => spec_fact fun hc => ?_
    have hMem : ∀ disk, Phase n (· = c) (· = none) disk →
        MemOk held disk (.loaded (some ⟨c, .clean⟩)) := fun _ h => memOk_clean hc h
    refine spec_bind (spec_currentSession hMem) fun session => spec_fact fun hSession => ?_
    obtain rfl : ⟨c, .clean⟩ = session := by simpa using hSession
    exact spec_seq (spec_enforcePassword hMem) <| spec_pure fun _ hs => ⟨n, hc, hs⟩

/-- Histories that the calls keep: `K` survives a choice among the states and a deletion. -/
structure Stable (K : Held → Prop) : Prop where
  choice : ∀ held next, K held → next ⊆ held → K next
  deletion : ∀ held, K held → K (held ++ [none])

/-- `K` survives a mutation of a session that it allows. -/
def StableUnderUpdate (K : Held → Prop) : Prop :=
  ∀ held c next, K held → some c ∈ held → next.password = c.password → K (held ++ [some next])

theorem Stable.single {x : Option Contents} (hK : Stable K) (hKind : K held) (hx : x ∈ held) :
    K [x] :=
  hK.choice _ _ hKind fun _ hy => mem_singleton.1 hy ▸ hx

theorem spec_readSession (hK : Stable K) (password : Option Text) :
    Spec env (Inv K) (Inv K) (readSession password) (fun _ => Inv K) (Inv K) := by
  refine spec_inv fun held memory hKind => spec_bind spec_authorize fun session => ?_
  refine spec_exists fun n => spec_fact fun hc => ?_
  refine spec_then (frame_noteRead hc.1 (hK.single hKind hc.1)) ?_
  exact spec_pure fun _ hs => hs.inv fun _ h =>
    memOk_clean ⟨mem_singleton_self _, hc.2⟩ h

theorem spec_listSessions (hK : Stable K) (session : Option LoadedSession) :
    Spec env (Inv K) (fun s => Inv K s ∧ s.memory = .loaded session) listSessions
      (fun _ => Inv K) (Inv K) := by
  intro s hs
  have hKind := hs.1.kind
  have hFrame := hs.1.frame
  rw [hs.2] at hFrame
  generalize s.held = held at hFrame hKind
  refine (frame_memory (spec_ite (fun hNo => ?_) fun _ => ?_) : Spec env (Inv K)
    (Frame K held (.loaded session) (fun disk => MemOk held disk (.loaded session))) listSessions
    (fun _ => Inv K) (Inv K)) s hFrame
  · obtain rfl : session = none := hNo
    refine frame_learn (fun _ h => h.1) fun hNone => ?_
    exact spec_seq (frame_noteAnswer (S := Inv K) hNone)
      <| spec_pure fun _ hs => hs.inv fun _ h => h
  · refine spec_bind spec_reconcileEntry fun access => ?_
    cases access with
    | deleted => exact fun _ hs => hs.elim
    | accessible =>
      refine spec_exists fun c => spec_exists fun n => spec_fact fun hc => ?_
      refine spec_bind (spec_currentSession fun _ h => memOk_clean hc h) fun session =>
        spec_fact fun hSession => ?_
      obtain rfl : ⟨c, .clean⟩ = session := by simpa using hSession
      refine spec_then (frame_noteRead hc.1 (hK.single hKind hc.1)) ?_
      exact spec_pure fun _ hs => hs.inv fun _ h =>
        memOk_clean ⟨mem_singleton_self _, hc.2⟩ h

theorem Mutation.consistent {mutation : Mutation} {next : SessionSnapshot} (h : c.Consistent)
    (hNext : mutation.apply c.overlay = .ok next) :
    Contents.Consistent ⟨next, c.password⟩ :=
  ⟨(mutation.keeps _ _ hNext).trans h.1, h.2⟩

theorem spec_updateSession (hUpdate : StableUnderUpdate K) (mutation : Mutation)
    (password : Option Text) :
    Spec env (Inv K) (Inv K) (updateSession mutation password) (fun _ => Inv K) (Inv K) := by
  refine spec_inv fun held memory hKind => spec_bind spec_authorize fun session => ?_
  refine spec_exists fun n => spec_fact fun hc => ?_
  split
  · exact spec_fail fun _ hs => hs.inv fun _ h => memOk_clean hc h
  · rename_i next hNext
    refine spec_then (frame_noteAttempt (hUpdate held session.contents
      ⟨next, session.contents.password⟩ hKind hc.1 rfl)) ?_
    generalize hNew : held ++ [some ⟨next, session.contents.password⟩] = held'
    have ha : IsHeld held' session.contents := ⟨hNew ▸ mem_append_left _ hc.1, hc.2⟩
    have hb : IsHeld held' ⟨next, session.contents.password⟩ :=
      ⟨hNew ▸ mem_append_right _ (mem_singleton_self _), Mutation.consistent hc.2 hNext⟩
    refine frame_then (holds_writeWithRecovery ha hb rfl (fun h => by cases h)) fun written => ?_
    cases written with
    | applied res durability =>
      refine spec_then (frame_setSession (S := Inv K) _ durability) ?_
      intro s hs
      rcases hs.disk with ⟨hWritten, _⟩ | ⟨⟨e, hWritten⟩, _⟩
      · cases hWritten
        refine hs.inv fun disk h => ?_
        rcases h with ⟨_, hPhase⟩ | ⟨⟨e, hWritten⟩, _⟩
        · exact memOk_clean hb hPhase
        · cases hWritten
      · cases hWritten
    | aborted e durability =>
      refine spec_fail fun s hs => hs.inv fun disk h => ?_
      rcases h with ⟨hWritten, _⟩ | ⟨_, hPhase⟩
      · cases hWritten
      · exact memOk_clean ha hPhase

/-! ## More may be held -/

section More

variable {held' : Held} {disk : SessionDisk} (hMore : held ⊆ held')
include hMore

theorem DirOk.more {dir : SessionDirectory} (h : DirOk held dir) : DirOk held' dir := by
  rcases h with ⟨c, hHeld, hConsistent, hHolds⟩ | ⟨hNone, hBroken⟩
  · exact .inl ⟨c, hMore hHeld, hConsistent, hHolds⟩
  · refine .inr ⟨hMore hNone, fun overlay hOverlay => ?_⟩
    obtain ⟨hPassword, c, hHeld, hRest⟩ := hBroken overlay hOverlay
    exact ⟨hPassword, c, hMore hHeld, hRest⟩

theorem LiveOk.more (h : LiveOk held disk) : LiveOk held' disk := by
  refine Delayed.All.mono h fun entries hEntries => ⟨fun hNone => hMore (hEntries.1 hNone), ?_⟩
  intro k hk
  obtain ⟨hApart, hFresh, hDirs⟩ := hEntries.2 k hk
  exact ⟨hApart, hFresh, hDirs.mono fun _ h => h.more hMore⟩

theorem MemOk.more {session : Option LoadedSession} (h : MemOk held disk (.loaded session)) :
    MemOk held' disk (.loaded session) := by
  cases session with
  | none => exact ⟨hMore h.1, h.2.1.more hMore, h.2.2⟩
  | some session =>
    obtain ⟨c, durability⟩ := session
    cases durability with
    | clean => exact ⟨hMore h.1, h.2⟩
    | pendingSync pending =>
      cases pending with
      | sessionDir =>
        obtain ⟨hHeld, hConsistent, k, live, hLive, hRest⟩ := h
        exact ⟨hMore hHeld, hConsistent, k, live, hMore hLive, hRest⟩
      | sessionsRoot =>
        obtain ⟨hHeld, hNone, hConsistent, hLive, hRest⟩ := h
        exact ⟨hMore hHeld, hMore hNone, hConsistent, hLive.more hMore, hRest⟩
    | pendingDelete stage => exact ⟨h.1, hMore h.2.1, h.2.2⟩

end More

/-! ## New sessions -/

variable {c a : Contents} {disk : SessionDisk}

/-- A staged session with its record is renamed and settled. -/
theorem spec_settleNewSession (hc : IsHeld held c) (hNone : none ∈ held) (k : Nat) :
    Spec env (Inv K) (Frame K held (.loaded none)
      (With (StagedFor held k (HoldsSession c)) (· = some ⟨c, .pendingSync .sessionsRoot⟩))) (do
        match ← attempt commitNewSession with
        | .error e => do
          let _ ← abortPreLivePendingSync .sessionsRoot e
          fail e
        | .ok written => do
          let settled ← settleLivePersistence c (.pendingSync .sessionsRoot) .sessionsRoot written
          setSession c settled.2
          match settled.1 with
          | .ok () => pure ()
          | .error e => fail e) (fun _ => Inv K) (Inv K) := by
  refine frame_sure (holds_commitNewSession hc hNone (openRecord_sessionsRoot hc))
    fun written => frame_fact fun hWritten => ?_
  subst hWritten
  refine frame_then (holds_completeSuccess hc (fun r hr => ?_) .sessionsRoot)
    fun settled => frame_fact fun hSettled => ?_
  · obtain ⟨hDurability, hHeld, hOther⟩ := openRecord_sessionsRoot hc r hr
    exact .inr (.inr ⟨hDurability, hHeld, hNone, hOther⟩)
  · subst hSettled
    exact spec_seq (frame_setSession (S := Inv K) c .clean) <|
      spec_pure fun _ hs => hs.inv fun _ h => memOk_clean hc h

/-- The record of a staged session is written; if that fails, the session is given up. -/
theorem spec_armNewSession (hc : IsHeld held c) (hNone : none ∈ held) (k : Nat) :
    Spec env (Inv K) (Frame K held (.loaded none)
      (With (StagedFor held k (HoldsSession c)) (· = none))) (do
        match ← attempt (armPreLiveRecoveryState c (.pendingSync .sessionsRoot)) with
        | .error e => do
          let disk ← state (·.disk)
          if disk.record = none then
            let _ ← attempt (removeDirAll .staging)
            fail e
          else fail e
        | .ok () =>
          match ← attempt commitNewSession with
          | .error e => do
            let _ ← abortPreLivePendingSync .sessionsRoot e
            fail e
          | .ok written => do
            let settled ← settleLivePersistence c (.pendingSync .sessionsRoot) .sessionsRoot written
            setSession c settled.2
            match settled.1 with
            | .ok () => pure ()
            | .error e => fail e) (fun _ => Inv K) (Inv K) := by
  have hVNone : ∀ r : RecoveryRecord, some r = none → OpenRecord held r := fun r hr => by cases hr
  have hVBoth : ∀ r : RecoveryRecord, (some r = none ∨
      some r = some ⟨c, .pendingSync .sessionsRoot⟩) → OpenRecord held r :=
    fun r hr => hr.elim (hVNone r) (openRecord_sessionsRoot hc r)
  refine spec_bind (frame_attempt (holds_arm (fun _ _ h =>
    ⟨⟨h.live, h.deleting⟩, h.staging, h.other, h.fresh, h.dirs⟩)
    (fun _ h => good_open (V := (· = none)) ⟨h.base.toOpen, h.record⟩ hNone hVNone)
    (fun _ h => good_open (V := fun r => r = none ∨ r = some ⟨c, .pendingSync .sessionsRoot⟩)
      ⟨h.base.toOpen, h.record⟩ hNone hVBoth))) fun res => ?_
  cases res with
  | ok _ => exact spec_settleNewSession hc hNone k
  | error e =>
    refine frame_disk fun d _ => frame_weaken (P := With (Open held) (· = none))
      (spec_ite (fun _ => ?_) fun _ => spec_fail fun _ hs => hs.inv fun _ h => memOk_none hNone h)
      fun _ h => ⟨h.1.base.toOpen, h.1.record⟩
    exact frame_sure (holds_removeOpen .staging (by decide) hNone hVNone)
      fun _ => spec_fail fun _ hs => hs.inv fun _ h => memOk_none hNone h.1

theorem spec_insertNewSession (hConsistent : c.Consistent)
    (hNew : ∀ held, K held → K (held ++ [some c])) (session : Option LoadedSession) :
    Spec env (Inv K) (fun s => Inv K s ∧ s.memory = .loaded session) (insertNewSession c)
      (fun _ => Inv K) (Inv K) := by
  intro s hs
  have hKind := hs.1.kind
  have hFrame := hs.1.frame
  rw [hs.2] at hFrame
  generalize s.held = held at hFrame hKind
  refine (frame_ask (frame_memory (frame_disk fun d hd => spec_ite (fun _ => ?_) fun hFree => ?_)) :
    Spec env (Inv K) (Frame K held (.loaded session)
      (fun disk => MemOk held disk (.loaded session))) (insertNewSession c) (fun _ => Inv K)
      (Inv K)) s hFrame
  · exact spec_fail fun _ hs => hs.inv fun _ h => h.1
  · simp only [Bool.or_eq_true, not_or, Bool.not_eq_true, isSome_eq_false_iff,
      isNone_iff_eq_none, Memory.session] at hFree
    obtain ⟨⟨⟨rfl, _⟩, hDeleting⟩, _⟩ := hFree
    obtain ⟨hNone, _, ⟨x, hx⟩, _⟩ := hd
    obtain rfl : none = x := hDeleting ▸ hx.current
    refine spec_then (frame_noteAttempt (hNew held hKind)) ?_
    have hMore : held ⊆ held ++ [some c] := subset_append_left _ _
    have hc : IsHeld (held ++ [some c]) c :=
      ⟨mem_append_right _ (mem_singleton_self _), hConsistent⟩
    have hNone' : none ∈ held ++ [some c] := hMore hNone
    generalize held ++ [some c] = held' at hMore hc hNone'
    have hVNone : ∀ r : RecoveryRecord, some r = none → OpenRecord held' r :=
      fun r hr => by cases hr
    refine frame_weaken (P := With (Open held') (· = none)) ?_ fun disk h =>
      ⟨⟨h.1.2.1.more hMore, by rw [h.2]; exact hx⟩, h.1.2.2.2⟩
    have hRemove : Holds env K held' (.loaded none) (With (Open held') (· = none))
        (onlyIf d.root.current.live.isSome (removeDirAll .live))
        (fun _ => With (Open held') (· = none)) (fun _ => False) :=
      spec_ite (fun _ => holds_conseq (holds_removeOpen _ (by decide) hNone' hVNone) (fun _ h => h)
        (fun _ _ h => h.1) (fun _ h => h)) fun _ => holds_pure fun _ h => h
    refine spec_then (hRemove.orInv fun _ h => h.elim) ?_
    refine spec_then (Holds.orInv (holds_stageNewSession hNone' hVNone)
      fun _ h => memOk_none hNone' h.1) ?_
    intro s hs
    obtain ⟨k, hk⟩ := hs.disk
    exact spec_armNewSession hc hNone' k s ⟨hs.1, hs.2, hs.3, hs.4, hs.5, hk, hs.7⟩

/-! ## Deletion -/

/-- The live name is free, though a crash may bring the directory back. -/
structure Gone (held : Held) (disk : SessionDisk) : Prop where
  live : LiveOk held disk
  current : disk.root.current.live = none

def IsDeletion (record : Option RecoveryRecord) : Prop :=
  record = none ∨ ∃ c, record = some ⟨c, .pendingDelete .liveRename⟩

theorem good_gone (h : With (LiveOk held) V disk) (hNone : none ∈ held)
    (hV : ∀ r, V r → IsDeletion r) : Good held disk := by
  refine ⟨h.base, fun entries hMem record hRecord => ?_⟩
  have hRecordV : V entries.record := h.record entries hMem
  rw [hRecord] at hRecordV
  rcases hV _ hRecordV with hr | ⟨c, hr⟩
  · cases hr
  · obtain rfl := some.inj hr
    exact ⟨hNone, rfl⟩

theorem liveOk_of_none (h : disk.root.All (fun entries => entries.live = none))
    (hNone : none ∈ held) :
    LiveOk held disk := by
  refine h.mono fun entries hLive => ⟨fun _ => hNone, fun k hk => ?_⟩
  rw [hLive] at hk
  cases hk

/-- What a completed deletion leaves. -/
def Deleted (K : Held → Prop) (s : StoreState) : Prop := Inv K s ∧ s.held = [none]

theorem spec_finalize (hK : Stable K) (hKind : K held) (hNone : none ∈ held)
    (hV : ∀ r, V r → IsDeletion r) (c : Contents) :
    Spec env (Inv K) (Frame K held memory (With (Gone held) V)) (finalizeDeletedSession c)
      (fun _ => Deleted K) S := by
  have hSync : ∀ disk, With (Gone held) V disk → With (fun disk =>
      disk.root.All (fun entries => entries.live = none) ∧ FixedDeleting disk) V
      (disk.onRoot Delayed.sync) :=
    fun disk h => ⟨⟨Delayed.All.sync_of h.base.current, ⟨_, Delayed.All.sync_of rfl⟩⟩, h.record⟩
  refine spec_bind (frame_attempt (holds_syncDirectory
    (fun _ h => good_gone ⟨h.base.live, h.record⟩ hNone hV) hSync (F := fun _ => False)))
    fun res => ?_
  cases res with
  | error e => exact fun _ hs => hs.disk.elim
  | ok _ =>
    have hClear : Holds env K held memory (With (fun disk =>
        disk.root.All (fun entries => entries.live = none) ∧ FixedDeleting disk) V)
        clearRecoveryState (fun _ => With (fun disk =>
        disk.root.All (fun entries => entries.live = none) ∧ FixedDeleting disk) (· = none))
        (fun _ => False) := by
      refine holds_clearRecoveryState (fun _ _ h => h)
        (fun _ h => good_gone ⟨liveOk_of_none h.base.1 hNone, h.record⟩ hNone hV)
        (fun _ h => good_gone (V := fun r => V r ∨ r = none)
          ⟨liveOk_of_none h.base.1 hNone, h.record⟩ hNone ?_)
      rintro r (hr | rfl)
      · exact hV r hr
      · exact .inl rfl
    refine spec_then (spec_conseq hClear (fun _ h => h) (fun _ _ h => h)
      (fun _ h => h.disk.elim)) ?_
    refine spec_then (frame_setMemory _) ?_
    refine spec_conseq (frame_noteHeld (S := S) [none]
      (fun _ h => mem_singleton.1 h ▸ hNone) (hK.single hKind hNone)) (fun _ h => h) ?_
      (fun _ h => h)
    intro _ s hs
    refine ⟨hs.inv fun disk h => ?_, hs.held⟩
    exact ⟨mem_singleton_self _, liveOk_of_none h.base.1 (mem_singleton_self _),
      h.base.2, h.record⟩

theorem spec_removeQuarantine (hK : Stable K) (hKind : K held) (hNone : none ∈ held)
    (hV : ∀ r, V r → IsDeletion r) (c : Contents) :
    Spec env (Inv K) (Frame K held memory (With (Gone held) V)) (removeQuarantineDirectory c)
      (fun _ => Deleted K) S := by
  have hRemove : Holds env K held memory (With (Gone held) V) (removeDirAll .deleting)
      (fun _ => With (Gone held) V) (fun _ => False) := by
    refine holds_removeDirAll (fun _ h => good_gone ⟨h.base.live, h.record⟩ hNone hV)
      (fun dir file disk h _ => ⟨⟨h.base.live.onDir dir (fun _ => dirOk_unlink hNone file),
        h.base.current⟩, h.record⟩)
      (fun dir file disk h => ⟨⟨h.base.live.covered (quiet_setTmp disk dir file false).toCovered,
        h.base.current⟩, h.record⟩)
      (fun disk h => ⟨⟨h.base.live.onRoot h.base.current hNone, ?_⟩, h.record⟩) (fun _ h _ => h)
    simpa using h.base.current
  refine spec_bind (frame_attempt hRemove) fun res => ?_
  cases res with
  | error e => exact fun _ hs => hs.disk.elim
  | ok _ => exact spec_finalize hK hKind hNone hV c

theorem spec_moveAndRemove (hK : Stable K) (hKind : K held) (hNone : none ∈ held)
    (hc : IsHeld held c) :
    Spec env (Inv K) (Frame K held memory
        (Phase n (· = c) (· = some ⟨c, .pendingDelete .liveRename⟩))) (moveAndRemove c)
      (fun _ => Deleted K) S := by
  have hGood : ∀ disk, Phase n (· = c) (· = some ⟨c, .pendingDelete .liveRename⟩) disk →
      Good held disk := by
    refine fun _ h => h.good_eq hc fun r hr => ?_
    obtain rfl := some.inj hr
    exact .inr (.inl ⟨rfl, hNone⟩)
  have hMove : ∀ disk, Phase n (· = c) (· = some ⟨c, .pendingDelete .liveRename⟩) disk →
      With (Gone held) (· = some ⟨c, .pendingDelete .liveRename⟩)
        (disk.onRoot (Delayed.change
          (fun entries => { entries with live := none, deleting := entries.live }))) := by
    refine fun disk h => ⟨⟨(hGood disk h).live.onRoot rfl hNone, ?_⟩, h.record⟩
    simp
  have hV : ∀ r, r = some ⟨c, .pendingDelete .liveRename⟩ → IsDeletion r :=
    fun r hr => .inr ⟨c, hr⟩
  refine spec_bind (Q := fun _ =>
    Frame K held (.loaded (some ⟨c, .pendingDelete .directoryRemoval⟩))
      (With (Gone held) (· = some ⟨c, .pendingDelete .liveRename⟩))) ?_
    fun _ => spec_removeQuarantine hK hKind hNone hV c
  refine frame_ask (frame_disk fun d hd => ?_)
  have hDeleting : d.root.current.deleting = none := congrArg Prod.fst hd.base.root.current.2
  simp only [hDeleting, isSome_none, Bool.false_eq_true, if_false]
  exact frame_weaken (frame_sure (holds_commitTick hGood) fun _ =>
    frame_then (holds_changeDisk hMove) fun _ => frame_setSession _ _) fun _ h => h.1

/-- A session that is not being deleted is reconciled first. -/
theorem spec_deleteLive (hK : Stable K) (hKind : K held) (hNone : none ∈ held)
    (session : LoadedSession) (password : Option Text) :
    Spec env (Inv K) (Frame K held (.loaded (some session))
      (fun disk => MemOk held disk (.loaded (some session)))) (deleteReconciled password)
      (fun _ => Deleted K) (Inv K) := by
  refine spec_bind spec_reconcileEntry fun access => ?_
  cases access with
  | deleted => exact fun _ hs => hs.elim
  | accessible =>
    refine spec_exists fun c => spec_exists fun n => spec_fact fun hc => ?_
    have hMem : ∀ disk, Phase n (· = c) (· = none) disk →
        MemOk held disk (.loaded (some ⟨c, .clean⟩)) := fun _ h => memOk_clean hc h
    refine spec_bind (spec_currentSession hMem) fun session => spec_fact fun hSession => ?_
    obtain rfl : ⟨c, .clean⟩ = session := by simpa using hSession
    refine spec_then (spec_enforcePassword hMem) ?_
    have hSub : [some c, none] ⊆ held :=
      cons_subset.2 ⟨hc.1, cons_subset.2 ⟨hNone, nil_subset _⟩⟩
    have hKindNew := hK.choice _ _ hKind hSub
    refine spec_then (frame_noteHeld _ hSub hKindNew) ?_
    have hcNew : IsHeld [some c, none] c := ⟨mem_cons_self, hc.2⟩
    have hNoneNew : none ∈ [some c, none] := mem_cons_of_mem _ (mem_singleton_self _)
    refine spec_then (Holds.orInv (holds_arm (recoveryFree_liveAt n _)
      (fun _ h => Phase.good_eq h hcNew fun r hr => by cases hr)
      (fun _ h => Phase.good_eq h hcNew ?_)) fun _ h => memOk_clean hcNew h) ?_
    · rintro r (hr | hr)
      · cases hr
      · obtain rfl := some.inj hr
        exact .inr (.inl ⟨rfl, hNoneNew⟩)
    · refine spec_then (frame_setSession _ _) ?_
      exact spec_moveAndRemove hK hKindNew hNoneNew hcNew

/-- A deletion that waits goes on where it stopped. -/
theorem spec_deleteWaiting (hK : Stable K) (hKind : K held) (hNone : none ∈ held)
    (contents : Contents) (stage : PendingDeleteStage) (password : Option Text) :
    Spec env (Inv K) (Frame K held (.loaded (some ⟨contents, .pendingDelete stage⟩))
      (fun disk => MemOk held disk (.loaded (some ⟨contents, .pendingDelete stage⟩)))) (do
        let disk ← state (·.disk)
        match deleteBoundaryState disk with
        | .preLive => do
          enforcePassword ⟨contents, .pendingDelete stage⟩ password
          moveAndRemove contents
        | .quarantined => do
          setSession contents (.pendingDelete .directoryRemoval)
          removeQuarantineDirectory contents
        | .removed => finalizeDeletedSession contents
        | .ambiguous => fail (.invalidRequest (text "session " ++ env.sessionId ++
            text " has both live and delete-quarantine directories present")))
      (fun _ => Deleted K) (Inv K) := by
  have hGone : ∀ disk, MemOk held disk (.loaded (some ⟨contents, .pendingDelete stage⟩)) →
      With (Gone held) IsDeletion disk :=
    fun _ h => ⟨⟨liveOk_of_none h.2.2.1 hNone, h.2.2.1.current⟩, h.2.2.2⟩
  have hBoundary : ∀ d, MemOk held d (.loaded (some ⟨contents, .pendingDelete stage⟩)) →
      deleteBoundaryState d = .quarantined ∨ deleteBoundaryState d = .removed :=
    fun d h => boundary_of_noLive h.2.2.1.current
  refine frame_disk fun d hd => ?_
  rcases hBoundary d hd with h | h
  · simp only [h]
    refine spec_then (frame_setSession _ _) ?_
    exact frame_weaken (spec_removeQuarantine hK hKind hNone (fun _ h => h) contents)
      fun _ h => hGone _ h.1
  · simp only [h]
    exact frame_weaken (spec_finalize hK hKind hNone (fun _ h => h) contents) fun _ h => hGone _ h.1

theorem spec_deleteSession (hK : Stable K) (password : Option Text) :
    Spec env (Inv K) (Inv K) (deleteSession password) (fun _ => Deleted K) (Inv K) := by
  refine spec_inv fun held memory hKind => frame_ask ?_
  refine spec_bind (spec_currentSession fun _ h => h) fun session => spec_fact fun hSession => ?_
  subst hSession
  refine spec_then (frame_noteAttempt (hK.deletion held hKind)) ?_
  have hKind' := hK.deletion held hKind
  have hNone : none ∈ held ++ [none] := mem_append_right _ (mem_singleton_self _)
  have hMore : held ⊆ held ++ [none] := subset_append_left _ _
  generalize held ++ [none] = held' at hKind' hNone hMore
  refine frame_weaken (P := fun disk => MemOk held' disk (.loaded (some session))) ?_
    fun _ h => h.more hMore
  obtain ⟨contents, durability⟩ := session
  cases durability with
  | clean => exact spec_deleteLive hK hKind' hNone _ password
  | pendingSync pending => exact spec_deleteLive hK hKind' hNone _ password
  | pendingDelete stage =>
    refine frame_learn (fun _ h => h.1) fun hStage => ?_
    cases stage with
    | sessionsRootSync => exact (hStage rfl).elim
    | liveRename => exact spec_deleteWaiting hK hKind' hNone contents _ password
    | directoryRemoval => exact spec_deleteWaiting hK hKind' hNone contents _ password

/-! ## Loading -/

theorem holdsSession_unique {dir : SessionDirectory} (ha : a.Consistent) (hc : c.Consistent)
    (hHoldsA : HoldsSession a dir) (hHoldsC : HoldsSession c dir) : a = c := by
  obtain ⟨overlayA, passwordA⟩ := a
  obtain ⟨overlayC, passwordC⟩ := c
  obtain rfl : overlayA = overlayC := some.inj (hHoldsA.1.symm.trans hHoldsC.1)
  have hPassword : passwordA = passwordC := by
    rcases hHoldsA.2 with hA | ⟨hA, hProtectedA⟩ <;> rcases hHoldsC.2 with hC | ⟨hC, hProtectedC⟩
    · exact some.inj (hA.symm.trans hC)
    · cases hA.symm.trans hC
    · cases hA.symm.trans hC
    · exact (ha.2 hProtectedA).trans (hc.2 hProtectedC).symm
  rw [hPassword]

/-- The disk as `load` finds it, apart from the record. -/
structure Found (held : Held) (disk : SessionDisk) : Prop where
  live : LiveOk held disk
  fixed : Fixed held disk
  deleting : FixedDeleting disk

theorem Found.covered {disk' : SessionDisk} (h : Found held disk) (hCover : Covered disk disk') :
    Found held disk' :=
  ⟨h.live.covered hCover, h.fixed.covered hCover, h.deleting.covered hCover⟩

theorem recoveryFree_found (held : Held) : RecoveryFree (Found held) := by
  intro disk f h
  refine ⟨h.live, ?_, h.deleting⟩
  rcases h.fixed with hNone | hBroken | ⟨n, c, hHeld, hConsistent, hPhase⟩
  · exact .inl hNone
  · exact .inr (.inl hBroken)
  · exact .inr (.inr ⟨n, c, hHeld, hConsistent,
      ⟨hPhase.base.root, hPhase.base.fresh, hPhase.base.dirs⟩, fun _ _ => trivial⟩)

/-- A protected session is among the states. -/
def Protected (held : Held) : Prop :=
  ∃ c, some c ∈ held ∧ c.password.isProtected = true

theorem Found.unloaded (h : With (Found held) (· = none) disk) : MemOk held disk .unloaded :=
  ⟨⟨h.base.live, fun entries hMem record hRecord => by
    cases (h.record entries hMem).symm.trans hRecord⟩, h.base.fixed, h.base.deleting, none,
    h.record⟩

/-- What the next access will tell, as far as the memory says. -/
def Memory.told : Memory → Option (Option Contents)
  | .unloaded => none
  | .loaded none => some none
  | .loaded (some ⟨_, .pendingDelete _⟩) => some none
  | .loaded (some ⟨contents, _⟩) => some (some contents)

/-- After a load the session is gone for good, or it is in memory. -/
def AfterLoad (K : Held → Prop) (s : StoreState) : Prop :=
  Inv K s ∧ (s.held = [none] ∨ ∃ contents, s.memory.told = some (some contents))

theorem spec_loadNone (hK : Stable K) (hKind : K held) (hNone : none ∈ held)
    (hP : ∀ disk, P disk →
      With (fun disk => LiveOk [none] disk ∧ FixedDeleting disk) (· = none) disk) :
    Spec env (Inv K) (Frame K held memory P) loadNone (fun _ => AfterLoad K) S := by
  refine spec_then (frame_setMemory _) ?_
  refine spec_conseq (frame_noteHeld (S := S) [none]
    (fun _ h => mem_singleton.1 h ▸ hNone) (hK.single hKind hNone)) (fun _ h => h) ?_
    (fun _ h => h)
  intro _ s hs
  refine ⟨hs.inv fun disk h => ?_, .inl hs.held⟩
  obtain ⟨⟨hLive, hDeleting⟩, hRecord⟩ := hP disk h
  exact ⟨mem_singleton_self _, hLive, hDeleting, hRecord⟩

theorem holds_completeFile {file : SessionFile} (ha : IsHeld held a) (needed : Bool) :
    Holds env K held memory (Phase n (· = a) (· = none)) (completeFile needed file a .clean)
      (fun durability disk => Phase n (· = a) (· = none) disk ∧ durability = .clean) F := by
  refine spec_ite (fun _ => ?_) fun _ => holds_pure fun _ h => ⟨h, rfl⟩
  refine spec_bind (holds_writeWithRecovery ha ha rfl (fun _ => rfl)) fun written => ?_
  refine holds_pure fun disk h => ?_
  rcases h with ⟨rfl, hPhase⟩ | ⟨⟨e, rfl⟩, hPhase⟩
  · exact ⟨hPhase, rfl⟩
  · exact ⟨hPhase, rfl⟩

theorem spec_loadExisting (hK : Stable K) (hKind : K held) (ha : IsHeld held a)
    (dir : SessionDirectory) (overlay : SessionSnapshot) :
    Spec env (Inv K) (Frame K held memory (Phase n (· = a) (· = none))) (loadExisting dir overlay)
      (fun _ => AfterLoad K) S := by
  refine frame_then (holds_loadLiveSession ha.2) fun loaded => frame_fact fun hLoaded => ?_
  subst hLoaded
  refine frame_then (holds_completeFile ha _) fun durability => frame_fact fun hClean => ?_
  subst hClean
  refine frame_then (holds_completeFile ha _) fun durability => frame_fact fun hClean => ?_
  subst hClean
  refine spec_then (frame_setSession _ _) ?_
  refine spec_conseq (frame_noteHeld (S := S) [some loaded]
    (fun _ h => mem_singleton.1 h ▸ ha.1) (hK.single hKind ha.1)) (fun _ h => h) ?_
    (fun _ h => h)
  exact fun _ s hs => ⟨hs.inv fun disk h => memOk_clean ⟨mem_singleton_self _, ha.2⟩ h,
    .inr ⟨loaded, by rw [hs.memory]; rfl⟩⟩

/-- A record of a live write goes with one state of the session. -/
theorem Fixed.phase {password : PasswordRecord} (h : Fixed held disk)
    (hLive : LiveIs held password disk) (hRecord : disk.recovery.All (fun e => V e.record)) :
    ∃ n a, IsHeld held a ∧ a.password = password ∧ Phase n (· = a) V disk := by
  obtain ⟨n, hn, _, _, hDirs⟩ := hLive.current
  obtain ⟨c, hHeld, hConsistent, hPassword, hHolds⟩ := hDirs.current
  rcases h with hNone | ⟨k, shown, hk, _, hBroken, _⟩ | ⟨k, a, ha, hConsistentA, hPhase⟩
  · cases hn.symm.trans hNone.current
  · obtain rfl : n = k := some.inj (hn.symm.trans hk.current)
    obtain ⟨hMissing, b, _, hConsistentB, hOverlay, hProtected⟩ :=
      hBroken.current.2 c.overlay hHolds.1
    rcases hHolds.2 with hFile | ⟨_, hOpen⟩
    · cases hMissing.symm.trans hFile
    · have hStatus := hConsistentB.status
      rw [hOverlay, hConsistent.status, hOpen, hProtected] at hStatus
      cases hStatus
  · obtain rfl : n = k := some.inj (hn.symm.trans hPhase.base.root.current.1)
    obtain ⟨_, rfl, hHoldsA⟩ := hPhase.base.dirs.current
    obtain rfl := holdsSession_unique hConsistentA hConsistent hHoldsA hHolds
    exact ⟨n, _, ⟨hHeld, hConsistent⟩, hPassword, hPhase.base, hRecord⟩

theorem Phase.found (ha : IsHeld held a) (h : Phase n (· = a) (· = none) disk) :
    With (Found held) (· = none) disk :=
  ⟨⟨(Phase.good_eq h ha fun r hr => by cases hr).live,
    .inr (.inr ⟨n, a, ha.1, ha.2, h.base, fun _ _ => trivial⟩),
    ⟨none, h.base.root.mono fun _ hNames => congrArg Prod.fst hNames.2⟩⟩, h.record⟩

/-- The staging directory is not the live one. -/
theorem Found.unlink {dir : Nat} {file : SessionFile} (h : Found held disk) (hNone : none ∈ held)
    (hStaging : disk.root.current.staging = some dir) :
    Found held (disk.onDir dir (Delayed.change (unlink file))) := by
  have hOther : ∀ k, disk.root.current.live = some k → k ≠ dir := by
    intro k hk hEq
    have hClash := h.live.clash
    simp [clash, hk, hStaging, hEq] at hClash
  refine ⟨h.live.onDir dir (fun _ => dirOk_unlink hNone file), ?_, h.deleting⟩
  rcases h.fixed with hNo | ⟨k, shown, hk, hFresh, hBroken, hHeld⟩ |
    ⟨k, c, hHeld, hConsistent, hPhase⟩
  · exact .inl hNo
  · exact .inr (.inl ⟨k, shown, hk, hFresh, by rwa [dirs_onDir_other (hOther k hk.current)], hHeld⟩)
  · refine .inr (.inr ⟨k, c, hHeld, hConsistent, ⟨hPhase.base.root, hPhase.base.fresh, ?_⟩,
      fun _ _ => trivial⟩)
    rw [dirs_onDir_other (hOther k hPhase.base.root.current.1)]
    exact hPhase.base.dirs

/-- A staged session that does not count is removed. -/
theorem holds_discardFound (hNone : none ∈ held) (hc : IsHeld held c) :
    Holds env K held memory (With (fun disk => Found held disk ∧
        disk.root.All (fun entries => entries.deleting = none))
        (· = some ⟨c, .pendingSync .sessionsRoot⟩))
      (discardPreLiveRecoveryArtifacts (.pendingSync .sessionsRoot))
      (fun _ => With (Found held) (· = none)) F := by
  have hGood : ∀ {V : Option RecoveryRecord → Prop}, (∀ r, V (some r) → OpenRecord held r) →
      ∀ disk, With (fun disk => Found held disk ∧
        disk.root.All (fun entries => entries.deleting = none)) V disk → Good held disk :=
    fun hV disk h => good_open ⟨⟨h.base.1.live, h.base.2⟩, h.record⟩ hNone hV
  have hSome : ∀ r : RecoveryRecord, some r = some ⟨c, .pendingSync .sessionsRoot⟩ →
      OpenRecord held r := openRecord_sessionsRoot hc
  have hKeep : ∀ {disk disk' : SessionDisk}, With (fun disk => Found held disk ∧
        disk.root.All (fun entries => entries.deleting = none))
        (· = some ⟨c, .pendingSync .sessionsRoot⟩) disk → Covered disk disk' →
      With (fun disk => Found held disk ∧ disk.root.All (fun entries => entries.deleting = none))
        (· = some ⟨c, .pendingSync .sessionsRoot⟩) disk' :=
    fun h hCover => With.covered h hCover fun hBase => ⟨hBase.1.covered hCover,
      hBase.2.covers hCover.root fun _ _ hEq hDel => (congrArg (·.2.1) hEq).trans hDel⟩
  refine spec_then (holds_removeDirAll (hGood hSome)
    (fun dir file disk h hSlot => ⟨⟨h.base.1.unlink hNone hSlot, h.base.2⟩, h.record⟩)
    (fun dir file disk h => hKeep h (quiet_setTmp disk dir file false).toCovered)
    (fun disk h => hKeep h (quiet_dropStaging h.base.1.live.clash).toCovered)
    (fun _ h _ => h)) ?_
  refine holds_conseq (holds_clearRecoveryState
    (fun disk f h => ⟨recoveryFree_found held disk f h.1, h.2⟩) (hGood hSome) (hGood ?_))
    (fun _ h => h) (fun _ _ h => ⟨h.base.1, h.record⟩) (fun _ h => h)
  rintro r (hr | hr)
  · exact hSome r hr
  · cases hr

/-- A deletion that never moved the session is forgotten. -/
theorem holds_discardDeletion (hNone : none ∈ held) {stage : PendingDeleteStage} :
    Holds env K held memory (With (Found held) (· = some ⟨c, .pendingDelete .liveRename⟩))
      (discardPreLiveRecoveryArtifacts (.pendingDelete stage))
      (fun _ => With (Found held) (· = none)) F := by
  refine spec_then (holds_pure (Q := fun _ => With (Found held)
    (· = some ⟨c, .pendingDelete .liveRename⟩)) fun _ h => h) ?_
  refine holds_clearRecoveryState (recoveryFree_found held)
    (fun _ h => good_gone ⟨h.base.live, h.record⟩ hNone fun r hr => .inr ⟨c, hr⟩)
    (fun _ h => good_gone (V := fun r => r = some ⟨c, .pendingDelete .liveRename⟩ ∨ r = none)
      ⟨h.base.live, h.record⟩ hNone ?_)
  rintro r (hr | hr)
  · exact .inr ⟨c, hr⟩
  · exact .inl hr

/-- A record that does not count goes, and one that counts is kept in memory. -/
theorem holds_loadRecovery :
    Holds env K held memory (fun disk => MemOk held disk .unloaded) loadRecoverySession
      (fun pending disk =>
        match pending with
        | none => With (Found held) (· = none) disk
        | some record => MemOk held disk (.loaded (some ⟨record.contents, record.durability⟩)))
      F := by
  refine holds_disk fun d hd => ?_
  obtain ⟨hGood, hFixed, hDeleting, pending, hPending⟩ := hd
  have hRecord : d.record = pending := hPending.current
  refine holds_conseq (P := (· = d)) ?_ (fun _ h => h.2) (fun _ _ h => h) (fun _ h => h)
  cases pending with
  | none =>
    simp only [hRecord]
    exact holds_pure fun disk h => h ▸ ⟨⟨hGood.live, hFixed, hDeleting⟩, hPending⟩
  | some record =>
    simp only [hRecord]
    have hOk := hGood.record.current record hRecord
    obtain ⟨contents, durability⟩ := record
    cases durability with
    | clean => exact hOk.elim
    | pendingSync kind =>
      cases kind with
      | sessionDir =>
        obtain ⟨hHeld, hConsistent, hLive⟩ := hOk
        obtain ⟨n, a, ha, hPassword, hPhase⟩ := hFixed.phase
          (V := (· = some ⟨contents, .pendingSync .sessionDir⟩)) hLive hPending
        have hV : ∀ r : RecoveryRecord, some r = some ⟨contents, .pendingSync .sessionDir⟩ →
            PhaseRecord held a.password r := by
          intro r hr
          obtain rfl := some.inj hr
          exact phaseRecord_sessionDir ⟨hHeld, hConsistent⟩ hPassword.symm
        refine spec_ite (fun _ => ?_) fun _ => holds_pure fun disk h => ?_
        · refine spec_seq (holds_conseq (holds_discardSessionDir ha hV) (fun _ h => h ▸ hPhase)
            (fun _ _ h => h) (fun _ h => h)) <| holds_pure fun _ h => h.found ha
        · subst h
          exact ⟨hHeld, hConsistent, n, a, ha.1, ha.2, hPassword, hPhase.base,
            hPhase.record.mono fun _ h => .inr h⟩
      | sessionsRoot =>
        obtain ⟨hHeld, hNone, hConsistent, hFree⟩ := hOk
        refine spec_ite (fun _ => ?_) fun hStaged => holds_pure fun disk h => ?_
        · refine spec_seq (holds_conseq (holds_discardFound hNone ⟨hHeld, hConsistent⟩)
            (fun _ h => h ▸ ⟨⟨⟨hGood.live, hFixed, hDeleting⟩, hFree⟩, hPending⟩)
            (fun _ _ h => h) (fun _ h => h)) <| holds_pure fun _ h => h
        · subst h
          refine ⟨hHeld, hNone, hConsistent, hGood.live, ?_, hFree, hPending.mono fun _ h => .inr h⟩
          simpa [recoveryRecordPrecedesLiveBoundary] using hStaged
    | pendingDelete stage =>
      obtain ⟨hNone, rfl⟩ := hOk
      have hStart : With (Found held) (· = some ⟨contents, .pendingDelete .liveRename⟩) d :=
        ⟨⟨hGood.live, hFixed, hDeleting⟩, hPending⟩
      refine spec_ite (fun _ => ?_) fun hMoved => holds_pure fun disk h => ?_
      · refine spec_seq (holds_conseq (holds_discardDeletion hNone) (fun _ h => h ▸ hStart)
          (fun _ _ h => h) (fun _ h => h)) <| holds_pure fun _ h => h
      · subst h
        have hCurrent : disk.root.current.live = none := by
          cases hLive : disk.root.current.live with
          | none => rfl
          | some n =>
            have hFree := congrArg Prod.fst (hGood.live.current.2 n hLive).1
            simp only [beside] at hFree
            simp [recoveryRecordPrecedesLiveBoundary, deleteBoundaryState, hLive, hFree] at hMoved
        refine ⟨by decide, hNone, ?_, hPending.mono fun _ h => .inr ⟨contents, h⟩⟩
        rcases hFixed with hNo | ⟨k, _, hk, _⟩ | ⟨k, _, _, _, hPhase⟩
        · exact hNo
        · cases hCurrent.symm.trans hk.current
        · cases hCurrent.symm.trans hPhase.base.root.current.1

theorem liveOk_emptied {d : SessionDisk} {shown : Option SessionSnapshot × Option PasswordRecord}
    (hLive : LiveOk held d) (hAt : d.root.All (fun entries => entries.live = some n))
    (hFresh : n < d.nextDir)
    (hBroken : (d.dirs n).All (fun dir => files dir = shown ∧ Broken held dir))
    (hOverlay : (d.dirs n).current.overlay = none) : LiveOk [none] d := by
  -- all that a crash may leave is without an overlay
  have hEmpty : (d.dirs n).All (DirOk [none]) := by
    refine hBroken.mono fun dir hDir => .inr ⟨mem_singleton_self _, ?_⟩
    intro overlay hSome
    have hSame : dir.overlay = (d.dirs n).current.overlay :=
      congrArg Prod.fst (hDir.1.trans hBroken.current.1.symm)
    rw [hSame, hOverlay] at hSome
    cases hSome
  intro entries hMem
  obtain ⟨_, hSome⟩ := hLive entries hMem
  refine ⟨fun _ => mem_singleton_self _, fun m hm => ?_⟩
  obtain rfl : n = m := some.inj ((hAt entries hMem).symm.trans hm)
  exact ⟨(hSome n hm).1, hFresh, hEmpty⟩

/-- A record that counts is what the store starts from. -/
theorem spec_loadRecord (hK : Stable K) (hKind : K held) (record : RecoveryRecord) :
    Spec env (Inv K) (Frame K held .unloaded
        (fun disk => MemOk held disk (.loaded (some ⟨record.contents, record.durability⟩)))) (do
      setSession record.contents record.durability
      match record.durability with
      | .pendingDelete _ => noteHeld [none]
      | _ => pure ()) (fun _ => AfterLoad K) S := by
  obtain ⟨contents, durability⟩ := record
  refine spec_then (frame_setSession _ _) ?_
  cases durability with
  | clean =>
    exact spec_pure fun _ hs => ⟨hs.inv fun _ h => h, .inr ⟨contents, by rw [hs.memory]; rfl⟩⟩
  | pendingSync kind =>
    exact spec_pure fun _ hs => ⟨hs.inv fun _ h => h, .inr ⟨contents, by rw [hs.memory]; rfl⟩⟩
  | pendingDelete stage =>
    refine frame_learn (fun _ h => h.2.1) fun hNone => ?_
    refine spec_conseq (frame_noteHeld (S := fun _ => False) [none]
      (fun _ h => mem_singleton.1 h ▸ hNone) (hK.single hKind hNone)) (fun _ h => h) ?_
      (fun _ h => h.elim)
    exact fun _ s hs => ⟨hs.inv fun disk h => ⟨h.1, mem_singleton_self _, h.2.2⟩, .inl hs.held⟩

theorem spec_load (hK : Stable K) :
    Spec env (Inv K) (fun s => Inv K s ∧ s.memory = .unloaded) load (fun _ => AfterLoad K)
      (fun s => Inv K s ∧ Protected s.held) := by
  intro s hs
  have hKind := hs.1.kind
  have hFrame := hs.1.frame
  rw [hs.2] at hFrame
  generalize s.held = held at hFrame hKind
  refine (?_ : Spec env (Inv K) (Frame K held .unloaded (fun disk => MemOk held disk .unloaded))
    load (fun _ => AfterLoad K) (fun s => Inv K s ∧ Protected s.held)) s hFrame
  refine frame_then holds_loadRecovery fun pending => ?_
  cases pending with
  | some record => exact spec_loadRecord hK hKind record
  | none =>
    refine frame_disk fun d hd => ?_
    cases hDir : d.directory .live with
    | none =>
      simp only
      have hCurrent : d.root.current.live = none := by
        simpa [SessionDisk.directory] using hDir
      have hNo : d.root.All (fun entries => entries.live = none) := by
        rcases hd.base.fixed with hNo | ⟨k, _, hk, _⟩ | ⟨k, _, _, _, hPhase⟩
        · exact hNo
        · cases hCurrent.symm.trans hk.current
        · cases hCurrent.symm.trans hPhase.base.root.current.1
      exact spec_loadNone hK hKind (hd.base.live.current.1 hCurrent) fun disk h => h.2 ▸
        ⟨⟨liveOk_of_none hNo (mem_singleton_self _), hd.base.deleting⟩, hd.record⟩
    | some dir =>
      simp only
      obtain ⟨n, hn, rfl⟩ : ∃ n, d.root.current.live = some n ∧ (d.dirs n).current = dir := by
        simpa [SessionDisk.directory] using hDir
      rcases hd.base.fixed with hNo | ⟨k, shown, hk, hFresh, hBroken, hNone⟩ |
        ⟨k, a, hHeld, hConsistent, hPhase⟩
      · cases hn.symm.trans hNo.current
      · obtain rfl : n = k := some.inj (hn.symm.trans hk.current)
        cases hOverlay : (d.dirs n).current.overlay with
        | none =>
          simp only
          exact spec_loadNone hK hKind hNone fun disk h => h.2 ▸
            ⟨⟨liveOk_emptied hd.base.live hk hFresh hBroken hOverlay, hd.base.deleting⟩, hd.record⟩
        | some overlay =>
          simp only
          obtain ⟨hMissing, c, hHeld, hConsistent, rfl, hProtected⟩ :=
            hBroken.current.2 overlay hOverlay
          refine spec_bind (Q := fun _ _ => False) ?_ fun _ _ hs => hs.elim
          refine frame_ask (frame_disk fun d' hd' => ?_)
          obtain rfl := hd'.2
          simp only [hDir, hOverlay, hMissing, loadLive, hConsistent.status, hProtected, if_true]
          exact spec_fail fun s hs => ⟨hs.inv fun _ h => Found.unloaded h.1.1, c, hs.held ▸ hHeld,
            hProtected⟩
      · obtain rfl : n = k := some.inj (hn.symm.trans hPhase.base.root.current.1)
        obtain ⟨_, rfl, hHolds⟩ := hPhase.base.dirs.current
        simp only [hHolds.1]
        have hStart := (⟨hPhase.base, hd.record⟩ : Phase n _ (· = none) d)
        exact frame_weaken (spec_loadExisting hK hKind ⟨hHeld, hConsistent⟩ _ _)
          fun disk h => h.2 ▸ hStart

end Calls

end FabricFs.Session.Durability
