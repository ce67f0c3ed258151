import FabricFs.Lib.Runs
import FabricFs.Session.Durability

/-!
# What a crash may leave of a session

`held` lists the states that the disk may hold, with `none` for no session.

* `Good held disk`: whatever a crash leaves of the disk, a load finds one of these states, or
  a protected session that lost its password file.
* `MemOk held disk memory`: the memory fits the disk, and knows what is still to be settled.
* `Inv K s`: the two above, for a history that `K` allows, and every answer so far was possible.
* `Holds env K held memory P x Q F`: what a program does to the disk while `held` and the
  memory stay the same. There is one such rule for every program of the durability layer.
-/

namespace FabricFs.Session.Durability

open Lib Lib.Prog Protocol Delayed SessionDirectory SessionDisk RootEntries

/-! ## Directories and what they hold -/

variable {dir : SessionDirectory} {disk : SessionDisk}

abbrev Held : Type := List (Option Contents)

/-- The directory holds the session; the record of an unprotected one may be missing. -/
def HoldsSession (contents : Contents) (dir : SessionDirectory) : Prop :=
  dir.overlay = some contents.overlay ∧
    (dir.password = some contents.password ∨
      dir.password = none ∧ contents.password.isProtected = false)

/-- Nothing that can be loaded: at most a protected session without its record. -/
def Broken (held : Held) (dir : SessionDirectory) : Prop :=
  ∀ overlay, dir.overlay = some overlay →
    dir.password = none ∧ ∃ contents, some contents ∈ held ∧ contents.Consistent ∧
      contents.overlay = overlay ∧ contents.password.isProtected = true

/-- The directory holds one of the sessions, or it may be broken and is. -/
def DirOk (held : Held) (dir : SessionDirectory) : Prop :=
  (∃ contents, some contents ∈ held ∧ contents.Consistent ∧ HoldsSession contents dir) ∨
    (none ∈ held ∧ Broken held dir)

theorem Contents.Consistent.status {contents : Contents} (h : contents.Consistent) :
    (storedStatus contents.overlay).any (·.isProtected) = contents.password.isProtected := by
  rw [h.1]
  rfl

theorem dirOk_unlink {held : Held} (hNone : none ∈ held) (file : SessionFile) (h : DirOk held dir) :
    DirOk held (dir.unlink file) := by
  cases file with
  | overlay => exact .inr ⟨hNone, fun overlay hOverlay => by cases hOverlay⟩
  | password =>
    rcases h with ⟨contents, hMem, hConsistent, hOverlay, hPassword⟩ | ⟨_, hBroken⟩
    · by_cases hProtected : contents.password.isProtected = true
      · refine .inr ⟨hNone, fun overlay hEq => ⟨rfl, ?_⟩⟩
        exact ⟨contents, hMem, hConsistent, Option.some.inj (hOverlay.symm.trans hEq), hProtected⟩
      · exact .inl ⟨contents, hMem, hConsistent, hOverlay, .inr ⟨rfl, by simpa using hProtected⟩⟩
    · exact .inr ⟨hNone, fun overlay hEq => ⟨rfl, (hBroken overlay hEq).2⟩⟩

/-! ## Disks that differ in nothing that matters -/

/-- The live directory is also under the staging name. -/
def clash (entries : RootEntries) : Bool := entries.live.isSome && entries.staging == entries.live

/-- What must not stand beside the live directory. -/
def beside (entries : RootEntries) : Option Nat × Bool := (entries.deleting, clash entries)

def names (entries : RootEntries) : Option Nat × (Option Nat × Bool) :=
  (entries.live, beside entries)

def files (dir : SessionDirectory) : Option SessionSnapshot × Option PasswordRecord :=
  (dir.overlay, dir.password)

/-- Whatever a crash may leave of the second disk it may leave of the first. -/
structure Covered (disk disk' : SessionDisk) : Prop where
  root : Delayed.Covers names disk.root disk'.root
  recovery : Delayed.Covers RecoveryEntries.record disk.recovery disk'.recovery
  dirs : ∀ n < disk.nextDir, Delayed.Covers files (disk.dirs n) (disk'.dirs n)
  next : disk.nextDir ≤ disk'.nextDir

theorem covered_crash (disk : SessionDisk) (loss : Loss) : Covered disk (disk.crash loss) :=
  ⟨covers_crash _ _ _, covers_crash _ _ _, fun _ _ => covers_crash _ _ _, Nat.le_refl _⟩

/-- The disks differ in temporary files, staging names and syncs only. -/
structure Quiet (disk disk' : SessionDisk) : Prop extends Covered disk disk' where
  live : disk'.root.current.live = disk.root.current.live
  deleting : disk'.root.current.deleting = disk.root.current.deleting

theorem dirs_onDir_self (disk : SessionDisk) (n : Nat)
    (f : Delayed SessionDirectory → Delayed SessionDirectory) :
    (disk.onDir n f).dirs n = f (disk.dirs n) := if_pos rfl

theorem dirs_onDir_other {n k : Nat} {f : Delayed SessionDirectory → Delayed SessionDirectory}
    (h : k ≠ n) :
    (disk.onDir n f).dirs k = disk.dirs k := if_neg h

theorem quiet_onDir {n : Nat} {f : Delayed SessionDirectory → Delayed SessionDirectory}
    (hf : Delayed.Covers files (disk.dirs n) (f (disk.dirs n))) : Quiet disk (disk.onDir n f) := by
  refine ⟨⟨covers_refl _ _, covers_refl _ _, fun k _ => ?_, Nat.le_refl _⟩,
    rfl, rfl⟩
  simp only [onDir]
  split
  · rename_i hk
    subst hk
    exact hf
  · exact covers_refl _ _

theorem quiet_setTmp (disk : SessionDisk) (n : Nat) (file : SessionFile) (present : Bool) :
    Quiet disk (disk.onDir n (change (setTmp file present))) :=
  quiet_onDir (covers_change (by cases file <;> rfl))

theorem quiet_syncDir (disk : SessionDisk) (n : Nat) :
    Quiet disk (disk.onDir n sync) := quiet_onDir (covers_sync _ _)

theorem quiet_onRoot {f : Delayed RootEntries → Delayed RootEntries}
    (hf : Delayed.Covers names disk.root (f disk.root))
    (hNames : names (f disk.root).current = names disk.root.current) :
    Quiet disk (disk.onRoot f) :=
  ⟨⟨hf, covers_refl _ _, fun _ _ => covers_refl _ _, Nat.le_refl _⟩,
    congrArg Prod.fst hNames, congrArg (·.2.1) hNames⟩

theorem quiet_dropStaging (h : clash disk.root.current = false) :
    Quiet disk (disk.onRoot (change (set .staging none))) := by
  have hNames : names (set .staging none disk.root.current) = names disk.root.current := by
    simp only [names, beside, h]
    cases hLive : disk.root.current.live <;> simp [clash, hLive]
  exact quiet_onRoot (covers_change hNames) (by rwa [current_change])

theorem quiet_createStaging (h : clash disk.root.current = false)
    (hFresh : disk.root.current.live ≠ some disk.nextDir) : Quiet disk (disk.create .staging) := by
  have hNames : names (set .staging (some disk.nextDir) disk.root.current) =
      names disk.root.current := by
    simp only [names, beside, h]
    cases hLive : disk.root.current.live with
    | none => simp [clash, hLive]
    | some n =>
      have hNe : disk.nextDir ≠ n := fun hEq => hFresh (hEq ▸ hLive)
      simp [clash, hLive, hNe]
  refine ⟨⟨covers_change hNames, covers_refl _ _, fun n hn => ?_, Nat.le_succ _⟩, ?_, ?_⟩
  · simp only [create]
    rw [if_neg (Nat.ne_of_lt hn)]
    exact covers_refl _ _
  · simp [create]
  · simp [create]

/-! ## What a crash may leave -/

/-- Every directory that may be the live one is in order. -/
def LiveOk (held : Held) (disk : SessionDisk) : Prop :=
  disk.root.All (fun entries => (entries.live = none → none ∈ held) ∧
    ∀ n, entries.live = some n → beside entries = (none, false) ∧ n < disk.nextDir ∧
      (disk.dirs n).All (DirOk held))

/-- The live directory holds one of the sessions, all of them with one password. -/
def LiveIs (held : Held) (password : PasswordRecord) (disk : SessionDisk) : Prop :=
  disk.root.All (fun entries => ∃ n, entries.live = some n ∧ beside entries = (none, false) ∧
    n < disk.nextDir ∧ (disk.dirs n).All (fun dir => ∃ contents, some contents ∈ held ∧
      contents.Consistent ∧ contents.password = password ∧ HoldsSession contents dir))

/-- What a recovery record promises. -/
def RecordOk (held : Held) (disk : SessionDisk) (record : RecoveryRecord) : Prop :=
  match record.durability with
  | .clean => False
  | .pendingSync .sessionDir => some record.contents ∈ held ∧ record.contents.Consistent ∧
      LiveIs held record.contents.password disk
  | .pendingSync .sessionsRoot => some record.contents ∈ held ∧ none ∈ held ∧
      record.contents.Consistent ∧ disk.root.All (fun entries => entries.deleting = none)
  | .pendingDelete stage => none ∈ held ∧ stage = .liveRename

/-- Whatever a crash leaves, the session is one of the held ones. -/
structure Good (held : Held) (disk : SessionDisk) : Prop where
  live : LiveOk held disk
  record : disk.recovery.All (fun entries => ∀ record, entries.record = some record →
    RecordOk held disk record)

theorem holdsSession_of_files {contents : Contents} {dir' : SessionDirectory}
    (h : files dir' = files dir) (hDir : HoldsSession contents dir) :
    HoldsSession contents dir' := by
  obtain ⟨hOverlay, hPassword⟩ := Prod.mk.inj h
  rw [HoldsSession, hOverlay, hPassword]
  exact hDir

theorem dirOk_of_files {held : Held} {dir' : SessionDirectory} (h : files dir' = files dir)
    (hDir : DirOk held dir) : DirOk held dir' := by
  rcases hDir with ⟨contents, hMem, hConsistent, hHolds⟩ | ⟨hNone, hBroken⟩
  · exact .inl ⟨contents, hMem, hConsistent, holdsSession_of_files h hHolds⟩
  · obtain ⟨hOverlay, hPassword⟩ := Prod.mk.inj h
    refine .inr ⟨hNone, fun overlay hEq => ?_⟩
    rw [hPassword]
    exact hBroken overlay (hOverlay ▸ hEq)

section Covered

variable {held : Held} {disk disk' : SessionDisk}

theorem LiveOk.covered (h : LiveOk held disk) (hCover : Covered disk disk') :
    LiveOk held disk' := by
  refine Delayed.All.covers (f := names) ?_ hCover.root ?_ (P := fun entries =>
    (entries.live = none → none ∈ held) ∧ ∀ n, entries.live = some n →
      beside entries = (none, false) ∧ n < disk'.nextDir ∧ (disk'.dirs n).All (DirOk held))
  · refine h.mono fun entries hEntries => ⟨hEntries.1, fun n hn => ?_⟩
    obtain ⟨hDeleting, hFresh, hDirs⟩ := hEntries.2 n hn
    exact ⟨hDeleting, Nat.lt_of_lt_of_le hFresh hCover.next,
      hDirs.covers (hCover.dirs n hFresh) (fun _ _ hEq => dirOk_of_files hEq)⟩
  · intro entries entries' hEq hEntries
    obtain ⟨hLive, hDeleting⟩ := Prod.mk.inj hEq
    rw [hLive, hDeleting]
    exact hEntries

theorem LiveIs.covered {password : PasswordRecord} (h : LiveIs held password disk)
    (hCover : Covered disk disk') : LiveIs held password disk' := by
  intro entries' hMem'
  obtain ⟨entries, hMem, hEq⟩ := hCover.root entries' hMem'
  obtain ⟨hLive, hDeleting⟩ := Prod.mk.inj hEq
  obtain ⟨n, hn, hNot, hFresh, hDirs⟩ := h entries hMem
  refine ⟨n, hLive.trans hn, hDeleting.trans hNot, Nat.lt_of_lt_of_le hFresh hCover.next, ?_⟩
  refine hDirs.covers (hCover.dirs n hFresh) ?_
  rintro dir dir' hFiles ⟨contents, hHeld, hConsistent, hPassword, hHolds⟩
  exact ⟨contents, hHeld, hConsistent, hPassword, holdsSession_of_files hFiles hHolds⟩

theorem RecordOk.covered {record : RecoveryRecord} (h : RecordOk held disk record)
    (hCover : Covered disk disk') : RecordOk held disk' record := by
  unfold RecordOk at h ⊢
  split at h
  · exact h
  · exact ⟨h.1, h.2.1, h.2.2.covered hCover⟩
  · refine ⟨h.1, h.2.1, h.2.2.1, h.2.2.2.covers hCover.root ?_⟩
    intro entries entries' hEq hNot
    exact (congrArg (·.2.1) hEq).trans hNot
  · exact h

theorem Good.covered (h : Good held disk) (hCover : Covered disk disk') : Good held disk' := by
  refine ⟨h.live.covered hCover, fun entries' hMem' record hRecord => ?_⟩
  obtain ⟨entries, hMem, hEq⟩ := hCover.recovery entries' hMem'
  exact (h.record entries hMem record (hEq ▸ hRecord)).covered hCover

end Covered

/-! ## The states of the store -/

variable {n : Nat} {A : Contents → Prop} {disk disk' : SessionDisk}
  {V : Option RecoveryRecord → Prop} {held : Held}

/-- The session is in the live directory `n`, as `A` allows. -/
structure LiveAt (n : Nat) (A : Contents → Prop) (disk : SessionDisk) : Prop where
  root : disk.root.All (fun entries => entries.live = some n ∧ beside entries = (none, false))
  fresh : n < disk.nextDir
  dirs : (disk.dirs n).All (fun dir => ∃ contents, A contents ∧ HoldsSession contents dir)

/-- A disk as `R` says, with a record as `V` allows. -/
structure With (R : SessionDisk → Prop) (V : Option RecoveryRecord → Prop) (disk : SessionDisk) :
    Prop where
  base : R disk
  record : disk.recovery.All (fun entries => V entries.record)

abbrev Phase (n : Nat) (A : Contents → Prop) (V : Option RecoveryRecord → Prop) :
    SessionDisk → Prop := With (LiveAt n A) V

/-- Any crash leaves the same live session. -/
def Fixed (held : Held) (disk : SessionDisk) : Prop :=
  disk.root.All (fun entries => entries.live = none) ∨
    (∃ n shown, disk.root.All (fun entries => entries.live = some n) ∧ n < disk.nextDir ∧
      (disk.dirs n).All (fun dir => files dir = shown ∧ Broken held dir) ∧ none ∈ held) ∨
    ∃ n contents, some contents ∈ held ∧ contents.Consistent ∧
      Phase n (· = contents) (fun _ => True) disk

def FixedDeleting (disk : SessionDisk) : Prop :=
  ∃ dir, disk.root.All (fun entries => entries.deleting = dir)

/-- What the memory of the store says about the disk. -/
def MemOk (held : Held) (disk : SessionDisk) : Memory → Prop
  | .unloaded => Good held disk ∧ Fixed held disk ∧ FixedDeleting disk ∧
      ∃ record, disk.recovery.All (fun entries => entries.record = record)
  | .loaded none => none ∈ held ∧ LiveOk held disk ∧ FixedDeleting disk ∧
      disk.recovery.All (fun entries => entries.record = none)
  | .loaded (some ⟨contents, .clean⟩) => some contents ∈ held ∧ contents.Consistent ∧
      ∃ n, Phase n (· = contents) (· = none) disk
  | .loaded (some ⟨contents, .pendingSync .sessionDir⟩) => some contents ∈ held ∧
      contents.Consistent ∧ ∃ n live, some live ∈ held ∧ live.Consistent ∧
        live.password = contents.password ∧ Phase n (· = live)
          (fun record => record = none ∨ record = some ⟨contents, .pendingSync .sessionDir⟩) disk
  | .loaded (some ⟨contents, .pendingSync .sessionsRoot⟩) => some contents ∈ held ∧
      none ∈ held ∧ contents.Consistent ∧ LiveOk held disk ∧
      disk.root.current.staging = none ∧
      disk.root.All (fun entries => entries.deleting = none) ∧
      disk.recovery.All (fun entries => entries.record = none ∨
        entries.record = some ⟨contents, .pendingSync .sessionsRoot⟩)
  | .loaded (some ⟨_, .pendingDelete stage⟩) => stage ≠ .sessionsRootSync ∧ none ∈ held ∧
      disk.root.All (fun entries => entries.live = none) ∧
      disk.recovery.All (fun entries => entries.record = none ∨
        ∃ contents, entries.record = some ⟨contents, .pendingDelete .liveRename⟩)

/-- The invariant, for a history of which `K` holds. -/
structure Inv (K : Held → Prop) (s : StoreState) : Prop where
  safe : ∀ verdict ∈ s.commit, verdict.isFailure = false
  sub : s.held ⊆ s.possible
  answers : ∀ answer ∈ s.answers, answer.1 ∈ answer.2 ∧ ∃ held, K held ∧ answer.1 ∈ held
  kind : K s.held
  memory : MemOk s.held s.disk s.memory

theorem LiveAt.covered (h : LiveAt n A disk) (hCover : Covered disk disk') : LiveAt n A disk' := by
  refine ⟨h.root.covers hCover.root ?_, Nat.lt_of_lt_of_le h.fresh hCover.next,
    h.dirs.covers (hCover.dirs n h.fresh) ?_⟩
  · intro entries entries' hEq hNames
    obtain ⟨hLive, hDeleting⟩ := Prod.mk.inj hEq
    exact ⟨hLive.trans hNames.1, hDeleting.trans hNames.2⟩
  · rintro dir dir' hFiles ⟨contents, hA, hHolds⟩
    exact ⟨contents, hA, holdsSession_of_files hFiles hHolds⟩

theorem With.covered {R : SessionDisk → Prop} (h : With R V disk) (hCover : Covered disk disk')
    (hR : R disk → R disk') : With R V disk' :=
  ⟨hR h.base, h.record.covers hCover.recovery (fun _ _ hEq hV => hEq ▸ hV)⟩

theorem Phase.covered (h : Phase n A V disk) (hCover : Covered disk disk') :
    Phase n A V disk' := With.covered h hCover (fun hLive => hLive.covered hCover)

/-- The records that go with a live session. -/
def PhaseRecord (held : Held) (password : PasswordRecord) (record : RecoveryRecord) : Prop :=
  (record.durability = .pendingSync .sessionDir ∧ some record.contents ∈ held ∧
      record.contents.Consistent ∧ record.contents.password = password) ∨
    (record.durability = .pendingDelete .liveRename ∧ none ∈ held) ∨
    (record.durability = .pendingSync .sessionsRoot ∧ some record.contents ∈ held ∧
      none ∈ held ∧ record.contents.Consistent)

theorem Phase.good {password : PasswordRecord} (h : Phase n A V disk)
    (hA : ∀ a, A a → some a ∈ held ∧ a.Consistent ∧ a.password = password)
    (hV : ∀ r, V (some r) → PhaseRecord held password r) : Good held disk := by
  have hLive : LiveIs held password disk := by
    refine h.base.root.mono fun entries hNames => ⟨n, hNames.1, hNames.2, h.base.fresh, ?_⟩
    refine h.base.dirs.mono ?_
    rintro dir ⟨a, ha, hHolds⟩
    obtain ⟨hHeld, hConsistent, hPassword⟩ := hA a ha
    exact ⟨a, hHeld, hConsistent, hPassword, hHolds⟩
  refine ⟨?_, ?_⟩
  · intro entries hMem
    obtain ⟨k, hk, hDeleting, hFresh, hDirs⟩ := hLive entries hMem
    refine ⟨fun hNone => ?_, fun m hm => ?_⟩
    · rw [hk] at hNone
      cases hNone
    · obtain rfl := Option.some.inj (hk.symm.trans hm)
      exact ⟨hDeleting, hFresh, hDirs.mono fun dir ⟨a, hHeld, hConsistent, _, hHolds⟩ =>
        .inl ⟨a, hHeld, hConsistent, hHolds⟩⟩
  · intro entries hMem record hRecord
    have hRecordV : V entries.record := h.record entries hMem
    rw [hRecord] at hRecordV
    obtain ⟨contents, durability⟩ := record
    rcases hV _ hRecordV with ⟨hDurability, hHeld, hConsistent, hPassword⟩ |
      ⟨hDurability, hNone⟩ | ⟨hDurability, hHeld, hNone, hConsistent⟩
    · cases hDurability
      exact ⟨hHeld, hConsistent, by rwa [hPassword]⟩
    · cases hDurability
      exact ⟨hNone, rfl⟩
    · cases hDurability
      exact ⟨hHeld, hNone, hConsistent, h.base.root.mono fun _ hNames => congrArg Prod.fst hNames.2⟩

theorem Fixed.covered (h : Fixed held disk) (hCover : Covered disk disk') : Fixed held disk' := by
  rcases h with hNone | ⟨n, shown, hLive, hFresh, hBroken, hHeld⟩ |
    ⟨n, contents, hHeld, hConsistent, hPhase⟩
  · exact .inl (hNone.covers hCover.root (fun _ _ hEq h => (congrArg Prod.fst hEq).trans h))
  · refine .inr (.inl ⟨n, shown, hLive.covers hCover.root
      (fun _ _ hEq h => (congrArg Prod.fst hEq).trans h), Nat.lt_of_lt_of_le hFresh hCover.next,
      hBroken.covers (hCover.dirs n hFresh) ?_, hHeld⟩)
    rintro dir dir' hFiles ⟨hShown, hDir⟩
    refine ⟨hFiles.trans hShown, fun overlay hOverlay => ?_⟩
    obtain ⟨hEqOverlay, hEqPassword⟩ := Prod.mk.inj hFiles
    rw [hEqPassword]
    exact hDir overlay (hEqOverlay ▸ hOverlay)
  · exact .inr (.inr ⟨n, contents, hHeld, hConsistent, hPhase.covered hCover⟩)

theorem FixedDeleting.covered (h : FixedDeleting disk) (hCover : Covered disk disk') :
    FixedDeleting disk' := by
  obtain ⟨dir, hDir⟩ := h
  exact ⟨dir, hDir.covers hCover.root (fun _ _ hEq h => (congrArg (·.2.1) hEq).trans h)⟩

theorem memOk_crash (h : Good held disk) (loss : Loss) :
    MemOk held (disk.crash loss) .unloaded := by
  have hGood := h.covered (covered_crash disk loss)
  have hRoot : ∀ P : RootEntries → Prop, P (disk.crash loss).root.settled →
      (disk.crash loss).root.All P := by
    intro P hP entries hMem
    rwa [mem_crash hMem]
  have hDirs : ∀ (n : Nat) (P : SessionDirectory → Prop), P ((disk.crash loss).dirs n).settled →
      ((disk.crash loss).dirs n).All P := by
    intro n P hP dir hMem
    rwa [mem_crash hMem]
  refine ⟨hGood, ?_, ⟨_, hRoot _ rfl⟩, ⟨(disk.crash loss).recovery.settled.record, ?_⟩⟩
  · have hLive := hGood.live.current
    cases hEntry : (disk.crash loss).root.settled.live with
    | none => exact .inl (hRoot _ hEntry)
    | some n =>
      obtain ⟨hDeleting, hFresh, hDir⟩ := hLive.2 n hEntry
      rcases hDir.current with ⟨contents, hHeld, hConsistent, hHolds⟩ | ⟨hNone, hBroken⟩
      · exact .inr (.inr ⟨n, contents, hHeld, hConsistent, ⟨hRoot _ ⟨hEntry, hDeleting⟩,
          hFresh, hDirs n _ ⟨contents, rfl, hHolds⟩⟩, fun _ _ => trivial⟩)
      · exact .inr (.inl ⟨n, _, hRoot _ hEntry, hFresh, hDirs n _ ⟨rfl, hBroken⟩, hNone⟩)
  · intro entries hMem
    rw [mem_crash hMem]
    rfl

/-! ## Programs on the disk -/

/-- The history and the memory stay, and the disk is as `P` says. -/
structure Frame (K : Held → Prop) (held : Held) (memory : Memory) (P : SessionDisk → Prop)
    (s : StoreState) : Prop where
  safe : ∀ verdict ∈ s.commit, verdict.isFailure = false
  sub : s.held ⊆ s.possible
  answers : ∀ answer ∈ s.answers, answer.1 ∈ answer.2 ∧ ∃ held, K held ∧ answer.1 ∈ held
  held : s.held = held
  memory : s.memory = memory
  disk : P s.disk
  kind : K s.held

/-- A program that works on the disk only. -/
abbrev Holds {α : Type} (env : DurabilityEnv) (K : Held → Prop) (held : Held) (memory : Memory)
    (P : SessionDisk → Prop) (x : StoreProg α) (Q : α → SessionDisk → Prop)
    (F : SessionDisk → Prop) : Prop :=
  Spec env (Inv K) (Frame K held memory P) x (fun a => Frame K held memory (Q a))
    (Frame K held memory F)

section Programs

variable {α β : Type} {env : DurabilityEnv} {K : Held → Prop} {held : Held} {memory : Memory}
  {P P' P'' F : SessionDisk → Prop} {Q : α → SessionDisk → Prop} {n : Nat}

variable {f : SessionDisk → SessionDisk} {x : StoreProg α} {slot : Slot}
  {T : β → StoreState → Prop} {S : StoreState → Prop}

theorem Frame.mono {s : StoreState} (h : Frame K held memory P s) (hP : ∀ disk, P disk → P' disk) :
    Frame K held memory P' s :=
  ⟨h.safe, h.sub, h.answers, h.held, h.memory, hP _ h.disk, h.kind⟩

theorem inv_crash {s : StoreState} (h : Frame K held memory P s)
    (hGood : ∀ disk, P disk → Good held disk) (loss : Loss) : Inv K (s.crash loss) := by
  refine ⟨fun verdict hMem => (List.not_mem_nil hMem).elim, h.sub, h.answers, h.kind, ?_⟩
  have := memOk_crash (hGood _ h.disk) loss
  rwa [← h.held] at this

theorem holds_stagingTick (hGood : ∀ disk, P disk → Good held disk) :
    Holds env K held memory P stagingTick (fun _ => P) P := by
  intro s hs
  unfold stagingTick
  split
  · rename_i hRun
    split at hRun <;> cases hRun <;>
      first | exact hs | exact ⟨hs.1, hs.2, hs.3, hs.4, hs.5, hs.6, hs.7⟩
  · rename_i hRun
    split at hRun <;> cases hRun
    exact ⟨hs.1, hs.2, hs.3, hs.4, hs.5, hs.6, hs.7⟩
  · rename_i hRun
    split at hRun <;> cases hRun
    exact inv_crash hs hGood _

theorem holds_commitTick (hGood : ∀ disk, P disk → Good held disk) :
    Holds env K held memory P commitTick (fun _ => P) F := by
  intro s hs
  have hSafe := hs.safe
  unfold commitTick
  cases hCommit : s.commit with
  | nil => exact hs
  | cons verdict rest =>
    rw [hCommit] at hSafe
    have hRest : ∀ v ∈ rest, v.isFailure = false := fun v hv => hSafe v (List.mem_cons_of_mem _ hv)
    cases verdict with
    | works => exact ⟨hRest, hs.2, hs.3, hs.4, hs.5, hs.6, hs.7⟩
    | fails => cases hSafe _ List.mem_cons_self
    | crashes loss => exact inv_crash hs hGood loss

theorem holds_changeDisk (h : ∀ disk, P disk → P' (f disk)) :
    Holds env K held memory P (changeDisk f) (fun _ => P') F :=
  fun _ hs => ⟨hs.1, hs.2, hs.3, hs.4, hs.5, h _ hs.6, hs.7⟩

theorem holds_pure {a : α} (h : ∀ disk, P disk → Q a disk) :
    Holds env K held memory P (pure a) Q F := fun _ hs => hs.mono h

theorem holds_fail {e : SessionError} (h : ∀ disk, P disk → F disk) :
    Holds env K held memory P (fail e) Q F := fun _ hs => hs.mono h

theorem holds_conseq {Q' : α → SessionDisk → Prop} {G : SessionDisk → Prop}
    (h : Holds env K held memory P x Q F) (hP : ∀ disk, P' disk → P disk)
    (hQ : ∀ a disk, Q a disk → Q' a disk) (hF : ∀ disk, F disk → G disk) :
    Holds env K held memory P' x Q' G :=
  spec_conseq h (fun _ hs => hs.mono hP) (fun a _ hs => hs.mono (hQ a)) (fun _ hs => hs.mono hF)

theorem holds_fact {φ : Prop} (h : φ → Holds env K held memory P x Q F) :
    Holds env K held memory (fun disk => P disk ∧ φ) x Q F :=
  fun s hs => h hs.disk.2 s (hs.mono fun _ hd => hd.1)

theorem holds_disk {f : SessionDisk → StoreProg α}
    (h : ∀ d, P d → Holds env K held memory (fun disk => P disk ∧ disk = d) (f d) Q F) :
    Holds env K held memory P (state (·.disk) >>= f) Q F :=
  fun s hs => h s.disk hs.disk s ⟨hs.1, hs.2, hs.3, hs.4, hs.5, ⟨hs.6, rfl⟩, hs.7⟩

theorem holds_attempt {G : SessionDisk → Prop} (h : Holds env K held memory P x Q F) :
    Holds env K held memory P (attempt x) (fun res disk =>
      match res with
      | .ok a => Q a disk
      | .error _ => F disk) G := by
  refine spec_conseq (spec_attempt h (G := Frame K held memory G)) (fun _ hs => hs) ?_
    (fun _ hs => hs)
  intro res s hs
  cases res with
  | ok a => exact hs
  | error e => exact hs

/-- What cannot fail goes on with its result. -/
theorem frame_then {next : α → StoreProg β} (h : Holds env K held memory P x Q fun _ => False)
    (hNext : ∀ a, Spec env (Inv K) (Frame K held memory (Q a)) (next a) T S) :
    Spec env (Inv K) (Frame K held memory P) (x >>= next) T S :=
  spec_bind (spec_conseq h (fun _ hs => hs) (fun _ _ hs => hs) fun _ hs => hs.disk.elim) hNext

theorem frame_sure {next : Except SessionError α → StoreProg β}
    (h : Holds env K held memory P x Q fun _ => False)
    (hNext : ∀ a, Spec env (Inv K) (Frame K held memory (Q a)) (next (.ok a)) T S) :
    Spec env (Inv K) (Frame K held memory P) (attempt x >>= next) T S := by
  refine frame_then (holds_attempt h) fun res => ?_
  cases res with
  | ok a => exact hNext a
  | error e => exact fun _ hs => hs.disk.elim

theorem holds_openOrCreate (hSlot : ∀ disk, P disk → disk.root.current.get slot = some n) :
    Holds env K held memory P (openOrCreate slot) (fun dir disk => P disk ∧ dir = n) F := by
  refine holds_disk fun d hd => ?_
  simp only [hSlot d hd]
  exact holds_pure (fun _ h => ⟨h.1, rfl⟩)

theorem holds_openExisting (hSlot : ∀ disk, P disk → disk.root.current.get slot = some n) :
    Holds env K held memory P (openExisting slot) (fun dir disk => P disk ∧ dir = n) F := by
  refine holds_disk fun d hd => ?_
  simp only [hSlot d hd]
  exact holds_pure (fun _ h => ⟨h.1, rfl⟩)

/-- Staging changes nothing that matters. -/
theorem holds_stageFile {file : SessionFile}
    (hSlot : ∀ disk, P disk → disk.root.current.get slot = some n)
    (hTmp : ∀ disk, P disk → P (disk.onDir n (change (setTmp file true))))
    (hSync : ∀ disk, P disk → P (disk.onDir n sync))
    (hGood : ∀ disk, P disk → Good held disk) :
    Holds env K held memory P (stageFile slot file) (fun _ => P) P := by
  refine spec_then (holds_stagingTick hGood) ?_
  refine spec_bind (holds_openOrCreate hSlot) fun dir => ?_
  refine holds_fact fun hDir => ?_
  subst hDir
  refine spec_then (holds_stagingTick hGood) ?_
  refine spec_then (holds_changeDisk hTmp) ?_
  refine spec_then (holds_stagingTick hGood) ?_
  refine spec_then (holds_stagingTick hGood) ?_
  refine spec_then (holds_stagingTick hGood) ?_
  refine spec_then (holds_stagingTick hGood) ?_
  exact holds_changeDisk hSync

theorem holds_syncDirectory (hGood : ∀ disk, P disk → Good held disk)
    (hSync : ∀ disk, P disk → P' (f disk)) :
    Holds env K held memory P (syncDirectory f) (fun _ => P') F :=
  spec_seq (holds_commitTick hGood) <| holds_changeDisk hSync

theorem holds_outcome (hGood : ∀ disk, P disk → Good held disk)
    (hSync : ∀ disk, P disk → P' (f disk)) :
    Holds env K held memory P (do
        let synced ← attempt (syncDirectory f)
        pure (outcome synced))
      (fun written disk => P' disk ∧ written = .durable) F := by
  exact frame_sure (holds_syncDirectory hGood hSync) fun _ => holds_pure (fun _ h => ⟨h, rfl⟩)

theorem holds_commitFile {file : SessionFile} {contents : Contents}
    (hSlot : ∀ disk, P disk → disk.root.current.get slot = some n)
    (hGood : ∀ disk, P disk → Good held disk)
    (hPut : ∀ disk, P disk → P' (disk.onDir n (change (put file
      contents)))) (hGood' : ∀ disk, P' disk → Good held disk)
    (hSync : ∀ disk, P' disk → P'' (disk.onDir n sync)) :
    Holds env K held memory P (commitFile slot file contents)
      (fun written disk => P'' disk ∧ written = .durable) F := by
  refine spec_bind (holds_openExisting hSlot) fun dir => ?_
  refine holds_fact fun hDir => ?_
  subst hDir
  refine spec_then (holds_commitTick hGood) ?_
  refine spec_then (holds_changeDisk hPut) ?_
  refine spec_then (holds_commitTick hGood') ?_
  exact holds_outcome hGood' hSync

/-! ## The recovery record -/

/-- The recovery directory does not matter. -/
def RecoveryFree (R : SessionDisk → Prop) : Prop := ∀ disk f, R disk → R (disk.onRecovery f)

variable {R : SessionDisk → Prop} {V V' : Option RecoveryRecord → Prop}

variable {disk : SessionDisk} {contents a b : Contents} {dir : Nat} {file : SessionFile}
  {Y : SessionDirectory → Prop}

/-- With the record as it stands. -/
def Showing (R : SessionDisk → Prop) (V : Option RecoveryRecord → Prop)
    (record : Option RecoveryRecord) (disk : SessionDisk) : Prop :=
  With R V disk ∧ disk.record = record

theorem With.mono (h : With R V disk) (hV : ∀ r, V r → V' r) :
    With R V' disk := ⟨h.base, h.record.mono (fun _ => hV _)⟩

theorem holds_stageRecord (hR : RecoveryFree R) (hGood : ∀ disk, With R V disk → Good held disk) :
    Holds env K held memory (With R V) stageRecord (fun _ => With R V) (With R V) := by
  have hTmp : ∀ disk, With R V disk → With R V (disk.onRecovery (change
      (fun entries => { entries with recordTmp := true }))) :=
    fun disk h => ⟨hR _ _ h.base, h.record.change h.record.current⟩
  refine spec_then (holds_stagingTick hGood) ?_
  refine spec_then (holds_stagingTick hGood) ?_
  refine spec_then (holds_changeDisk hTmp) ?_
  refine spec_then (holds_stagingTick hGood) ?_
  refine spec_then (holds_stagingTick hGood) ?_
  refine spec_then (holds_stagingTick hGood) ?_
  refine spec_then (holds_stagingTick hGood) ?_
  exact holds_changeDisk fun disk h => ⟨hR _ _ h.base, Delayed.All.sync_of h.record.current⟩

theorem holds_commitRecord {record : RecoveryRecord} (hR : RecoveryFree R)
    (hGood : ∀ disk, With R V disk → Good held disk)
    (hGood' : ∀ disk, With R (fun r => V r ∨ r = some record) disk → Good held disk) :
    Holds env K held memory (With R V) (commitRecord record)
      (fun written disk => With R (· = some record) disk ∧ written = .durable) F := by
  have hPut : ∀ disk, With R V disk → Showing R (fun r => V r ∨ r = some record) (some record)
      (disk.onRecovery (change (fun _ => ⟨some record, false⟩))) := by
    intro disk h
    refine ⟨⟨hR _ _ h.base, Delayed.All.change (h.record.mono fun _ hV => .inl hV) (.inr rfl)⟩, ?_⟩
    simp [SessionDisk.record]
  refine spec_then (holds_commitTick hGood) ?_
  refine spec_then (holds_changeDisk hPut) ?_
  refine spec_then (holds_commitTick fun disk h => hGood' disk h.1) ?_
  exact holds_outcome (fun disk h => hGood' disk h.1)
    fun disk h => ⟨hR _ _ h.1.base, Delayed.All.sync_of h.2⟩

theorem holds_persistRecoveryState {durability : SessionDurability} (hR : RecoveryFree R)
    (hGood : ∀ disk, With R V disk → Good held disk)
    (hGood' : ∀ disk, With R
    (fun r => V r ∨ r = some ⟨contents, durability⟩) disk → Good held disk) :
    Holds env K held memory (With R V) (persistRecoveryState contents durability)
      (fun _ => With R (· = some ⟨contents, durability⟩)) (With R V) := by
  refine spec_then (holds_stageRecord hR hGood) ?_
  refine spec_bind (holds_commitRecord hR hGood hGood') fun written => ?_
  refine holds_fact fun hWritten => ?_
  subst hWritten
  exact holds_pure (fun _ h => h)

theorem holds_clearRecoveryState (hR : RecoveryFree R)
    (hGood : ∀ disk, With R V disk → Good held disk)
    (hGood' : ∀ disk, With R (fun r => V r ∨ r = none) disk → Good held disk) :
    Holds env K held memory (With R V) clearRecoveryState (fun _ => With R (· = none)) F := by
  have hClear : ∀ disk, With R V disk → Showing R (fun r => V r ∨ r = none) none
      (disk.onRecovery (change (fun entries => { entries with record := none }))) := by
    intro disk h
    refine ⟨⟨hR _ _ h.base, Delayed.All.change (h.record.mono fun _ hV => .inl hV) (.inr rfl)⟩, ?_⟩
    simp [record]
  refine spec_then (holds_commitTick hGood) ?_
  refine spec_then (holds_changeDisk hClear) ?_
  exact holds_syncDirectory (fun disk h => hGood' disk h.1)
    fun disk h => ⟨hR _ _ h.1.base, Delayed.All.sync_of h.2⟩

/-- The record is armed, or the attempt leaves none. -/
theorem holds_arm {durability : SessionDurability} (hR : RecoveryFree R)
    (hGood : ∀ disk, With R (· = none) disk → Good held disk)
    (hGood' : ∀ disk, With R (fun r => r = none ∨ r = some ⟨contents, durability⟩) disk → Good held
      disk) :
    Holds env K held memory (With R (· = none)) (armPreLiveRecoveryState contents durability)
      (fun _ => With R (· = some ⟨contents, durability⟩)) (With R (· = none)) := by
  refine spec_bind (holds_attempt (holds_persistRecoveryState hR hGood hGood')) fun res => ?_
  cases res with
  | ok _ => exact holds_pure (fun _ h => h)
  | error e =>
    exact frame_sure (holds_clearRecoveryState hR hGood
      (fun disk h => hGood disk (h.mono (by rintro r (rfl | rfl) <;> rfl))))
      fun _ => holds_fail (fun _ h => h)

/-! ## Writes of live files -/

theorem holds_removeTmp (hGood : ∀ disk, P disk → Good held disk)
    (hTmp : ∀ disk, P disk → P (disk.onDir dir (change (setTmp file false)))) :
    Holds env K held memory P (removeTmp dir file) (fun _ => P) F :=
  spec_seq (holds_commitTick hGood) <| holds_changeDisk hTmp

theorem holds_removeLiveTmp (hGood : ∀ disk, P disk → Good held disk)
    (hTmp : ∀ dir disk, P disk → P (disk.onDir dir (change (setTmp file false)))) :
    Holds env K held memory P (removeLiveTmp file) (fun _ => P) F := by
  refine holds_disk fun d _ => ?_
  refine holds_conseq (P := P) ?_ (fun _ h => h.1) (fun _ _ h => h) (fun _ h => h)
  split
  · exact holds_removeTmp hGood (hTmp _)
  · exact holds_commitTick hGood

theorem recoveryFree_liveAt (n : Nat) (A : Contents → Prop) : RecoveryFree (LiveAt n A) :=
  fun _ _ h => ⟨h.root, h.fresh, h.dirs⟩

theorem holdsSession_put {dir : SessionDirectory} (hPassword : b.password = a.password)
    (hFile : file = .password → b = a) (h : HoldsSession a dir) :
    HoldsSession b (dir.put file b) := by
  cases file with
  | overlay =>
    refine ⟨rfl, ?_⟩
    rw [hPassword]
    exact h.2
  | password =>
    obtain rfl := hFile rfl
    exact ⟨h.1, .inl rfl⟩

/-- The live directory between two states of the session, with the second one in view. -/
structure PutAt (n : Nat) (a b : Contents) (disk : SessionDisk) : Prop where
  live : LiveAt n (fun contents => contents = a ∨ contents = b) disk
  current : HoldsSession b (disk.dirs n).current

theorem LiveAt.put (h : LiveAt n (· = a) disk) (hPassword : b.password = a.password)
    (hFile : file = .password → b = a) :
    PutAt n a b (disk.onDir n (change (put file b))) := by
  obtain ⟨_, rfl, hHolds⟩ := h.dirs.current
  have hPut := holdsSession_put hPassword hFile hHolds
  refine ⟨⟨h.root, h.fresh, ?_⟩, ?_⟩
  · rw [dirs_onDir_self]
    exact Delayed.All.change (h.dirs.mono fun _ ⟨c, hc, hHolds⟩ => ⟨c, .inl hc, hHolds⟩)
      ⟨b, .inr rfl, hPut⟩
  · rw [dirs_onDir_self, current_change]
    exact hPut

theorem PutAt.sync (h : PutAt n a b disk) : LiveAt n (· = b) (disk.onDir n sync) := by
  refine ⟨h.live.root, h.live.fresh, ?_⟩
  rw [dirs_onDir_self]
  exact Delayed.All.sync_of ⟨b, rfl, h.current⟩

/-- A state of the session that the disk may hold. -/
def IsHeld (held : Held) (contents : Contents) : Prop :=
  some contents ∈ held ∧ contents.Consistent

theorem Phase.good_eq (h : Phase n (· = a) V disk) (ha : IsHeld held a)
    (hV : ∀ r, V (some r) → PhaseRecord held a.password r) :
    Good held disk :=
  Phase.good h (fun _ hc => by subst hc; exact ⟨ha.1, ha.2, rfl⟩) hV

theorem good_putAt (h : With (PutAt n a b) V disk) (ha : IsHeld held a) (hb : IsHeld held b)
    (hPassword : b.password = a.password) (hV : ∀ r, V (some r) → PhaseRecord held a.password r) :
    Good held disk := by
  have hEither : ∀ c, (c = a ∨ c = b) → some c ∈ held ∧ c.Consistent ∧ c.password = a.password := by
    rintro c (rfl | rfl)
    · exact ⟨ha.1, ha.2, rfl⟩
    · exact ⟨hb.1, hb.2, hPassword⟩
  exact Phase.good ⟨h.base.live, h.record⟩ hEither hV

theorem phaseRecord_sessionDir {password : PasswordRecord} (h : IsHeld held contents)
    (hPassword : contents.password = password) :
    PhaseRecord held password ⟨contents, .pendingSync .sessionDir⟩ :=
  .inl ⟨rfl, h.1, h.2, hPassword⟩

theorem liveSlot (h : Phase n A V disk) :
    disk.root.current.get .live = some n := h.base.root.current.1

/-- A file of a live session is written with a record that covers the write. -/
theorem holds_commitLive (ha : IsHeld held a) (hb : IsHeld held b)
    (hPassword : b.password = a.password) (hFile : file = .password → b = a)
    (hV : ∀ r, V (some r) → PhaseRecord held a.password r) :
    Holds env K held memory (Phase n (· = a) V) (commitFile .live file b)
      (fun written disk => Phase n (· = b) V disk ∧ written = .durable) F := by
  have hPut : ∀ disk, Phase n (· = a) V disk → With (PutAt n a b) V
      (disk.onDir n (change (put file b))) :=
    fun _ h => ⟨h.base.put hPassword hFile, h.record⟩
  exact holds_commitFile (fun _ h => liveSlot h) (fun _ h => h.good_eq ha hV) hPut
    (fun _ h => good_putAt h ha hb hPassword hV) (fun _ h => ⟨h.base.sync, h.record⟩)

theorem holds_stageLive (ha : IsHeld held a) (hV : ∀ r, V
    (some r) → PhaseRecord held a.password r) :
    Holds env K held memory (Phase n (· = a) V) (stageFile .live file)
      (fun _ => Phase n (· = a) V) (Phase n (· = a) V) :=
  holds_stageFile (fun _ h => liveSlot h)
    (fun disk h => Phase.covered h (quiet_setTmp disk n file true).toCovered)
    (fun disk h => Phase.covered h (quiet_syncDir disk n).toCovered)
    (fun _ h => h.good_eq ha hV)

theorem holds_completeSuccess (hb : IsHeld held b)
    (hV : ∀ r, V (some r) → PhaseRecord held b.password r) (pending : PendingDirectorySync) :
    Holds env K held memory (Phase n (· = b) V) (completeSuccess (.pendingSync pending))
      (fun settled disk => Phase n (· = b) (· = none) disk ∧ settled = (.ok (), .clean)) F := by
  refine frame_sure (holds_clearRecoveryState (recoveryFree_liveAt n _)
    (fun _ h => Phase.good_eq h hb hV) (fun _ h => Phase.good_eq h hb ?_))
    fun _ => holds_pure (fun _ h => ⟨h, rfl⟩)
  rintro r (hr | hr)
  · exact hV r hr
  · cases hr

theorem holds_writeWithRecovery {durability : SessionDurability} (ha : IsHeld held a)
    (hb : IsHeld held b) (hPassword : b.password = a.password) (hFile : file = .password → b = a) :
    Holds env K held memory (Phase n (· = a) (· = none)) (writeWithRecovery durability file b)
      (fun written disk =>
        (written = .applied (.ok ()) .clean ∧ Phase n (· = b) (· = none) disk) ∨
          ((∃ e, written = .aborted e durability) ∧ Phase n (· = a) (· = none) disk)) F := by
  have hNone : ∀ r : RecoveryRecord, some r = none → PhaseRecord held a.password r :=
    fun r hr => by cases hr
  have hSome : ∀ r : RecoveryRecord, some r = some ⟨b, .pendingSync .sessionDir⟩ →
      PhaseRecord held a.password r := by
    intro r hr
    obtain rfl := Option.some.inj hr
    exact phaseRecord_sessionDir hb hPassword
  refine spec_bind (holds_attempt (holds_stageLive ha hNone)) fun res => ?_
  cases res with
  | error e => exact holds_pure (fun _ h => .inr ⟨⟨e, rfl⟩, h⟩)
  | ok _ =>
    refine spec_bind (holds_attempt (holds_arm (recoveryFree_liveAt n _)
      (fun _ h => Phase.good_eq h ha hNone) (fun _ h => Phase.good_eq h ha ?_))) fun res => ?_
    · rintro r (hr | hr)
      · exact hNone r hr
      · exact hSome r hr
    · cases res with
      | error e =>
        refine holds_disk fun d _ => ?_
        refine holds_conseq (P := Phase n (· = a) (· = none)) ?_ (fun _ h => h.1) (fun _ _ h => h)
          (fun _ h => h)
        refine spec_ite (fun _ => ?_) (fun _ => holds_pure (fun _ h => .inr ⟨⟨e, rfl⟩, h⟩))
        exact frame_sure (holds_removeLiveTmp (fun _ h => Phase.good_eq h ha hNone)
          (fun dir disk h => Phase.covered h (quiet_setTmp disk dir file false).toCovered))
          fun _ => holds_pure (fun _ h => .inr ⟨⟨e, rfl⟩, h⟩)
      | ok _ =>
        refine frame_sure (holds_commitLive ha hb hPassword hFile hSome) fun written =>
          holds_fact fun hWritten => ?_
        subst hWritten
        refine spec_bind (holds_completeSuccess hb (hPassword ▸ hSome) .sessionDir)
          fun settled => ?_
        refine holds_fact fun hSettled => ?_
        subst hSettled
        exact holds_pure (fun _ h => .inl ⟨rfl, h⟩)

/-! ## Directories that come and go -/

theorem holds_ask {f : DurabilityEnv → StoreProg α} (h : Holds env K held memory P (f env) Q F) :
    Holds env K held memory P (ask >>= f) Q F := h

theorem holds_exists {ι : Type} {G : ι → SessionDisk → Prop}
    (h : ∀ i, Holds env K held memory (G i) x Q F) :
    Holds env K held memory (fun disk => ∃ i, G i disk) x Q F := by
  intro s hs
  obtain ⟨i, hi⟩ := hs.disk
  exact h i s ⟨hs.1, hs.2, hs.3, hs.4, hs.5, hi, hs.7⟩

theorem LiveOk.onDir {f : SessionDirectory → SessionDirectory} (h : LiveOk held disk) (dir : Nat)
    (hf : ∀ entries, DirOk held entries → DirOk held (f entries)) :
    LiveOk held (disk.onDir dir (change f)) := by
  refine h.mono fun entries hEntries => ⟨hEntries.1, fun k hk => ?_⟩
  obtain ⟨hDeleting, hFresh, hDirs⟩ := hEntries.2 k hk
  refine ⟨hDeleting, hFresh, ?_⟩
  simp only [SessionDisk.onDir]
  split
  · exact hDirs.change (hf _ hDirs.current)
  · exact hDirs

theorem LiveOk.onDir_other {f : Delayed SessionDirectory → Delayed SessionDirectory}
    (h : LiveOk held disk) (hOther : disk.root.All (fun entries => entries.live ≠ some dir)) :
    LiveOk held (disk.onDir dir f) := by
  intro entries hMem
  obtain ⟨hNone, hSome⟩ := h entries hMem
  refine ⟨hNone, fun k hk => ?_⟩
  obtain ⟨hDeleting, hFresh, hDirs⟩ := hSome k hk
  have hNe : k ≠ dir := fun hEq => hOther entries hMem (hEq ▸ hk)
  exact ⟨hDeleting, hFresh, by rwa [dirs_onDir_other hNe]⟩

theorem LiveOk.onRoot {f : RootEntries → RootEntries} (h : LiveOk held disk)
    (hf : (f disk.root.current).live = none) (hNone : none ∈ held) :
    LiveOk held (disk.onRoot (change f)) := by
  refine Delayed.All.change h ⟨fun _ => hNone, fun k hk => ?_⟩
  rw [hf] at hk
  cases hk

theorem LiveOk.clash (h : LiveOk held disk) : clash disk.root.current = false := by
  cases hLive : disk.root.current.live with
  | none => simp [Durability.clash, hLive]
  | some n => exact congrArg Prod.snd (h.current.2 n hLive).1

theorem LiveOk.fresh (h : LiveOk held disk) : disk.root.current.live ≠ some disk.nextDir :=
  fun hLive => Nat.lt_irrefl _ (h.current.2 _ hLive).2.1

theorem holds_unlinkFile (hGood : ∀ disk, P disk → Good held disk)
    (hUnlink : ∀ disk, P disk → P (disk.onDir dir (change
    (unlink file)))) :
    Holds env K held memory P (unlinkFile dir file) (fun _ => P) F :=
  spec_seq (holds_commitTick hGood) <| holds_changeDisk hUnlink

theorem holds_removeDirAll (hGood : ∀ disk, P disk → Good held disk)
    (hUnlink : ∀ dir file disk, P disk → disk.root.current.get slot = some dir → P (disk.onDir dir
      (change (unlink file))))
    (hTmp : ∀ dir file disk, P disk → P (disk.onDir dir (change (setTmp file false))))
    (hDrop : ∀ disk, P disk → P' (disk.onRoot (change (set slot none))))
    (hStay : ∀ disk, P disk → disk.root.current.get slot = none → P' disk) :
    Holds env K held memory P (removeDirAll slot) (fun _ => P') F := by
  refine holds_ask (holds_disk fun d hd => ?_)
  cases hSlot : d.root.current.get slot with
  | none =>
    exact holds_conseq (holds_commitTick (fun disk h => hGood disk h.1)) (fun _ h => h)
      (fun _ disk h => hStay disk h.1 (h.2 ▸ hSlot)) (fun _ h => h)
  | some dir =>
    refine holds_conseq (P := fun disk => P disk ∧ disk.root.current.get slot = some dir) ?_
      (fun _ h => ⟨h.1, h.2 ▸ hSlot⟩) (fun _ _ h => h) (fun _ h => h)
    have hGoodAt : ∀ disk, P disk ∧ disk.root.current.get slot = some dir → Good held disk :=
      fun disk h => hGood disk h.1
    refine spec_then (holds_unlinkFile hGoodAt fun d h => ⟨hUnlink dir _ d h.1 h.2, h.2⟩)
      ?_
    refine spec_then (holds_unlinkFile hGoodAt fun d h => ⟨hUnlink dir _ d h.1 h.2, h.2⟩)
      ?_
    refine spec_then (holds_removeTmp hGoodAt fun d h => ⟨hTmp dir _ d h.1, h.2⟩) ?_
    refine spec_then (holds_removeTmp hGoodAt fun d h => ⟨hTmp dir _ d h.1, h.2⟩) ?_
    refine spec_then (holds_commitTick hGoodAt) ?_
    exact holds_changeDisk fun disk h => hDrop disk h.1

/-! ## New sessions -/

/-- No live session is needed, and no quarantine is in the way. -/
structure Open (held : Held) (disk : SessionDisk) : Prop where
  live : LiveOk held disk
  deleting : disk.root.All (fun entries => entries.deleting = none)

/-- The records that need no live session. -/
def OpenRecord (held : Held) (record : RecoveryRecord) : Prop :=
  record.durability = .pendingSync .sessionsRoot ∧ some record.contents ∈ held ∧
    record.contents.Consistent

theorem openRecord_sessionsRoot {c : Contents} (hc : IsHeld held c) (r : RecoveryRecord)
    (hr : some r = some ⟨c, .pendingSync .sessionsRoot⟩) : OpenRecord held r := by
  obtain rfl := Option.some.inj hr
  exact ⟨rfl, hc⟩

theorem good_open (h : With (Open held) V disk) (hNone : none ∈ held)
    (hV : ∀ r, V (some r) → OpenRecord held r) : Good held disk := by
  refine ⟨h.base.live, fun entries hMem record hRecord => ?_⟩
  have hRecordV : V entries.record := h.record entries hMem
  rw [hRecord] at hRecordV
  obtain ⟨contents, durability⟩ := record
  obtain ⟨hDurability, hHeld, hConsistent⟩ := hV _ hRecordV
  cases hDurability
  exact ⟨hHeld, hNone, hConsistent, h.base.deleting⟩

theorem Open.covered (h : Open held disk) (hCover : Covered disk disk') :
    Open held disk' :=
  ⟨h.live.covered hCover, h.deleting.covers hCover.root
    (fun _ _ hEq hDeleting => (congrArg (·.2.1) hEq).trans hDeleting)⟩

theorem Open.with_covered (h : With (Open held) V disk) (hCover : Covered disk disk') :
    With (Open held) V disk' :=
  With.covered h hCover (fun hOpen => hOpen.covered hCover)

/-- A name is removed while no live session is needed. -/
theorem holds_removeOpen (slot : Slot) (hSlot : slot ≠ .deleting) (hNone : none ∈ held)
    (hV : ∀ r, V (some r) → OpenRecord held r) :
    Holds env K held memory (With (Open held) V) (removeDirAll slot)
      (fun _ disk => With (Open held) V disk ∧ disk.root.current.get slot = none) F := by
  refine holds_removeDirAll (fun _ h => good_open h hNone hV)
    (fun dir file disk h _ => ⟨⟨h.base.live.onDir dir (fun _ => dirOk_unlink hNone file),
      h.base.deleting⟩, h.record⟩)
    (fun dir file disk h => Open.with_covered h (quiet_setTmp disk dir file false).toCovered)
    (fun disk h => ?_) (fun disk h hStay => ⟨h, hStay⟩)
  cases slot with
  | live =>
    refine ⟨⟨⟨h.base.live.onRoot rfl hNone, h.base.deleting.change h.base.deleting.current⟩,
      h.record⟩, ?_⟩
    simp
  | staging =>
    refine ⟨Open.with_covered h (quiet_dropStaging h.base.live.clash).toCovered, ?_⟩
    simp
  | deleting => exact (hSlot rfl).elim

/-- A directory is being filled under the staging name. -/
structure StagedAt (held : Held) (n : Nat) (Y : SessionDirectory → Prop) (disk : SessionDisk) :
    Prop extends Open held disk where
  staging : disk.root.current.staging = some n
  other : disk.root.All (fun entries => entries.live ≠ some n)
  fresh : n < disk.nextDir
  current : Y (disk.dirs n).current

/-- The same for everything that a crash may leave of the directory. -/
structure StagedFor (held : Held) (n : Nat) (Y : SessionDirectory → Prop) (disk : SessionDisk) :
    Prop extends Open held disk where
  staging : disk.root.current.staging = some n
  other : disk.root.All (fun entries => entries.live ≠ some n)
  fresh : n < disk.nextDir
  dirs : (disk.dirs n).All Y

theorem StagedFor.toStagedAt (h : StagedFor held n Y disk) : StagedAt held n Y disk :=
  ⟨h.toOpen, h.staging, h.other, h.fresh, h.dirs.current⟩

theorem StagedAt.onDir {Z : SessionDirectory → Prop}
    {f : Delayed SessionDirectory → Delayed SessionDirectory} (h : StagedAt held n Y disk)
    (hf : Z (f (disk.dirs n)).current) : StagedAt held n Z (disk.onDir n f) := by
  refine ⟨⟨h.live.onDir_other h.other, h.deleting⟩, h.staging, h.other, h.fresh, ?_⟩
  rwa [dirs_onDir_self]

theorem StagedAt.sync (h : StagedAt held n Y disk) : StagedFor held n Y (disk.onDir n sync) := by
  refine ⟨⟨h.live.onDir_other h.other, h.deleting⟩, h.staging, h.other, h.fresh, ?_⟩
  rw [dirs_onDir_self]
  exact Delayed.All.sync_of h.current

theorem StagedAt.mono {Z : SessionDirectory → Prop} (h : StagedAt held n Y disk)
    (hYZ : ∀ dir, Y dir → Z dir) : StagedAt held n Z disk :=
  ⟨h.toOpen, h.staging, h.other, h.fresh, hYZ _ h.current⟩

theorem holds_createStaging :
    Holds env K held memory (fun disk => With (Open held) V disk ∧ disk.root.current.staging = none)
      (openOrCreate .staging)
      (fun _ disk => ∃ k, With (StagedAt held k (fun _ => True)) V disk) F := by
  refine holds_disk fun d hd => ?_
  have hSlot : d.root.current.get .staging = none := hd.2
  simp only [hSlot]
  refine spec_seq (holds_changeDisk fun disk h => ?_) <| holds_pure (fun _ h => h)
  have hCover := (quiet_createStaging h.1.1.base.live.clash h.1.1.base.live.fresh).toCovered
  refine ⟨disk.nextDir, ⟨h.1.1.base.covered hCover, ?_, ?_, Nat.lt_succ_self _, trivial⟩,
    h.1.1.record.covers hCover.recovery (fun _ _ hEq hV => hEq ▸ hV)⟩
  · simp [create]
  · have hOther : ∀ entries : RootEntries, (entries.live = none → none ∈ held) ∧
        (∀ n, entries.live = some n →
        beside entries = (none, false) ∧ n < disk.nextDir ∧ (disk.dirs n).All (DirOk held)) →
        entries.live ≠ some disk.nextDir := by
      intro entries hEntries hLive
      exact Nat.lt_irrefl _ (hEntries.2 _ hLive).2.1
    exact Delayed.All.change (h.1.1.base.live.mono hOther) h.1.1.base.live.fresh

theorem holds_requireDurable {written : PersistenceOutcome} :
    Holds env K held memory (fun disk => P disk ∧ written = .durable)
      (requireDurablePersistence written) (fun _ => P) F := by
  refine holds_fact fun hWritten => ?_
  subst hWritten
  exact holds_pure (fun _ h => h)

section Staged

variable (hNone : none ∈ held) (hV : ∀ r, V (some r) → OpenRecord held r)
include hNone hV

theorem good_staged (h : With (StagedAt held n Y) V disk) : Good held disk :=
  good_open ⟨h.base.toOpen, h.record⟩ hNone hV

theorem holds_atomicWrite_staging {Z : SessionDirectory → Prop} (file : SessionFile)
    (hY : ∀ dir, Y dir → Y (dir.setTmp file true)) (hPut : ∀ dir, Y dir → Z
    (dir.put file contents)) :
    Holds env K held memory (With (StagedAt held n Y) V) (atomicWrite .staging file contents)
      (fun written disk => With (StagedFor held n Z) V disk ∧ written = .durable)
      (With (StagedAt held n Y) V) := by
  have hGood : ∀ disk, With (StagedAt held n Y) V disk → Good held disk :=
    fun _ h => good_staged hNone hV h
  have hTmp : ∀ disk, With (StagedAt held n Y) V disk → With (StagedAt held n Y) V
      (disk.onDir n (change (setTmp file true))) := by
    intro disk h
    refine ⟨h.base.onDir ?_, h.record⟩
    rw [current_change]
    exact hY _ h.base.current
  have hWrite : ∀ disk, With (StagedAt held n Y) V disk → With (StagedAt held n Z) V
      (disk.onDir n (change (put file contents))) := by
    intro disk h
    refine ⟨h.base.onDir ?_, h.record⟩
    rw [current_change]
    exact hPut _ h.base.current
  refine spec_then (holds_stageFile (fun _ h => h.base.staging) hTmp
    (fun disk h => ⟨h.base.onDir h.base.current, h.record⟩) hGood) ?_
  exact holds_commitFile (fun _ h => h.base.staging) hGood hWrite
    (fun _ h => good_staged hNone hV h) (fun disk h => ⟨h.base.sync, h.record⟩)

theorem holds_stageNewSession :
    Holds env K held memory (With (Open held) V) (stageNewSession contents)
      (fun _ disk => ∃ k, With (StagedFor held k (HoldsSession contents)) V disk)
      (fun disk => With (Open held) V disk ∧ disk.root.current.staging = none) := by
  refine holds_disk fun d _ => ?_
  have hClean : Holds env K held memory (fun disk => With (Open held) V disk ∧ disk = d)
      (onlyIf d.root.current.staging.isSome (removeDirAll .staging))
      (fun _ disk => With (Open held) V disk ∧ disk.root.current.staging = none)
      (fun disk => With (Open held) V disk ∧ disk.root.current.staging = none) := by
    refine spec_ite (fun _ => ?_) (fun hNot => holds_pure fun disk h => ?_)
    · exact holds_conseq (holds_removeOpen _ (by decide) hNone hV) (fun _ h => h.1) (fun _ _ h => h)
        (fun _ h => h)
    · refine ⟨h.1, ?_⟩
      rw [h.2]
      simpa using hNot
  refine spec_bind hClean fun _ => ?_
  refine spec_bind (holds_stagingTick (fun disk h => good_open h.1 hNone hV)) fun _ => ?_
  refine spec_bind holds_createStaging fun _ => ?_
  refine holds_exists fun k => ?_
  have hWrites : Holds env K held memory (With (StagedAt held k (fun _ => True)) V) (do
      requireDurablePersistence (← atomicWrite .staging .password contents)
      requireDurablePersistence (← atomicWrite .staging .overlay contents))
      (fun _ => With (StagedFor held k (HoldsSession contents)) V)
      (With (StagedAt held k (fun _ => True)) V) := by
    refine spec_bind (holds_atomicWrite_staging hNone hV .password (fun _ _ => trivial)
      (fun _ _ => rfl)
      (Z := fun dir => dir.password = some contents.password)) fun _ => ?_
    refine spec_bind holds_requireDurable fun _ => ?_
    refine spec_bind (holds_conseq (holds_atomicWrite_staging hNone hV .overlay
      (Y := fun dir => dir.password = some contents.password)
      (Z := HoldsSession contents) (fun _ h => h) (fun _ h => ⟨rfl, .inl h⟩))
      (fun _ h => ⟨h.base.toStagedAt, h.record⟩) (fun _ _ h => h)
      (fun _ h => ⟨h.base.mono fun _ _ => trivial, h.record⟩)) fun _ => ?_
    exact holds_requireDurable
  refine spec_bind (holds_attempt hWrites) fun res => ?_
  cases res with
  | ok _ => exact holds_pure (fun _ h => ⟨k, h⟩)
  | error e =>
    exact frame_sure (holds_conseq (holds_removeOpen .staging (by decide) hNone hV)
      (fun _ h => ⟨h.base.toOpen, h.record⟩) (fun _ _ h => h) (fun _ h => h))
      fun _ => holds_fail (fun _ h => h)

end Staged

variable {contents : Contents}

/-- The new directory is live, and the directory of the sessions is not synced. -/
structure MovedTo (held : Held) (n : Nat) (contents : Contents) (disk : SessionDisk) :
    Prop extends Open held disk where
  moved : disk.root.current.live = some n
  apart : beside disk.root.current = (none, false)
  fresh : n < disk.nextDir
  dirs : (disk.dirs n).All (HoldsSession contents)

theorem StagedFor.move (h : StagedFor held n (HoldsSession contents) disk)
    (hHeld : IsHeld held contents) :
    MovedTo held n contents (disk.onRoot (change
      (fun entries => { entries with live := some n, staging := none }))) := by
  have hApart : beside { disk.root.current with live := some n, staging := none } =
      (none, false) := by
    simp [beside, clash, h.deleting.current]
  refine ⟨⟨?_, h.deleting.change h.deleting.current⟩, ?_, ?_, h.fresh, h.dirs⟩
  · refine Delayed.All.change h.live ⟨(fun hNone => by cases hNone), fun k hk => ?_⟩
    obtain rfl := Option.some.inj hk
    exact ⟨hApart, h.fresh, h.dirs.mono fun _ hHolds => .inl ⟨contents, hHeld.1, hHeld.2, hHolds⟩⟩
  · simp
  · simpa using hApart

theorem MovedTo.sync (h : MovedTo held n contents disk) :
    LiveAt n (· = contents) (disk.onRoot sync) :=
  ⟨Delayed.All.sync_of ⟨h.moved, h.apart⟩, h.fresh,
    h.dirs.mono fun _ hHolds => ⟨contents, rfl, hHolds⟩⟩

theorem holds_commitNewSession (hHeld : IsHeld held contents) (hNone : none ∈ held)
    (hV : ∀ r, V (some r) → OpenRecord held r) :
    Holds env K held memory (With (StagedFor held n (HoldsSession contents)) V) commitNewSession
      (fun written disk => Phase n (· = contents) V disk ∧ written = .durable) F := by
  refine spec_bind (holds_openExisting fun _ h => h.base.staging) fun dir => ?_
  refine holds_fact fun hDir => ?_
  subst hDir
  refine spec_then (holds_commitTick fun _ h => good_open ⟨h.base.toOpen, h.record⟩ hNone hV)
    ?_
  have hMove : ∀ disk, With (StagedFor held dir (HoldsSession contents)) V disk →
      With (MovedTo held dir contents) V (disk.onRoot (change
        (fun entries => { entries with live := some dir, staging := none }))) :=
    fun _ h => ⟨h.base.move hHeld, h.record⟩
  refine spec_then (holds_changeDisk hMove) ?_
  exact holds_outcome (fun _ h => good_open ⟨h.base.toOpen, h.record⟩ hNone hV)
    (fun _ h => ⟨h.base.sync, h.record⟩)

end Programs

end FabricFs.Session.Durability
