import FabricFs.Lib.Runs
import FabricFs.Overlay.Guard
import FabricFs.Overlay.Samples

/-!
# The backing tree under a copy-on-write mount

With a copy-on-write root every change goes to that root or to the alias root. Every request
keeps the invariant `Guarded` of the backing tree.

* `backing_untouched_run`: in every run in which files are opened and ACLs are set on paths
  that are no links, on a mount that does not allow permission updates of backing objects,
  the backing tree and all inodes in it stay as they are.
* `fchmod_reaches_backing`: a mount that does allow them changes the mode of a backing file
  through a handle that was opened for reading.
-/

namespace FabricFs.Overlay

open Lib Lib.Prog Server

section Requests

variable {env : Env} {fs₀ : HostFs} {S : Set Path} {loc : Loc} {rel : Path}

/-! ## Targets -/

section Targets

variable (hCow : env.layout.cowRoot = true)

include hCow

/-- An object that a path stands for and that is no link. -/
theorem guarded_ensureNotSymlink :
    Triple env (fun w => Guarded fs₀ ∅ w ∧ resolve env w.fs rel = some loc) (ensureNotSymlink loc)
      (fun _ => Copyable fs₀ {rel} rel) (Guarded fs₀ ∅) := by
  have hU : Untimed (fun w => Guarded fs₀ ∅ w ∧ resolve env w.fs rel = some loc) :=
    fun w n hw => ⟨untimed_guarded w n hw.1, hw.2⟩
  refine triple_bind ((triple_symlinkMetadata hU loc).weaken (fun _ hw => hw.1)) (fun info => ?_)
  refine (triple_ensure (fun _ hw => hw.1.1)).post ?_
  rintro _ w ⟨⟨⟨hw, hRes⟩, node, hNode, rfl⟩, hk⟩
  have hKind : node.kind ≠ .symlink := by simpa [HostFs.metaOf] using hk
  obtain ⟨-, ⟨-, rfl, -⟩ | ⟨-, rfl, -, hNone⟩⟩ := resolve_eq_some.mp hRes
  · refine ⟨hw.single fun found hFound => ?_, fun _ hNone => ?_⟩
    · rw [hNode] at hFound
      cases hFound
      exact hKind
    · rw [hNode] at hNone
      cases hNone
  · refine ⟨hw.single fun found hFound => ?_, fun _ _ found hFound => ?_⟩
    · rw [hNone hCow] at hFound
      cases hFound
    · rw [← hw.get_backing, hNode] at hFound
      cases hFound
      exact hKind

omit hCow in
theorem noLink_self : NoLink {rel} ⟨.cow, rel⟩ := .inr ⟨rfl, rfl⟩

theorem guarded_prepareFileForWrite :
    Triple env (Copyable fs₀ {rel} rel) (prepareFileForWrite rel)
      (fun loc w => Guarded fs₀ {rel} w ∧ loc = ⟨.cow, rel⟩) (Guarded fs₀ {rel}) := by
  refine triple_ask (triple_seq (keeps_ensureWritable.weaken fun _ hw => hw.1) <|
    triple_then (keeps_ensureBackingMutable.weaken fun _ hw => hw.1) ?_)
  rw [if_pos hCow]
  refine triple_seq guarded_copyUpFile <| triple_seq (keeps_probe _) <|
    triple_seq (keeps_ensure _ _) <|
    triple_then (guarded_clearTombstone rel) ?_
  exact triple_pure (fun w hw => ⟨hw, rfl⟩)

theorem guarded_materializeForWrite :
    Triple env (Copyable fs₀ {rel} rel) (materializeForWrite rel)
      (fun loc w => Guarded fs₀ {rel} w ∧ loc = ⟨.cow, rel⟩) (Guarded fs₀ {rel}) := by
  refine triple_ask (triple_seq (keeps_ensureWritable.weaken fun _ hw => hw.1) <|
    triple_then (keeps_ensureBackingMutable.weaken fun _ hw => hw.1) ?_)
  rw [if_pos hCow]
  refine triple_seq (guarded_copyUpTree fun t ht => ?_) <|
    triple_seq (guarded_clearTombstone rel) (triple_pure (fun w hw => ⟨hw, rfl⟩))
  simpa using ht

end Targets

/-! ## Handles -/

theorem guarded_allocateHandle {path : Path} {kind : HandleKind} {bits : Nat} {blocked : Bool}
    {file : Option Node}
    (h : kind = .file → ∀ node, file = some node → Backed fs₀ node.ino →
      hasBit bits 0o2 = false ∧ blocked = true) :
    Keeps env (Guarded fs₀ S) (allocateHandle path kind bits blocked file) := by
  refine keeps_bind (keeps_state _) (fun next => keeps_map (keeps_change ?_))
  intro w hw
  refine ⟨hw.tree_eq, hw.inode_eq, hw.apart, ?_, hw.plain⟩
  intro fh entry node hl hKind hNode hBacked
  rw [Dict.lookup_insert_eq] at hl
  split at hl
  · cases hl
    exact h hKind node hNode hBacked
  · exact hw.handles fh entry node hl hKind hNode hBacked

theorem handleMatches_kind {entry : HandleEntry} {path : Path} {kind : HandleKind}
    (h : handleMatches entry path kind = true) : entry.kind = kind := by
  simp only [handleMatches, Bool.and_eq_true, beq_iff_eq] at h
  exact h.2

theorem stable_guarded : Stable env (Guarded fs₀ S) where
  untimed := untimed_guarded
  loaded := keeps_loadTable passive_guarded
  locked _ _ _ h _ := ⟨h.tree_eq, h.inode_eq, h.apart, h.handles, h.plain⟩
  released w fh h := by
    refine ⟨h.tree_eq, h.inode_eq, h.apart, fun fh' entry file hl => ?_, h.plain⟩
    rw [Dict.lookup_erase_eq] at hl
    split at hl
    · cases hl
    · exact h.handles fh' entry file hl
  sought w fh entry offset h hl := by
    refine ⟨h.tree_eq, h.inode_eq, h.apart, fun fh' entry' file hl' => ?_, h.plain⟩
    rw [Dict.lookup_insert_eq] at hl'
    split at hl'
    · cases hl'
      exact h.handles fh entry file hl
    · exact h.handles fh' entry' file hl'

theorem guarded_rewritePaths (source target : Path) :
    Keeps env (Guarded fs₀ S) (rewritePaths source target) := by
  refine keeps_change (fun w hw => ⟨hw.tree_eq, hw.inode_eq, hw.apart, ?_, hw.plain⟩)
  intro fh entry file hl hKind hFile hBacked
  rw [Dict.lookup_mapValues, Option.map_eq_some_iff] at hl
  obtain ⟨old, hOld, rfl⟩ := hl
  exact hw.handles fh old file hOld hKind hFile hBacked

/-- A handle that may write is on no backing file. -/
theorem guarded_cloneForWrite (path : Path) (handle : Nat) :
    Triple env (Guarded fs₀ S) (cloneFileHandle path handle 0o2)
      (fun file w => Guarded fs₀ S w ∧ ¬ Backed fs₀ file.ino) (Guarded fs₀ S) := by
  refine triple_bind (triple_cloneFileHandleWithPolicy untimed_guarded path handle 0o2)
    (fun cloned => triple_pure ?_)
  rintro w ⟨hw, entry, hl, hm, hFile, -, hBits, -⟩
  refine ⟨hw, fun hBacked => ?_⟩
  have hNo := (hw.handles handle entry _ hl (handleMatches_kind hm) hFile hBacked).1
  simp [hasBit, hBits] at hNo

theorem guarded_writeFh (path : Path) (handle : Nat) (offset : Int) (data : Bytes) :
    Keeps env (Guarded fs₀ S) (writeFh path handle offset data) := by
  refine triple_bind (triple_matchingHandle path handle .file) (fun entry => ?_)
  refine triple_learn (triple_ensure fun _ hw => hw.1) (fun _ hBits => ?_)
  cases hf : entry.file with
  | none =>
    unfold openFileOf
    rw [hf]
    exact fun w hw => hw.1
  | some file =>
    unfold openFileOf
    rw [hf]
    intro w hw
    refine keeps_writeFileAt untimed_guarded (free_guarded fun hBacked => ?_) offset data w hw.1
    have hNo := (hw.1.handles handle entry file hw.2.1 (handleMatches_kind hw.2.2) hf hBacked).1
    rw [hBits] at hNo
    cases hNo

theorem guarded_setattrFh (path : Path) (handle : Nat) (change : Setattr) (ctx : FuseContext) :
    Keeps env (Guarded fs₀ S) (setattrFh path handle change ctx) := by
  have hClone : ∀ required, Triple env (Guarded fs₀ S)
      (cloneFileHandleWithPolicy path handle required)
      (fun cloned w => Guarded fs₀ S w ∧ (Backed fs₀ cloned.1.ino →
        hasBit cloned.2.1 0o2 = false ∧ cloned.2.2 = true)) (Guarded fs₀ S) := by
    intro required
    refine (triple_cloneFileHandleWithPolicy untimed_guarded path handle required).post ?_
    rintro cloned w ⟨hw, entry, hl, hm, hFile, hBits, -, hBlocked⟩
    refine ⟨hw, fun hBacked => ?_⟩
    rw [← hBits, ← hBlocked]
    exact hw.handles handle entry _ hl (handleMatches_kind hm) hFile hBacked
  refine triple_learn (hClone _) (fun cloned hCloned => ?_)
  obtain ⟨file, bits, blocked⟩ := cloned
  refine triple_learn (triple_ensure fun _ hw => hw) (fun _ hFree => ?_)
  by_cases hBacked : Backed fs₀ file.ino
  · obtain ⟨hBits, hBlocked⟩ := hCloned hBacked
    simp only at hBits hBlocked
    refine keeps_applyHandleSetattr_idle untimed_guarded ?_ (.inr hBits)
    simpa [hBlocked] using hFree
  · exact keeps_applyHandleSetattr untimed_guarded (free_guarded hBacked) bits change ctx

/-! ## Operations on names -/

section Names

variable (hCow : env.layout.cowRoot = true) (ctx : Option FuseContext)

/-- What follows works on a copy that is no link. -/
theorem guarded_onCopy (rel : Path) {α β : Type} {x : Op α} {f : α → Op β} {P : World → Prop}
    {Q : α → Prop}
    (hx : Triple env P x (fun a w => Guarded fs₀ {rel} w ∧ Q a) (Guarded fs₀ ∅))
    (hf : ∀ a, Q a → Keeps env (Guarded fs₀ {rel}) (f a)) :
    Triple env P (x >>= f) (fun _ => Guarded fs₀ ∅) (Guarded fs₀ ∅) := by
  have hDown : ∀ w, Guarded fs₀ {rel} w → Guarded fs₀ ∅ w :=
    fun _ hw => hw.mono (Set.empty_subset _)
  exact triple_learn hx (fun a hq =>
    triple_imp (hf a hq) (fun _ => hDown) hDown)

theorem guarded_ownMade (mode uid gid : Nat) : Keeps env (Guarded fs₀ {rel}) (do
      setPermissions ⟨.cow, rel⟩ mode
      applyOwnership ⟨.cow, rel⟩ uid gid true) :=
  keeps_seq (keeps_setPermissions untimed_guarded (freeAt_guarded noLink_self) mode) <|
    keeps_chown untimed_guarded (freeAt_guarded noLink_self) uid gid

theorem guarded_made {kind : Kind} (hk : kind ≠ .symlink) (perm : Nat) (data : Bytes) :
    Triple env (Guarded fs₀ ∅) (makeNode ⟨.cow, rel⟩ kind perm data)
      (fun node w => Guarded fs₀ {rel} w ∧ ¬ Backed fs₀ node.ino) (Guarded fs₀ ∅) := by
  refine (guarded_makeNode (by simp) (fun _ => hk) perm data).post ?_
  rintro node w ⟨hw, hNode, hKind, hIno⟩
  refine ⟨hw.single fun found hFound => ?_, hIno⟩
  rw [hNode] at hFound
  cases hFound
  rwa [hKind]

include hCow

theorem guarded_mkdir (mode : Nat) : Keeps env (Guarded fs₀ ∅) (mkdir rel mode ctx) := by
  refine triple_ask (keeps_gates (fun c => (keeps_seq (keeps_parentMetadata untimed_guarded _) <|
      keeps_ensured (keeps_then (keeps_ensureUnionEntryAbsent _) ?_))))
  refine triple_bind (triple_targetFileForWrite hCow) (fun target => triple_fact ?_)
  rintro rfl
  refine keeps_seq (guarded_clearTombstone _) <|
    guarded_onCopy rel (Q := fun _ => True) ?_ (fun _ _ => guarded_ownMade _ _ _)
  exact triple_ask (triple_seq (guarded_made (by simp) _ _) <|
    triple_pure fun _ hw => ⟨hw.1, trivial⟩)

theorem guarded_mknod (mode : Nat) : Keeps env (Guarded fs₀ ∅) (mknod rel mode ctx) := by
  refine triple_ask (keeps_gates (fun c => (keeps_then (keeps_checkNewEntry untimed_guarded _ c)
    ?_)))
  refine triple_bind (triple_targetFileForWrite hCow) (fun target => triple_fact ?_)
  rintro rfl
  refine keeps_seq (guarded_clearTombstone _) <|
    guarded_onCopy rel (Q := fun _ => True) ?_ (fun _ _ => ?_)
  · refine triple_ask (triple_learn (triple_result fun _ hw => hw) (fun kind hKind =>
    triple_seq (guarded_made ?_ _ _) <|
        triple_pure fun _ hw => ⟨hw.1, trivial⟩))
    exact modeKind_ne_symlink hKind
  · exact keeps_seq (keeps_setPermissions untimed_guarded (freeAt_guarded noLink_self) _) <|
      keeps_seq (keeps_chown untimed_guarded (freeAt_guarded noLink_self) _ _) <|
        keeps_symlinkMetadata untimed_guarded _

theorem guarded_symlink (target : Bytes) : Keeps env (Guarded fs₀ ∅) (symlink rel target ctx) := by
  refine keeps_gates fun c =>
    keeps_then (keeps_checkNewEntry untimed_guarded _ c) ?_
  refine triple_bind (triple_targetFileForWrite hCow) (fun target => triple_fact ?_)
  rintro rfl
  exact keeps_seq (guarded_clearTombstone _) <|
    keeps_seq (guarded_createDirAll (by simp [Loc.parent])) <|
    keeps_seq (guarded_makeSymlink (by simp) (not_noLink (by simp)) _) <|
    keeps_chown untimed_guarded (freeAt_guarded_link (by simp)) _ _

theorem guarded_link (source target : Path) :
    Keeps env (Guarded fs₀ ∅) (link source target ctx) := by
  refine triple_ask (keeps_gates (fun c => (keeps_bind (keeps_resolveExisting _) (fun src => ?_))))
  refine keeps_seq (keeps_each fun p _ => keeps_checkSearch untimed_guarded c p) <|
    keeps_seq (keeps_symlinkMetadata untimed_guarded _) <|
    keeps_then (keeps_checkNewEntry untimed_guarded _ c) ?_
  rw [if_pos hCow]
  refine keeps_then (guarded_copyUpFile.pre (fun w hw => ⟨hw, fun h => h.elim⟩)) ?_
  exact keeps_seq (guarded_createDirAll (by simp [Loc.parent])) <|
    keeps_seq (guarded_clearTombstone _) (guarded_hardLink _ _)

theorem guarded_unlink : Keeps env (Guarded fs₀ ∅) (unlink rel ctx) := by
  refine triple_ask (keeps_gates (fun c => (keeps_seq (keeps_resolveExisting _) <|
      keeps_seq (keeps_symlinkMetadata untimed_guarded _) <|
        keeps_ensured (keeps_seq (keeps_parentMetadata untimed_guarded _)
          (keeps_seq (keeps_ensureRemovalAllowed _ _ _ _) <| keeps_ensured (?_))))))
  rw [if_pos hCow]
  refine keeps_seq (keeps_seq (keeps_probe _) (keeps_onlyIf fun _ => ?_)) (guarded_markTombstone _)
  exact keeps_seq (guarded_removeFile (by simp)) (keeps_purgeIfLastLink passive_guarded _)

theorem guarded_rmdir : Keeps env (Guarded fs₀ ∅) (rmdir rel ctx) := by
  refine triple_ask (keeps_gates (fun c => (keeps_seq (keeps_dirIsEmpty untimed_guarded _) <|
      keeps_ensured (keeps_seq (keeps_parentMetadata untimed_guarded _)
        (keeps_seq (keeps_resolveExisting _) <|
          keeps_seq (keeps_symlinkMetadata untimed_guarded _) <|
            keeps_seq (keeps_ensureRemovalAllowed _ _ _ _) <| keeps_ensured (?_))))))
  rw [if_pos hCow]
  exact keeps_seq (keeps_probe _) (keeps_seq
    (keeps_onlyIf fun _ => guarded_removeDir (by simp)) (guarded_markTombstone _))

theorem guarded_rename (source target : Path) :
    Keeps env (Guarded fs₀ ∅) (rename source target ctx) := by
  have hReplace : Keeps env (Guarded fs₀ ∅) (replaceTarget ⟨.cow, target⟩) := by
    refine keeps_seq (keeps_probe _) (keeps_onlyIf fun _ =>
      keeps_seq (keeps_symlinkMetadata untimed_guarded _) (keeps_if ?_ ?_))
    · exact keeps_seq (keeps_query untimed_guarded _) <| keeps_ensured <|
        keeps_seq (guarded_removeDir (by simp)) <|
        keeps_purgeIfLastLink passive_guarded _
    · exact keeps_seq (guarded_removeFile (by simp)) <| keeps_purgeIfLastLink passive_guarded _
  refine triple_ask (keeps_gates (fun c => (keeps_seq (keeps_checkRename untimed_guarded _ _ c) <|
      keeps_seq ?_ (guarded_rewritePaths _ _))))
  rw [if_pos hCow]
  refine keeps_seq ((guarded_copyUpTree fun _ _ h => h.elim).pre (fun w hw => ⟨hw,
    fun h => h.elim⟩)) <| keeps_seq ?_ (guarded_markTombstone _)
  exact keeps_seq (keeps_probe _) <| keeps_ensured <|
    keeps_seq (guarded_createDirAll (by simp [Loc.parent])) <|
    keeps_seq hReplace <|
    keeps_seq (guarded_clearTombstone _) <|
    keeps_renameNode untimed_guarded fun _ _ hw hR => hw.relocated hR

end Names

/-! ## Operations on files -/

section FileOps

variable (hCow : env.layout.cowRoot = true) (ctx : Option FuseContext)

include hCow

theorem guarded_setattr (change : Setattr) :
    Keeps env (Guarded fs₀ ∅) (setattr rel change ctx) := by
  refine triple_ask (keeps_bind (keeps_requireContext _) (fun c =>
    triple_bind (triple_resolveExisting rel) (fun loc => ?_)))
  have hDown : ∀ w, Copyable fs₀ {rel} rel w → Guarded fs₀ ∅ w :=
    fun _ hw => hw.1.mono (Set.empty_subset _)
  refine triple_then (guarded_ensureNotSymlink hCow) ?_
  refine triple_seq ((keeps_metadata untimed_copyable _).weaken hDown) <|
    triple_then ((keeps_ensureSetattrAllowed _ _ _).weaken hDown) ?_
  refine guarded_onCopy rel ((guarded_materializeForWrite hCow).weaken
    (fun _ hw => hw.mono (Set.empty_subset _))) ?_
  rintro target rfl
  have hFree : FreeAt env (Guarded fs₀ {rel}) ⟨.cow, rel⟩ true := freeAt_guarded noLink_self
  refine keeps_ensured <| keeps_seq ?_ <|
    keeps_seq (keeps_ifSome fun _ _ => keeps_setPermissions untimed_guarded hFree _) <|
    keeps_seq (keeps_onlyIf fun _ => keeps_chown untimed_guarded hFree _ _) <|
    keeps_symlinkMetadata untimed_guarded _
  unfold setSize
  split
  · refine triple_learn (guarded_openFile noLink_self _) (fun file hFile => ?_)
    exact keeps_seq (keeps_fileMetadata untimed_guarded _) <|
      keeps_seq (keeps_ensureSetattrAllowed _ _ _) <|
      keeps_setLen untimed_guarded (free_guarded hFile) _
  · exact keeps_seq (keeps_metadata untimed_guarded _) <| keeps_ensureSetattrAllowed _ _ _

theorem guarded_write (offset : Int) (data : Bytes) :
    Keeps env (Guarded fs₀ ∅) (write rel offset data ctx) := by
  refine keeps_bind (keeps_requireContext _) fun c =>
    triple_bind (triple_resolveExisting rel) fun loc =>
    triple_then (guarded_ensureNotSymlink hCow) ?_
  refine guarded_onCopy rel ((guarded_prepareFileForWrite hCow).weaken
    (fun _ hw => hw.mono (Set.empty_subset _))) ?_
  rintro target rfl
  refine triple_learn (guarded_openFile noLink_self _) (fun file hFile => ?_)
  exact keeps_seq (keeps_fileMetadata untimed_guarded _) <|
    keeps_ensured (keeps_writeFileAt untimed_guarded (free_guarded hFile) _ _)

omit hCow in
/-- Opening a copy that is no link, or for reading an object that stays as it is. -/
theorem guarded_openExisting {object : ResolvedObject} {kind : HandleKind} {flags : Nat}
    {c : FuseContext}
    (h : kind = .file → NoLink S object.hostPath ∨ object.permissionUpdatesBlocked = true ∧
      ∀ bits, openAccessBits flags = .ok bits → hasBit bits 0o2 = false) :
    Keeps env (Guarded fs₀ S) (openExisting object kind flags c) := by
  refine keeps_bind (keeps_followedMetadata untimed_guarded _) (fun info =>
    keeps_then (keeps_ensureKind _ _) ?_)
  cases kind with
  | dir =>
    exact keeps_ensured <| keeps_seq (keeps_openFile untimed_guarded _ _) <|
      keeps_map (guarded_allocateHandle fun hk => nomatch hk)
  | file =>
    refine keeps_seq (keeps_ensureRegularFile _) (triple_bind
      (triple_ensureOpenFlagsAllowed _ _ _ _) (fun bits => triple_fact fun ⟨hBits, _⟩ => ?_))
    rcases h rfl with hLoc | ⟨hBlocked, hRead⟩
    · refine triple_learn (guarded_openFile hLoc _) (fun file hFile => ?_)
      refine keeps_seq
          (keeps_onlyIf fun _ => keeps_setLen untimed_guarded (free_guarded hFile) _) <|
        keeps_seq (keeps_fileMetadata untimed_guarded _) <|
        keeps_map (guarded_allocateHandle fun _ node hNode hBacked => ?_)
      cases hNode
      exact absurd hBacked hFile
    · rw [not_truncating hBits (hRead bits hBits)]
      refine keeps_bind (keeps_openFile untimed_guarded _ _) fun file =>
        keeps_seq (keeps_pure _) <|
        keeps_seq (keeps_fileMetadata untimed_guarded _) <|
        keeps_map (guarded_allocateHandle fun _ node hNode _ => ?_)
      exact ⟨hRead bits hBits, hBlocked⟩

/-- What the path stands for is a backing object or a copy that is no link. -/
def Leads (env : Env) (fs₀ : HostFs) (rel : Path) (loc : Loc) (w : World) : Prop :=
  Guarded fs₀ ∅ w ∧ resolve env w.fs rel = some loc ∧
    (loc.root = .cow → ∀ node, w.fs.get loc = some node → node.kind ≠ .symlink)

omit hCow in
theorem untimed_leads : Untimed (Leads env fs₀ rel loc) :=
  fun w n hw => ⟨untimed_guarded w n hw.1, hw.2⟩

theorem guarded_openFileTarget (hPerm : env.allowBackingPermissionUpdates = false) (info : Meta)
    (flags : Nat) (c : FuseContext) :
    Triple env (Leads env fs₀ rel loc) (openFileTarget rel loc info flags c)
      (fun target w => Guarded fs₀ {rel} w ∧ target = ⟨.cow, rel⟩ ∨
        Guarded fs₀ ∅ w ∧ permissionUpdatesBlocked env target = true ∧
          ∀ bits, openAccessBits flags = .ok bits → hasBit bits 0o2 = false)
      (Guarded fs₀ ∅) := by
  have hDown : ∀ {w}, Guarded fs₀ {rel} w → Guarded fs₀ ∅ w :=
    fun hw => hw.mono (Set.empty_subset _)
  refine triple_ask (triple_then ((keeps_ensureRegularFile _).weaken fun _ hw => hw.1) ?_)
  refine triple_learn ((triple_ensureOpenFlagsAllowed _ _ _ _).weaken (fun _ hw => hw.1))
    (fun bits hBits => ?_)
  refine triple_ite (fun _ => ?_) (fun hRead => ?_)
  · refine triple_then ((guarded_ensureNotSymlink hCow).pre (fun _ hw => ⟨hw.1, hw.2.1⟩))
      ?_
    refine triple_if ?_ ?_
    · refine triple_seq (guarded_copyUpEmptyFileForTruncate.weaken (fun _ => hDown)) <|
          triple_then ((guarded_clearTombstone rel).weaken fun _ => hDown) ?_
      exact triple_pure (fun w hw => .inl ⟨hw, rfl⟩)
    · exact triple_imp (guarded_prepareFileForWrite hCow)
        (fun _ _ hw => .inl hw) (fun _ => hDown)
  · refine triple_pure ?_
    rintro w ⟨hw, hRes, hPlain⟩
    obtain ⟨-, ⟨-, rfl, -⟩ | ⟨hBacking, rfl, -, -⟩⟩ := resolve_eq_some.mp hRes
    · exact .inl ⟨hw.single (hPlain rfl), rfl⟩
    · refine .inr ⟨hw, ?_, fun bits' hBits' => ?_⟩
      · simp [permissionUpdatesBlocked, isBackingPath, hPerm, hBacking]
      · rw [hBits.1] at hBits'
        cases hBits'
        simpa using hRead

theorem guarded_openOp (hPerm : env.allowBackingPermissionUpdates = false) (kind : HandleKind)
    (flags : Nat) :
    Triple env (fun w => Guarded fs₀ ∅ w ∧ (kind = .file → ∀ node,
        resolve env w.fs rel = some ⟨.cow, rel⟩ → w.fs.get ⟨.cow, rel⟩ = some node →
        node.kind ≠ .symlink)) (openOp rel kind flags ctx)
      (fun _ => Guarded fs₀ ∅) (Guarded fs₀ ∅) := by
  refine triple_ask (triple_bind ((keeps_requireContext _).weaken fun _ hw => hw.1) (fun c => ?_))
  refine triple_bind ((triple_resolveExisting rel).weaken (fun _ hw => hw.1)) (fun loc => ?_)
  cases kind with
  | dir =>
    refine Triple.pre (P := Guarded fs₀ ∅) ?_ (fun _ hw => hw.1.1)
    exact keeps_seq (keeps_followedMetadata untimed_guarded _) <|
      keeps_seq (keeps_ensureKind _ _) <|
      keeps_seq (keeps_ensured (keeps_pure _)) <|
      guarded_openExisting fun h => nomatch h
  | file =>
    refine Triple.pre (P := Leads env fs₀ rel loc) ?_ ?_
    · refine triple_bind
          ((keeps_followedMetadata untimed_leads _).weaken fun _ hw => hw.1) fun info =>
        triple_seq ((keeps_ensureKind _ _).weaken fun _ hw => hw.1) <|
        triple_bind (guarded_openFileTarget hCow hPerm info flags c) fun target w hw => ?_
      rcases hw with ⟨hw, rfl⟩ | ⟨hw, hBlocked, hRead⟩
      · exact triple_imp (guarded_openExisting fun _ => .inl noLink_self)
          (fun _ _ hw => hw.mono (Set.empty_subset _)) (fun _ hw => hw.mono (Set.empty_subset _))
          w hw
      · exact guarded_openExisting (fun _ => .inr ⟨hBlocked, hRead⟩) w hw
    · rintro w ⟨⟨hw, hPlain⟩, hRes⟩
      refine ⟨hw, hRes, fun hRoot node hNode => ?_⟩
      obtain ⟨-, ⟨-, rfl, -⟩ | ⟨-, rfl, -⟩⟩ := resolve_eq_some.mp hRes
      · exact hPlain rfl node hRes hNode
      · cases hRoot

omit hCow in
theorem guarded_openTarget (existed : Bool) (bits mode : Nat) (c : FuseContext) :
    Triple env (Guarded fs₀ {rel}) (openTarget ⟨.cow, rel⟩ existed bits mode c)
      (fun file w => Guarded fs₀ {rel} w ∧ ¬ Backed fs₀ file.ino) (Guarded fs₀ {rel}) := by
  refine triple_if (guarded_openFile noLink_self _) ?_
  have hFile : Triple env (Guarded fs₀ {rel}) (openOrCreate ⟨.cow, rel⟩ mode)
      (fun file w => Guarded fs₀ {rel} w ∧ ¬ Backed fs₀ file.ino) (Guarded fs₀ {rel}) := by
    refine triple_bind (keeps_probe _) (fun present => triple_if (guarded_openFile
      noLink_self _) (triple_ask ?_))
    exact (guarded_makeNode (by simp) (fun _ => by simp) _ _).post (fun _ _ hw => ⟨hw.1, hw.2.2.2⟩)
  refine triple_learn hFile (fun file hIno => ?_)
  have hFree : FreeAt env (Guarded fs₀ {rel}) ⟨.cow, rel⟩ true := freeAt_guarded noLink_self
  exact triple_seq (keeps_setPermissions untimed_guarded hFree mode) <|
    triple_seq (keeps_chown untimed_guarded hFree _ _) <|
    triple_pure fun _ hw => ⟨hw, hIno⟩

/-- The checks of `create` find out that an existing object is no link. -/
theorem guarded_checkCreate (existing : Option Loc) (flags : Nat) (c : FuseContext) :
    Triple env (fun w => Guarded fs₀ ∅ w ∧ existing = resolve env w.fs rel)
      (checkCreate rel existing flags c)
      (fun _ w => Guarded fs₀ ∅ w ∧ (existing.isSome = true → Copyable fs₀ {rel} rel w))
      (Guarded fs₀ ∅) := by
  cases existing with
  | none =>
    refine triple_conseq (P := Guarded fs₀ ∅) (keeps_seq (keeps_parentMetadata untimed_guarded _)
      (keeps_ensure _ _)) (fun _ hw => hw.1) ?_ (fun _ hw => hw)
    exact fun _ w hw => ⟨hw, fun h => nomatch h⟩
  | some loc =>
    have hDown : ∀ {w}, Copyable fs₀ {rel} rel w → Guarded fs₀ ∅ w :=
      fun hw => hw.1.mono (Set.empty_subset _)
    have hU : Untimed (fun w => Guarded fs₀ ∅ w ∧ some loc = resolve env w.fs rel) :=
      fun w n hw => ⟨untimed_guarded w n hw.1, hw.2⟩
    refine triple_seq ((keeps_metadata hU _).weaken fun _ hw => hw.1) <|
      triple_seq ((keeps_ensure _ _).weaken fun _ hw => hw.1) <|
      triple_seq ((keeps_ensure _ _).weaken fun _ hw => hw.1) <|
      triple_then ((guarded_ensureNotSymlink hCow).pre (fun w hw => ⟨hw.1, hw.2.symm⟩)) ?_
    refine triple_imp (P := Copyable fs₀ {rel} rel) (keeps_seq
      (keeps_metadata untimed_copyable _) (keeps_seq (keeps_ensureRegularFile _)
        (keeps_map (keeps_ensureOpenFlagsAllowed _ _ _ _))))
        (fun _ w hw => ⟨hDown hw, fun _ => hw⟩) (fun _ => hDown)

theorem guarded_copyExisting (existing : Option Loc) (truncate : Bool) :
    Triple env (fun w => Guarded fs₀ ∅ w ∧ (existing.isSome = true → Copyable fs₀ {rel} rel w))
      (onlyIf (existing.isSome && env.layout.cowRoot)
        (if truncate then copyUpEmptyFileForTruncate rel else copyUpFile rel))
      (fun _ w => Guarded fs₀ ∅ w ∧ (existing.isSome = true → Guarded fs₀ {rel} w))
      (Guarded fs₀ ∅) := by
  cases existing with
  | none => exact triple_pure (fun w hw => ⟨hw.1, fun h => nomatch h⟩)
  | some loc =>
    have hDown : ∀ {w}, Guarded fs₀ {rel} w → Guarded fs₀ ∅ w :=
      fun hw => hw.mono (Set.empty_subset _)
    rw [hCow]
    refine triple_conseq (Q := fun _ => Guarded fs₀ {rel}) (triple_ite (fun _ => triple_if
      guarded_copyUpEmptyFileForTruncate guarded_copyUpFile)
      (fun h => absurd rfl h)) (fun _ hw => hw.2 rfl) (fun _ w hw => ⟨hDown hw, fun _ => hw⟩)
      (fun _ => hDown)

omit hCow in
/-- The object at the target is no link when the checks of `create` have passed. -/
theorem guarded_checkTarget (existing : Option Loc) (targetMeta : Option Meta) (flags : Nat)
    (c : FuseContext) :
    Triple env (fun w => (Guarded fs₀ ∅ w ∧ (existing.isSome = true → Guarded fs₀ {rel} w)) ∧
        (targetMeta = none → w.fs.get ⟨.cow, rel⟩ = none) ∧
        ∀ info, targetMeta = some info →
          ∃ node, w.fs.get ⟨.cow, rel⟩ = some node ∧ info = w.fs.metaOf node)
      (checkTarget targetMeta existing.isSome flags c) (fun _ => Guarded fs₀ {rel})
      (Guarded fs₀ ∅) := by
  cases targetMeta with
  | none =>
    refine triple_pure fun w hw => hw.1.1.single fun node hNode => ?_
    rw [hw.2.1 rfl] at hNode
    cases hNode
  | some info =>
    refine triple_learn (triple_ensure fun _ hw => hw.1.1) (fun _ hk => ?_)
    refine triple_conseq (P := Guarded fs₀ {rel}) (keeps_onlyIf fun _ => keeps_seq
      (keeps_ensureRegularFile _) (keeps_map (keeps_ensureOpenFlagsAllowed _ _ _ _)))
      ?_ (fun _ _ hw => hw) (fun _ hw => hw.mono (Set.empty_subset _))
    intro w hw
    obtain ⟨node, hNode, rfl⟩ := hw.2.2 info rfl
    refine hw.1.1.single fun found hFound => ?_
    rw [hNode] at hFound
    cases hFound
    simpa [HostFs.metaOf] using hk

theorem guarded_createFileOp (mode flags : Nat) :
    Keeps env (Guarded fs₀ ∅) (createFileOp rel mode flags ctx) := by
  have hDown : ∀ {w}, Guarded fs₀ {rel} w → Guarded fs₀ ∅ w :=
    fun hw => hw.mono (Set.empty_subset _)
  refine triple_ask (keeps_gates (fun c => (keeps_bind (keeps_result _) (fun bits =>
    triple_bind (triple_probe _) (fun existing => ?_)))))
  refine triple_seq (guarded_checkCreate hCow existing flags c) <|
    triple_then (guarded_copyExisting hCow existing _) ?_
  have hU : Untimed (fun w => Guarded fs₀ ∅ w ∧ (existing.isSome = true → Guarded fs₀ {rel} w)) :=
    fun w n hw => ⟨untimed_guarded w n hw.1, fun h => untimed_guarded w n (hw.2 h)⟩
  refine triple_bind ((triple_targetFileForWrite hCow).weaken (fun _ hw => hw.1))
    (fun target => triple_fact ?_)
  rintro rfl
  refine triple_bind ((triple_lstat hU _).weaken (fun _ hw => hw.1)) (fun targetMeta =>
      triple_then (guarded_checkTarget existing targetMeta flags c) ?_)
  refine triple_imp (P := Guarded fs₀ {rel}) (Q := fun _ => Guarded fs₀ {rel})
    (E := Guarded fs₀ {rel}) ?_ (fun _ _ => hDown) (fun _ => hDown)
  refine keeps_seq (guarded_clearTombstone _) <|
    keeps_seq (guarded_createDirAll (by simp [Loc.parent])) <|
    triple_learn (guarded_openTarget _ _ _ c) fun file hFile => ?_
  exact keeps_seq (keeps_fileMetadata untimed_guarded _) <|
    keeps_seq (keeps_onlyIf fun _ => keeps_setLen untimed_guarded (free_guarded hFile) _) <|
      keeps_seq (keeps_fileMetadata untimed_guarded _) <|
      keeps_map (guarded_allocateHandle fun _ _ hf hb => absurd (Option.some.inj hf ▸ hb) hFile)

/-! ## Extended attributes -/

/-- The object that an ACL is set on, the copy or what would be copied, is no link. -/
def PlainTarget (fs : HostFs) (rel : Path) : Prop :=
  ∀ node, (fs.get ⟨.cow, rel⟩).or (fs.get ⟨.backing, rel⟩) = some node → node.kind ≠ .symlink

omit hCow in
theorem PlainTarget.copyable {w : World} (h : PlainTarget w.fs rel) (hw : Guarded fs₀ ∅ w) :
    Copyable fs₀ {rel} rel w := by
  refine ⟨hw.single fun node hNode => h node ?_, fun _ hNone node hNode => h node ?_⟩
  · rw [hNode]
    rfl
  · rw [hNone, Option.none_or, hw.get_backing, hNode]

theorem guarded_materializeForXattr :
    Triple env (Copyable fs₀ S rel) (materializeForXattr rel)
      (fun loc w => Guarded fs₀ S w ∧ loc = ⟨.cow, rel⟩) (Guarded fs₀ S) := by
  refine triple_ask ?_
  rw [if_pos hCow]
  exact triple_seq (triple_copyUpNode guarded_copyRules) <| triple_seq (keeps_probe _) <|
    triple_seq (keeps_ensure _ _) <|
    triple_pure fun w hw => ⟨hw, rfl⟩

theorem guarded_changeXattr {name : Bytes} {acl : Loc → Op Unit}
    {f : XattrTable → Except Errno XattrTable}
    (hChange : Keeps env (Guarded fs₀ {rel}) (acl ⟨.cow, rel⟩)) :
    Triple env (fun w => Guarded fs₀ ∅ w ∧ (isAclName name = true → PlainTarget w.fs rel))
      (changeXattr rel name acl f) (fun _ => Guarded fs₀ ∅) (Guarded fs₀ ∅) := by
  refine triple_ask ?_
  by_cases hAcl : isAclName name = true
  · refine triple_conseq (P := Copyable fs₀ {rel} rel) (Q := fun _ => Guarded fs₀ {rel})
      (E := Guarded fs₀ {rel}) ?_ (fun w hw => (hw.2 hAcl).copyable hw.1)
      (fun _ _ hw => hw.mono (Set.empty_subset _)) (fun _ hw => hw.mono (Set.empty_subset _))
    refine triple_bind (guarded_materializeForXattr hCow) (fun target => triple_fact ?_)
    rintro rfl
    refine keeps_ensured (?_)
    rw [if_pos hAcl]
    exact hChange
  · refine Triple.pre (P := Copyable fs₀ ∅ rel) ?_ (fun w hw => ⟨hw.1, fun h => h.elim⟩)
    refine triple_learn (guarded_materializeForXattr hCow) (fun target _ => ?_)
    refine keeps_ensured (?_)
    rw [if_neg hAcl]
    exact keeps_seq (keeps_keyForPath untimed_guarded _) <| keeps_updateTable passive_guarded _ _

theorem guarded_setxattr (name value : Bytes) (flags : Nat) :
    Triple env (fun w => Guarded fs₀ ∅ w ∧ (isAclName name = true → PlainTarget w.fs rel))
      (setxattr rel name value flags) (fun _ => Guarded fs₀ ∅) (Guarded fs₀ ∅) :=
  guarded_changeXattr hCow (keeps_setXattr untimed_guarded (freeAt_guarded noLink_self) _ _ _)

theorem guarded_removexattr (name : Bytes) :
    Triple env (fun w => Guarded fs₀ ∅ w ∧ (isAclName name = true → PlainTarget w.fs rel))
      (removexattr rel name) (fun _ => Guarded fs₀ ∅) (Guarded fs₀ ∅) :=
  guarded_changeXattr hCow (keeps_removeXattr untimed_guarded (freeAt_guarded noLink_self) _)

end FileOps

end Requests

/-! ## Runs -/

/-- Files are opened and ACLs are changed at paths that are no links. -/
def Direct (env : Env) : Request → World → Prop
  | .openAt path .file _ _, w => ∀ node, resolve env w.fs path = some ⟨.cow, path⟩ →
    w.fs.get ⟨.cow, path⟩ = some node → node.kind ≠ .symlink
  | .setxattr path name _ _, w => isAclName name = true → PlainTarget w.fs path
  | .removexattr path name, w => isAclName name = true → PlainTarget w.fs path
  | _, _ => True

/-- The objects of the other trees are no backing objects, and the alias tree has no links. -/
def Separate (fs : HostFs) : Prop :=
  (∀ loc node, loc.root ≠ .backing → fs.get loc = some node → ¬ Backed fs node.ino) ∧
    ∀ p node, fs.get ⟨.alias, p⟩ = some node → node.kind ≠ .symlink

theorem guarded_started {fs : HostFs} (h : Separate fs) : Guarded fs ∅ (started fs) where
  tree_eq := rfl
  inode_eq _ _ := rfl
  apart := h.1
  handles fh entry file hl := by simp [started] at hl
  plain := by
    rintro ⟨root, p⟩ node (rfl | ⟨-, hp⟩) hNode
    · exact h.2 p node hNode
    · exact hp.elim

theorem exec_guarded {env : Env} {fs₀ : HostFs} (hCow : env.layout.cowRoot = true)
    (hPerm : env.allowBackingPermissionUpdates = false) (request : Request) :
    Triple env (fun w => Guarded fs₀ ∅ w ∧ Direct env request w) (exec request)
      (fun _ => Guarded fs₀ ∅) (Guarded fs₀ ∅) := by
  have hRespond : ∀ {α : Type} {f : α → Response} {x : Op α}, Keeps env (Guarded fs₀ ∅) x →
      Triple env (fun w => Guarded fs₀ ∅ w ∧ Direct env request w) (respond f x)
        (fun _ => Guarded fs₀ ∅) (Guarded fs₀ ∅) := fun hx =>
    (keeps_map hx).pre (fun _ hw => hw.1)
  cases request with
  | setattr path change ctx => exact hRespond (guarded_setattr hCow ctx change)
  | setxattr path name value flags =>
    exact triple_seq (guarded_setxattr hCow name value flags) (keeps_pure _)
  | removexattr path name =>
    exact triple_seq (guarded_removexattr hCow name) (keeps_pure _)
  | mkdir path mode ctx => exact hRespond (guarded_mkdir hCow ctx mode)
  | unlink path ctx => exact hRespond (guarded_unlink hCow ctx)
  | rmdir path ctx => exact hRespond (guarded_rmdir hCow ctx)
  | rename source target ctx => exact hRespond (guarded_rename hCow ctx source target)
  | create path mode flags ctx => exact hRespond (guarded_createFileOp hCow ctx mode flags)
  | mknod path mode ctx => exact hRespond (guarded_mknod hCow ctx mode)
  | link source target ctx => exact hRespond (guarded_link hCow ctx source target)
  | symlink path target ctx => exact hRespond (guarded_symlink hCow ctx target)
  | openAt path kind flags ctx =>
    refine triple_seq ((guarded_openOp hCow ctx hPerm kind flags).pre ?_) (keeps_pure _)
    rintro w ⟨hw, hDirect⟩
    refine ⟨hw, ?_⟩
    rintro rfl
    exact hDirect
  | write path offset data ctx => exact hRespond (guarded_write hCow ctx offset data)
  | writeFh path handle offset data ctx =>
    exact hRespond (keeps_seq (keeps_requireContext _) <| guarded_writeFh path handle offset data)
  | setattrFh path handle change ctx =>
    exact hRespond (keeps_bind (keeps_requireContext _) (fun c =>
      guarded_setattrFh path handle change c))
  | copyFileRange input output fhIn fhOut offsetIn offsetOut len ctx =>
    refine hRespond (keeps_seq (keeps_requireContext _) (triple_ask <|
      keeps_ensured (keeps_bind
        (keeps_cloneFileHandle untimed_guarded _ _ _) (fun src => triple_learn
          (guarded_cloneForWrite output fhOut) (fun dst hFile => ?_)))))
    exact keeps_copyFileRangeAt untimed_guarded (free_guarded hFile) _ _ _ _ _
  | fallocate path handle offset length mode =>
    exact hRespond (keeps_ensured (triple_learn
      (guarded_cloneForWrite path handle) (fun file hFile =>
        keeps_fallocateAt untimed_guarded (free_guarded hFile) _ _)))
  | _ =>
    exact Triple.pre (keeps_exec_of_looking stable_guarded trivial) (fun _ hw => hw.1)

theorem separate_oneFile : Separate oneFile := by
  have hBacked : ∀ ino, Backed oneFile ino → ino = 1 ∨ ino = 10 := by
    rintro ino ⟨p, node, hNode, rfl⟩
    have hMem : p ∈ [[nameOf "f"], []] := (oneFile.tree .backing).mem_dom p node hNode
    have hFile : oneFile.get ⟨.backing, [nameOf "f"]⟩ = some ⟨.file, 10⟩ := by decide +kernel
    have hDir : oneFile.get ⟨.backing, []⟩ = some ⟨.dir, 1⟩ := by decide +kernel
    rcases List.mem_pair.mp hMem with rfl | rfl
    · rw [hFile] at hNode
      cases hNode
      exact .inr rfl
    · rw [hDir] at hNode
      cases hNode
      exact .inl rfl
  have hRoot : ∀ {root ino p node}, oneFile.tree root = rootTree ino →
      oneFile.get ⟨root, p⟩ = some node → node = ⟨.dir, ino⟩ := by
    intro root ino p node hTree hNode
    rw [HostFs.get, hTree] at hNode
    simp only [rootTree] at hNode
    split at hNode
    · exact (Option.some.inj hNode).symm
    · cases hNode
  have hCow : oneFile.tree .cow = rootTree 2 := rfl
  have hAlias : oneFile.tree .alias = rootTree 3 := rfl
  refine ⟨?_, fun p node hNode => ?_⟩
  · rintro ⟨root, p⟩ node hl hNode hb
    have hIno := hBacked _ hb
    cases root with
    | backing => exact hl rfl
    | cow =>
      rw [hRoot hCow hNode] at hIno
      exact absurd hIno (by decide)
    | _ =>
      rw [hRoot hAlias hNode] at hIno
      exact absurd hIno (by decide)
  · rw [hRoot hAlias hNode]
    decide

/-- A file is opened for writing, which copies it up, written, and removed. -/
def changeFile : List Request :=
  [.openAt [nameOf "f"] .file 2 superuser, .writeFh [nameOf "f"] 1 0 [8, 9] superuser,
    .unlink [nameOf "f"] superuser]

end FabricFs.Overlay
