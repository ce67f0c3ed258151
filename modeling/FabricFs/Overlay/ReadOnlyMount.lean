import FabricFs.Lib.Runs
import FabricFs.Overlay.Reports
import FabricFs.Overlay.Samples

/-!
# A mount without an alias path

A mount is writable only with an alias root. Most operations that change something ask
for that first and are refused (`EROFS`). Three routes do not ask: `setxattr` and
`removexattr`, which copy the object up and write its manifest; an `open` with `O_TRUNC`,
which makes an empty copy and hands out a handle for writing; and a change of mode or
ownership through a handle that was opened for reading.

* `readOnly_run`: in a run in which these three are refused by their other checks, the
  file system and all that can be read of it stay as they are and every request to change
  something fails.
* `setxattr_ungated`: without that condition it does not. `setxattr` succeeds on a mount
  without an alias path and copies a backing file up.
-/

namespace FabricFs.Overlay

open Lib Lib.Prog Server

/-! ## Programs that are refused -/

/-- The program fails and keeps `I`. -/
def Refuses {α : Type} (env : Env) (I : World → Prop) (x : Op α) : Prop :=
  Triple env I x (fun _ _ => False) I

section Refuses

variable {env : Env} {I : World → Prop} {α β : Type}

variable {x : Op α}

theorem refuses_throw (e : Errno) : Refuses env I (throw e : Op α) := fun _ hw => hw

theorem triple_unreached {P E : World → Prop} {Q : β → World → Prop}
    (h : Triple env P x (fun _ _ => False) E) (f : α → Op β) : Triple env P (x >>= f) Q E :=
  triple_bind h (fun _ _ hw => hw.elim)

theorem Refuses.bind (h : Refuses env I x) (f : α → Op β) : Refuses env I (x >>= f) :=
  triple_unreached h f

theorem refuses_after {f : α → Op β} (hx : Keeps env I x) (hf : ∀ a, Refuses env I (f a)) :
    Refuses env I (x >>= f) := triple_bind hx hf

theorem Refuses.keeps (h : Refuses env I x) : Keeps env I x :=
  h.post (fun _ _ hw => hw.elim)

theorem refuses_ensure {c : Bool} {e : Errno} (h : c = false) :
    Refuses env I (ensure c e : Op Unit) := by
  unfold ensure
  rw [h]
  exact refuses_throw e

end Refuses

/-! ## The invariant -/

/-- The file system is still the given one, the attribute cache agrees with the manifests
and no handle may write. -/
structure Calm (env : Env) (fs : HostFs) (w : World) : Prop where
  fs_eq : w.fs = fs
  cached : ∀ key table, w.cache.lookup key = some table → table = storedTable env fs key
  reading : ∀ fh entry, w.handles.lookup fh = some entry → hasBit entry.accessBits 0o2 = false

theorem calm_started (env : Env) (fs : HostFs) : Calm env fs (started fs) := by
  refine ⟨rfl, ?_, ?_⟩
  · intro key table h
    simp [started] at h
  · intro fh entry h
    simp [started] at h

/-- `setxattr` and `removexattr` find nothing to work on, or their update is refused. -/
def XattrRefused (env : Env) (fs : HostFs) (rel : Path) (updateRefused : Loc → Prop) : Prop :=
  fs.Straight rel ∧ if env.layout.cowRoot then
    -- nothing to copy up, no place for the copy, or a copy whose update is refused
    (fs.get ⟨.cow, rel⟩ = none ∧ (env.layout.backingRoot = true → fs.get ⟨.backing, rel⟩ = none)) ∨
      (fs.tree .cow).blocked rel = true ∨
      ((fs.get ⟨.cow, rel⟩).isSome = true ∧ updateRefused ⟨.cow, rel⟩)
  else
    ∀ loc, resolve env fs rel = some loc → env.allowXattrUpdates = false ∨ updateRefused loc

/-- The flags of `setxattr` do not fit the attributes that are there. -/
def SetRefused (env : Env) (fs : HostFs) (name : Bytes) (flags : Nat) (loc : Loc) : Prop :=
  if isAclName name then
    ∀ node, followNode env fs loc = .ok node →
      ∃ e, checkXattrFlags (fs.inode node.ino).xattrs name flags = .error e
  else
    ∀ node, fs.get loc = some node →
      ∃ e, checkXattrFlags (storedTable env fs node.ino) name flags = .error e

/-- The attribute that `removexattr` names is not there. -/
def RemoveRefused (env : Env) (fs : HostFs) (name : Bytes) (loc : Loc) : Prop :=
  if isAclName name then
    ∀ node, followNode env fs loc = .ok node → (fs.inode node.ino).xattrs.lookup name = none
  else ∀ node, fs.get loc = some node → (storedTable env fs node.ino).lookup name = none

/-- A truncating open, where the mount has a copy-on-write root, does not find a file that
the caller may write, or no place for the copy. -/
def TruncateRefused (env : Env) (fs : HostFs) (path : Path) (flags : Nat) (ctx : FuseContext) :
    Prop :=
  hasBit flags oTrunc = true → env.layout.cowRoot = true → fs.Straight path ∧ ∀ bits loc node,
    openAccessBits flags = .ok bits → resolve env fs path = some loc →
    fs.get loc = some node → node.kind = .file →
    (fs.tree .cow).blocked path = true ∨ accessAllowed (fs.metaOf node) ctx.uid ctx.gid bits = false

/-- The caller may not change the mode or the ownership as asked. -/
def ChangeRefused (info : Meta) (ctx : FuseContext) (change : Setattr) : Prop :=
  (change.mode.isSome = true ∧ (ctx.uid == 0 || info.uid == ctx.uid) = false) ∨
    ((change.uid.isSome || change.gid.isSome) = true ∧
      ownershipAllowed info ctx.uid ctx.gid change.uid change.gid = false)

/-- The request takes none of the three routes, or is refused there. -/
def Gated (env : Env) : Request → World → Prop
  | .setxattr path name _ flags, w =>
    XattrRefused env w.fs path (SetRefused env w.fs name flags)
  | .removexattr path name, w => XattrRefused env w.fs path (RemoveRefused env w.fs name)
  | .openAt path .file flags (some ctx), w => TruncateRefused env w.fs path flags ctx
  | .setattrFh path handle change (some ctx), w =>
    change.permissions = true → change.size = none → ∀ entry file,
      w.handles.lookup handle = some entry → handleMatches entry path .file = true →
      entry.file = some file →
      entry.permissionUpdatesBlocked = true ∨ ChangeRefused (w.fs.metaOf file) ctx change
  | _, _ => True

/-- The requests that ask for a change of the file system or for a handle to make one. -/
def Mutating : Request → Prop
  | .setattr .. | .setxattr .. | .removexattr .. | .mkdir .. | .unlink .. | .rmdir ..
  | .rename .. | .create .. | .mknod .. | .link .. | .symlink .. | .write .. | .writeFh ..
  | .copyFileRange .. | .fallocate .. => True
  | .openAt _ .file flags _ => ∀ bits, openAccessBits flags = .ok bits → hasBit bits 0o2 = true
  | .setattrFh _ _ change _ => change.permissions = true ∨ change.size.isSome = true
  | _ => False

/-! ## Operations behind the gate -/

section Gate

variable {env : Env} {I : World → Prop} (hRo : isWritable env = false)

include hRo

theorem refuses_ensureWritable : Refuses env I ensureWritable := by
  intro w hw
  exact refuses_ensure hRo w hw

theorem refuses_ensureMutable : Refuses env I ensureMutable :=
  (refuses_ensureWritable hRo).bind _

/-- The namespace operations ask right after they have the caller. -/
theorem refuses_gated {α : Type} (ctx : Option FuseContext) (f : Env → FuseContext → Op α) :
    Refuses env I (do
      let env ← ask
      let ctx ← requireContext ctx
      ensureMutable
      f env ctx) :=
  refuses_after keeps_ask (fun _ => refuses_after (keeps_requireContext _) (fun _ =>
    (refuses_ensureMutable hRo).bind _))

theorem refuses_prepareFileForWrite (rel : Path) : Refuses env I (prepareFileForWrite rel) :=
  refuses_after keeps_ask (fun _ => (refuses_ensureWritable hRo).bind _)

theorem refuses_setattr (hI : Untimed I) (rel : Path) (change : Setattr)
    (ctx : Option FuseContext) : Refuses env I (setattr rel change ctx) :=
  refuses_after keeps_ask (fun _ => refuses_after (keeps_requireContext _) (fun _ =>
    refuses_after (keeps_resolveExisting _) (fun _ =>
      refuses_after (keeps_ensureNotSymlink hI _) (fun _ =>
        refuses_after (keeps_metadata hI _) (fun _ =>
          refuses_after (keeps_ensureSetattrAllowed _ _ _) (fun _ =>
            Refuses.bind (refuses_after keeps_ask (fun _ =>
              (refuses_ensureWritable hRo).bind _)) _))))))

theorem refuses_write (hI : Untimed I) (rel : Path) (offset : Int) (data : Bytes)
    (ctx : Option FuseContext) : Refuses env I (write rel offset data ctx) :=
  refuses_after (keeps_requireContext _) (fun _ =>
    refuses_after (keeps_resolveExisting _) (fun _ =>
      refuses_after (keeps_ensureNotSymlink hI _) (fun _ =>
        (refuses_prepareFileForWrite hRo _).bind _)))

end Gate

/-! ## Handles -/

section Handles

variable {env : Env} {fs : HostFs}

theorem untimed_calm : Untimed (Calm env fs) := fun _ _ h => ⟨h.fs_eq, h.cached, h.reading⟩

/-- No handle of a calm world has the access that a change needs. -/
theorem refuses_cloneForWrite (path : Path) (handle : Nat) :
    Refuses env (Calm env fs) (cloneFileHandleWithPolicy path handle 0o2) := by
  refine triple_bind (triple_matchingHandle path handle .file) ?_
  intro entry
  refine triple_unreached ?_ _
  intro w hw
  have hBit := hw.1.reading handle entry hw.2.1
  have hNo : (entry.accessBits &&& 0o2 == 0o2) = false := by
    simp only [hasBit, bne_eq_false_iff_eq] at hBit
    rw [hBit]
    rfl
  unfold ensure
  rw [hNo]
  exact hw.1

theorem refuses_writeFh (path : Path) (handle : Nat) (offset : Int) (data : Bytes) :
    Refuses env (Calm env fs) (writeFh path handle offset data) := by
  refine triple_bind (triple_matchingHandle path handle .file) ?_
  intro entry
  refine triple_unreached ?_ _
  intro w hw
  unfold ensure
  rw [hw.1.reading handle entry hw.2.1]
  exact hw.1

theorem refuses_copyFileRange (input output : Path) (fhIn fhOut : Nat)
    (offsetIn offsetOut : Int) (len : Nat) :
    Refuses env (Calm env fs) (copyFileRange input output fhIn fhOut offsetIn offsetOut len) :=
  refuses_after keeps_ask (fun _ => refuses_after (keeps_ensure _ _) (fun _ =>
    refuses_after (keeps_cloneFileHandle untimed_calm _ _ _) (fun _ =>
      Refuses.bind ((refuses_cloneForWrite output fhOut).bind _) _)))

end Handles

/-! ## What the routines find in a calm world -/

section Calm

variable {env : Env} {fs : HostFs}

theorem triple_query_calm {α : Type} {f : Env → World → Except Errno α}
    {g : Except Errno α} (hg : ∀ w, w.fs = fs → f env w = g) :
    Triple env (Calm env fs) (query f) (fun a w => Calm env fs w ∧ g = .ok a) (Calm env fs) := by
  refine (triple_query untimed_calm f).post ?_
  rintro a w ⟨hw, n, hn⟩
  exact ⟨hw, (hg { w with calls := n } hw.fs_eq).symm.trans hn⟩

theorem triple_resolveExisting_calm (rel : Path) :
    Triple env (Calm env fs) (resolveExisting rel)
      (fun loc w => Calm env fs w ∧ resolve env fs rel = some loc) (Calm env fs) := by
  refine triple_bind (triple_probe _) ?_
  intro found w hw
  rw [hw.1.fs_eq] at hw
  cases found with
  | none => exact hw.1
  | some loc => exact ⟨hw.1, hw.2.symm⟩

theorem triple_symlinkMetadata_calm (loc : Loc) :
    Triple env (Calm env fs) (symlinkMetadata loc)
      (fun info w => Calm env fs w ∧ ∃ node, fs.get loc = some node ∧ info = fs.metaOf node)
      (Calm env fs) := by
  refine (triple_query_calm (g := (fs.lookup loc).map fs.metaOf) ?_).post ?_
  · rintro w rfl
    rfl
  · rintro info w ⟨hw, hInfo⟩
    refine ⟨hw, ?_⟩
    cases hl : fs.lookup loc with
    | error e =>
      rw [hl] at hInfo
      cases hInfo
    | ok node =>
      rw [hl] at hInfo
      cases hInfo
      exact ⟨node, fs.lookup_eq_ok.mp hl, rfl⟩

theorem triple_followedMetadata_calm (loc : Loc) :
    Triple env (Calm env fs) (followedMetadata loc)
      (fun info w => Calm env fs w ∧ ∃ node, fs.get loc = some node ∧
        (node.kind ≠ .symlink → info = fs.metaOf node)) (Calm env fs) := by
  refine triple_bind (triple_symlinkMetadata_calm loc) (fun linkMeta => triple_fact ?_)
  rintro ⟨node, hNode, rfl⟩
  refine triple_ite (fun hLink => ?_) (fun _ => ?_)
  · exact (keeps_metadata untimed_calm loc).post (fun _ w hw => ⟨hw, node, hNode,
      fun hk => absurd hLink hk⟩)
  · exact triple_pure (fun w hw => ⟨hw, node, hNode, fun _ => rfl⟩)

theorem triple_ensureNotSymlink_calm (loc : Loc) :
    Triple env (Calm env fs) (ensureNotSymlink loc)
      (fun _ w => Calm env fs w ∧ ∀ node, fs.get loc = some node → node.kind ≠ .symlink)
      (Calm env fs) := by
  refine triple_bind (triple_symlinkMetadata_calm loc) (fun info => triple_fact ?_)
  rintro ⟨node, hNode, rfl⟩
  refine (triple_ensure (fun _ hw => hw)).post ?_
  rintro _ w ⟨hw, hk⟩
  refine ⟨hw, fun node' hNode' => ?_⟩
  rw [hNode] at hNode'
  cases hNode'
  simpa [HostFs.metaOf] using hk

theorem triple_fileMetadata_calm (file : Node) :
    Triple env (Calm env fs) (fileMetadata file)
      (fun info w => Calm env fs w ∧ info = fs.metaOf file) (Calm env fs) := by
  refine (triple_query_calm (g := .ok (fs.metaOf file)) ?_).post ?_
  · rintro w rfl
    rfl
  · rintro info w ⟨hw, hInfo⟩
    exact ⟨hw, (Except.ok.inj hInfo).symm⟩

/-! ## Copies without a place -/

section Blocked

variable {rel : Path}

/-- A directory that cannot be made for another reason than a missing parent. -/
theorem createDirAll_run {p : Path} {w : World} {e : Errno} (he : e ≠ .enoent)
    (h : ∀ ino inode, w.fs.make ⟨.cow, p⟩ .dir ino inode = .error e) :
    (createDirAll ⟨.cow, p⟩ env w).2 = { w with calls := w.calls + 1 } ∧
      (isDirAt env w.fs ⟨.cow, p⟩ = false → ∃ e, (createDirAll ⟨.cow, p⟩ env w).1 = .error e) := by
  have hDir : ∃ e', e' ≠ .enoent ∧
      createDir ⟨.cow, p⟩ env w = (.error e', { w with calls := w.calls + 1 }) := by
    unfold createDir
    rw [ask_bind_run]
    cases hf : env.fault w.calls with
    | some fault =>
      refine ⟨fault.errno, fault.errno_ne, bind_run_error ?_⟩
      simp only [makeNode, update, hf]
    | none =>
      refine ⟨e, he, bind_run_error ?_⟩
      simp only [makeNode, update, hf, h, Except.map]
  obtain ⟨e', he', hRun⟩ := hDir
  unfold createDirAll createDirAllAux
  rw [tryCatch_run, hRun]
  simp only [probe_bind_run, if_pos he']
  cases hd : isDirAt env w.fs ⟨.cow, p⟩ with
  | true => exact ⟨rfl, fun h => nomatch h⟩
  | false => exact ⟨rfl, fun _ => ⟨e', rfl⟩⟩

variable (hB : (fs.tree .cow).blocked rel = true)

include hB

/-- Below a copy that is no directory no entry is made. -/
theorem refuses_makeNode (kind : Kind) (perm : Nat) (data : Bytes) :
    Refuses env (Calm env fs) (makeNode ⟨.cow, rel⟩ kind perm data) := by
  refine triple_update untimed_calm ?_
  intro w node fs' hw hf
  simp only [hw.fs_eq, fs.make_of_blocked hB] at hf
  cases hf

theorem refuses_createFile : Refuses env (Calm env fs) (createFile ⟨.cow, rel⟩) := by
  refine triple_update untimed_calm ?_
  intro w node fs' hw hf
  have hNone : fs.get ⟨.cow, rel⟩ = none := Tree.get_eq_none_of_blocked hB
  simp only [hw.fs_eq, hNone, fs.make_of_blocked hB] at hf
  cases hf

theorem refuses_createDirAll : Refuses env (Calm env fs) (createDirAll ⟨.cow, rel⟩) := by
  intro w hw
  have hMake : ∀ ino inode, w.fs.make ⟨.cow, rel⟩ .dir ino inode = .error .enotdir := by
    rw [hw.fs_eq]
    exact fs.make_of_blocked hB .dir
  have hNone : fs.get ⟨.cow, rel⟩ = none := Tree.get_eq_none_of_blocked hB
  have hNoDir : isDirAt env w.fs ⟨.cow, rel⟩ = false := by
    simp only [isDirAt, followNode, follow, followAux, HostFs.lookup, hw.fs_eq, hNone]
  obtain ⟨hState, hRes⟩ := createDirAll_run (by decide) hMake
  obtain ⟨e, he⟩ := hRes hNoDir
  rw [show createDirAll ⟨.cow, rel⟩ env w = (.error e, { w with calls := w.calls + 1 }) from
    Prod.ext he hState]
  exact untimed_calm w _ hw

/-- The parents of such a copy are not made either. -/
theorem keeps_createDirAll_parent :
    Keeps env (Calm env fs) (createDirAll (Loc.parent ⟨.cow, rel⟩)) := by
  rw [keeps_iff]
  intro w hw
  have hMake : ∃ e, e ≠ .enoent ∧
      ∀ ino inode, w.fs.make (Loc.parent ⟨.cow, rel⟩) .dir ino inode = .error e := by
    obtain ⟨q, rest, node, hPath, hRest, hNode, hDir⟩ := Tree.blocked_iff.mp hB
    have hd : rel.dropLast = q ++ rest.dropLast := by
      rw [hPath, List.dropLast_append_of_ne_nil hRest]
    rw [hw.fs_eq]
    by_cases hNil : rest.dropLast = []
    · rw [hNil, List.append_nil] at hd
      have hGet : fs.get (Loc.parent ⟨.cow, rel⟩) = some node := by
        rw [HostFs.get, Loc.parent, hd]
        exact hNode
      exact ⟨.eexist, by decide, fs.make_of_get hGet .dir⟩
    · exact ⟨.enotdir, by decide, fs.make_of_blocked
        (Tree.blocked_iff.mpr ⟨q, rest.dropLast, node, hd, hNil, hNode, hDir⟩) .dir⟩
  obtain ⟨e, he, hMake⟩ := hMake
  rw [Loc.parent, (createDirAll_run he hMake).1]
  exact untimed_calm w _ hw

theorem refuses_copyWithReflinkFallback (src : Loc) :
    Refuses env (Calm env fs) (copyWithReflinkFallback src ⟨.cow, rel⟩) := by
  have hOpen : Keeps env (Calm env fs) (openFile src false) := keeps_openFile untimed_calm src false
  have hSparse : Refuses env (Calm env fs) (copySparseFile src ⟨.cow, rel⟩) :=
    refuses_after hOpen (fun _ => (refuses_createFile hB).bind _)
  have hCopy : Refuses env (Calm env fs) (fsCopy src ⟨.cow, rel⟩) :=
    refuses_after hOpen (fun _ => refuses_after (keeps_fileMetadata untimed_calm _) (fun _ =>
      refuses_after (keeps_ensure _ _) (fun _ => (refuses_createFile hB).bind _)))
  have hFallback : Refuses env (Calm env fs) (copyFileFallback src ⟨.cow, rel⟩) := by
    refine refuses_after keeps_ask (fun _ => refuses_after (keeps_if ?_
      (keeps_pure _)) (fun _ => triple_if hSparse hCopy))
    exact keeps_tryCatch (keeps_query untimed_calm _) (fun _ => keeps_pure _)
  refine refuses_after keeps_ask (fun _ => triple_if ?_ hFallback)
  exact triple_tryCatch (refuses_after hOpen (fun _ => (refuses_createFile hB).bind _))
    (fun _ => hFallback)

theorem refuses_copyUpEmptyFileForTruncate (hCow : env.layout.cowRoot = true) :
    Refuses env (Calm env fs) (copyUpEmptyFileForTruncate rel) := by
  have hStat : Refuses env (Calm env fs) (lstat ⟨.cow, rel⟩) := by
    intro w hw
    have hNone : fs.get ⟨.cow, rel⟩ = none := Tree.get_eq_none_of_blocked hB
    have hRun : ∃ e, e ≠ .enoent ∧
        symlinkMetadata ⟨.cow, rel⟩ env w = (.error e, { w with calls := w.calls + 1 }) := by
      cases hf : env.fault w.calls with
      | some fault => exact ⟨fault.errno, fault.errno_ne, by simp only [symlinkMetadata, query, hf]⟩
      | none =>
        refine ⟨.enotdir, by decide, ?_⟩
        simp only [symlinkMetadata, query, hf, HostFs.lookup, hw.fs_eq, hNone, hB, if_true,
          Except.map]
    obtain ⟨e, he, hRun⟩ := hRun
    unfold lstat
    rw [tryCatch_run, bind_run_error hRun]
    simp only [if_neg he]
    exact untimed_calm w _ hw
  refine triple_ask ?_
  rw [overlayPath, if_pos hCow]
  exact hStat.bind _

/-- A copy-up without a place for the copy changes nothing. -/
theorem keeps_copyUpNode_of_blocked : Keeps env (Calm env fs) (copyUpNode rel) := by
  have hLink : ∀ src info, Refuses env (Calm env fs) (copyLink src ⟨.cow, rel⟩ info) :=
    fun src info => refuses_after (keeps_query untimed_calm _) (fun _ =>
      ((refuses_makeNode hB _ _ _).bind _).bind _)
  have hDir : ∀ src info, Refuses env (Calm env fs) (copyDirNode src ⟨.cow, rel⟩ info) :=
    fun src info => (refuses_createDirAll hB).bind _
  have hRegular : ∀ src info, Refuses env (Calm env fs) (copyRegular src ⟨.cow, rel⟩ info) :=
    fun src info => (refuses_copyWithReflinkFallback hB src).bind _
  refine triple_ask ?_
  unfold overlayPath
  split
  · exact keeps_throw _
  · rename_i overlay hOverlay
    split at hOverlay
    · cases hOverlay
      refine keeps_bind (keeps_probe _) (fun present => keeps_if (keeps_pure _)
        ?_)
      split
      · exact keeps_pure _
      · refine keeps_bind (keeps_probe _) fun inBacking =>
          keeps_if (keeps_pure _)
            (
              keeps_bind (keeps_symlinkMetadata untimed_calm _) fun info =>
              keeps_seq (keeps_createDirAll_parent hB) <|
              Refuses.keeps (Refuses.bind ?_ _))
        split
        · exact hLink _ _
        · exact hDir _ _
        · exact hRegular _ _
    · cases hOverlay

end Blocked

/-! ## Changes through a handle -/

variable {ctx : FuseContext} {path rel : Path} {kind : HandleKind} {flags : Nat} {request : Request}

theorem refuses_applyHandleSetattr {file : Node} {bits : Nat} {change : Setattr}
    (h : ChangeRefused (fs.metaOf file) ctx change) :
    Refuses env (Calm env fs) (applyHandleSetattr file bits change ctx) := by
  refine triple_bind (triple_fileMetadata_calm file) (fun info => triple_fact ?_)
  rintro rfl
  rcases h with ⟨hMode, hOwner⟩ | ⟨hIds, hOwner⟩
  · refine Refuses.bind ?_ _
    unfold onlyIf
    rw [if_pos hMode]
    exact refuses_ensure hOwner
  · refine refuses_after (keeps_onlyIf (fun _ => keeps_ensure _ _)) (fun _ => Refuses.bind ?_ _)
    unfold onlyIf
    rw [if_pos hIds]
    exact refuses_ensure hOwner

theorem setattrFh_calm {handle : Nat} {change : Setattr} :
    Triple env (fun w => Calm env fs w ∧ Gated env (.setattrFh path handle change (some ctx)) w)
      (setattrFh path handle change ctx)
      (fun _ w => Calm env fs w ∧ ¬ (change.permissions = true ∨ change.size.isSome = true))
      (Calm env fs) := by
  cases hSize : change.size with
  | some size =>
    unfold setattrFh
    rw [hSize]
    refine triple_conseq ((refuses_cloneForWrite path handle).bind _) (fun _ hw => hw.1)
      (fun _ _ hw => hw.elim) (fun _ hw => hw)
  | none =>
    unfold setattrFh
    rw [hSize]
    have hJ : Untimed (fun w => Calm env fs w ∧
        Gated env (.setattrFh path handle change (some ctx)) w) :=
      fun w n hw => ⟨untimed_calm w n hw.1, hw.2⟩
    have hClone : Triple env (fun w => Calm env fs w ∧
        Gated env (.setattrFh path handle change (some ctx)) w)
        (cloneFileHandleWithPolicy path handle 0)
        (fun cloned w => Calm env fs w ∧ (change.permissions = true →
          cloned.2.2 = true ∨ ChangeRefused (fs.metaOf cloned.1) ctx change)) (Calm env fs) := by
      refine triple_imp (triple_cloneFileHandleWithPolicy hJ path handle 0) ?_ (fun _ hw => hw.1)
      rintro cloned w ⟨⟨hCalm, hGate⟩, entry, hl, hm, hFile, -, -, hBlocked⟩
      refine ⟨hCalm, fun hPerm => ?_⟩
      have hGate' := hGate hPerm hSize entry cloned.1 hl hm hFile
      rw [hBlocked, hCalm.fs_eq] at hGate'
      exact hGate'
    refine triple_learn hClone (fun cloned hRefused => ?_)
    obtain ⟨file, bits, blocked⟩ := cloned
    refine triple_learn (triple_ensure (fun _ hw => hw)) (fun _ hFree => ?_)
    by_cases hPerm : change.permissions = true
    · have hRef : ChangeRefused (fs.metaOf file) ctx change := by
        refine (hRefused hPerm).resolve_left ?_
        rintro hb
        simp only at hb
        rw [hPerm, hb] at hFree
        cases hFree
      exact (refuses_applyHandleSetattr hRef).post (fun _ _ hw => hw.elim)
    · refine (keeps_applyHandleSetattr_idle untimed_calm (by simpa using hPerm)
        (.inl hSize)).post (fun _ w hw => ⟨hw, ?_⟩)
      simp [hPerm]

/-! ## Opening -/

theorem keeps_allocateHandle {bits : Nat} {blocked : Bool} {file : Option Node}
    (hb : hasBit bits 0o2 = false) :
    Keeps env (Calm env fs) (allocateHandle path kind bits blocked file) := by
  refine keeps_bind (keeps_state _) (fun next => keeps_map (keeps_change ?_))
  intro w hw
  refine ⟨hw.fs_eq, hw.cached, ?_⟩
  intro fh entry hl
  rw [Dict.lookup_insert_eq] at hl
  split at hl
  · cases hl
    exact hb
  · exact hw.reading fh entry hl

/-- Opening for reading adds a handle that may not write. -/
theorem keeps_openExisting {object : ResolvedObject}
    (h : kind = .file → ∀ bits, openAccessBits flags = .ok bits → hasBit bits 0o2 = false) :
    Keeps env (Calm env fs) (openExisting object kind flags ctx) := by
  refine keeps_bind (keeps_followedMetadata untimed_calm _) (fun info =>
    keeps_then (keeps_ensureKind _ _) ?_)
  cases kind with
  | dir =>
    exact keeps_ensured <| keeps_seq (keeps_openFile untimed_calm _ _) <|
      keeps_map (keeps_allocateHandle rfl)
  | file =>
    refine keeps_then (keeps_ensureRegularFile _) ?_
    refine triple_bind (triple_ensureOpenFlagsAllowed _ _ _ _) (fun bits =>
      triple_fact fun ⟨hBits, _⟩ => ?_)
    have hRead := h rfl bits hBits
    refine keeps_bind (keeps_openFile untimed_calm _ _) (fun file => ?_)
    rw [not_truncating hBits hRead]
    exact keeps_seq (keeps_pure _) <| keeps_seq (keeps_fileMetadata untimed_calm _) <|
      keeps_map (keeps_allocateHandle hRead)

/-- An open for writing is refused: with `O_TRUNC` and a copy-on-write root by the checks,
otherwise by the gate. -/
theorem openFileTarget_calm (hRo : isWritable env = false) {loc : Loc} {info : Meta}
    (hLoc : resolve env fs path = some loc)
    (hInfo : ∃ node, fs.get loc = some node ∧ (node.kind ≠ .symlink → info = fs.metaOf node))
    (hGate : TruncateRefused env fs path flags ctx) :
    Triple env (Calm env fs) (openFileTarget path loc info flags ctx)
      (fun _ w => Calm env fs w ∧ ∃ bits, openAccessBits flags = .ok bits ∧
        hasBit bits 0o2 = false) (Calm env fs) := by
  obtain ⟨node, hNode, hMeta⟩ := hInfo
  refine triple_ask ?_
  refine triple_learn (triple_ensureRegularFile info) (fun _ hKind => ?_)
  refine triple_bind (triple_ensureOpenFlagsAllowed _ _ _ _) (fun bits => triple_fact ?_)
  rintro ⟨hBits, hAllowed⟩
  refine triple_ite (fun _ => ?_) (fun hRead => ?_)
  · refine triple_learn (triple_ensureNotSymlink_calm loc) (fun _ hNot => ?_)
    have hEq := hMeta (hNot node hNode)
    refine triple_ite (fun hTrunc => ?_) (fun _ => ?_)
    · rw [Bool.and_eq_true] at hTrunc
      rw [hEq] at hKind hAllowed
      rcases (hGate hTrunc.1 hTrunc.2).2 bits loc node hBits hLoc hNode hKind with hB | hDenied
      · exact triple_unreached (refuses_copyUpEmptyFileForTruncate hB hTrunc.2) _
      · rw [hDenied] at hAllowed
        cases hAllowed
    · exact (refuses_prepareFileForWrite hRo path).post (fun _ _ hw => hw.elim)
  · exact triple_pure (fun w hw => ⟨hw, bits, hBits, by simpa using hRead⟩)

theorem openOp_calm (hRo : isWritable env = false) {ctx : Option FuseContext}
    (hGate : kind = .file → ∀ c, ctx = some c → TruncateRefused env fs path flags c) :
    Triple env (Calm env fs) (openOp path kind flags ctx)
      (fun _ w => Calm env fs w ∧ ¬ Mutating (.openAt path kind flags ctx)) (Calm env fs) := by
  refine triple_ask ?_
  refine triple_learn (triple_requireContext ctx) (fun c hCtx => ?_)
  refine triple_learn (triple_resolveExisting_calm path) (fun loc hLoc => ?_)
  refine triple_learn (triple_followedMetadata_calm loc) (fun info hInfo => ?_)
  refine triple_then (keeps_ensureKind kind info) ?_
  cases kind with
  | dir =>
    refine triple_bind (keeps_ensured (keeps_pure _)) (fun target => ?_)
    exact Triple.post (keeps_openExisting (fun h => nomatch h))
      (fun _ w hw => ⟨hw, id⟩)
  | file =>
    refine triple_bind (openFileTarget_calm hRo hLoc hInfo (hGate rfl c hCtx))
      (fun target => triple_fact ?_)
    rintro ⟨bits, hBits, hRead⟩
    refine (keeps_openExisting ?_).post ?_
    · intro _ bits' hBits'
      rw [hBits] at hBits'
      cases hBits'
      exact hRead
    · intro _ w hw
      refine ⟨hw, fun hMut => ?_⟩
      rw [hMut bits hBits] at hRead
      cases hRead

/-! ## Extended attributes -/

theorem triple_loadTable_calm (key : Nat) :
    Triple env (Calm env fs) (loadTable key)
      (fun table w => Calm env fs w ∧ table = storedTable env fs key) (Calm env fs) := by
  have hManifest : Triple env (Calm env fs) (loadManifest key)
      (fun table w => Calm env fs w ∧ table = storedTable env fs key) (Calm env fs) := by
    refine triple_bind (triple_probe _) ?_
    intro found w hw
    rw [hw.1.fs_eq] at hw
    unfold storedTable
    cases found with
    | none =>
      rw [← hw.2]
      exact ⟨hw.1, rfl⟩
    | some manifest =>
      rw [← hw.2]
      refine (triple_query_calm (g := .ok (manifestTable manifest)) ?_).post ?_ w hw.1
      · intro _ _
        rfl
      · rintro table w' ⟨hw', ht⟩
        exact ⟨hw', (Except.ok.inj ht).symm⟩
  refine triple_bind triple_state ?_
  intro cached w hw
  cases cached with
  | some table => exact ⟨hw.1, hw.1.cached key table hw.2.symm⟩
  | none =>
    refine triple_bind hManifest (fun table => triple_fact ?_) w hw.1
    rintro rfl
    refine triple_bind (Q := fun _ => Calm env fs) ?_ (fun _ => triple_pure (fun w hw => ⟨hw, rfl⟩))
    refine keeps_change (fun w hw => ⟨hw.fs_eq, ?_, hw.reading⟩)
    intro key' table h
    rw [Dict.lookup_insert_eq] at h
    split at h
    · rename_i hk
      cases h
      rw [hk]
    · exact hw.cached key' table h

/-- The object whose attributes are to change is not found, or the change is refused. -/
theorem materializeForXattr_calm {updateRefused : Loc → Prop}
    (h : XattrRefused env fs rel updateRefused) :
    Triple env (Calm env fs) (materializeForXattr rel)
      (fun loc w => Calm env fs w ∧
        (xattrUpdatesBlocked env loc = true ∨ updateRefused loc)) (Calm env fs) := by
  replace h := h.2
  refine triple_ask ?_
  refine triple_ite (fun hCow => ?_) (fun hCow => ?_)
  · rw [if_pos hCow] at h
    -- in all cases the copy-up itself does nothing
    have hCopy : Keeps env (Calm env fs) (copyUpNode rel) := by
      rcases h with h | hB | h
      on_goal 2 => exact keeps_copyUpNode_of_blocked hB
      all_goals
        refine triple_ask ?_
        rw [overlayPath, if_pos hCow]
        refine triple_bind (triple_probe _) ?_
        intro present w hw
        rw [hw.1.fs_eq] at hw
      · obtain ⟨hNone, hBack⟩ := h
        rw [hw.2, hNone]
        refine triple_ite (fun hp => by cases hp) (fun _ => ?_) w hw.1
        unfold backingPath
        by_cases hb : env.layout.backingRoot = true
        · rw [if_pos hb]
          refine triple_bind (triple_probe _) ?_
          intro inBacking w' hw'
          rw [hw'.1.fs_eq, hBack hb] at hw'
          rw [hw'.2]
          exact hw'.1
        · rw [if_neg hb]
          exact keeps_pure _
      · rw [hw.2, h.1]
        exact hw.1
    refine triple_seq hCopy (triple_bind (triple_probe _) ?_)
    intro present w hw
    rw [hw.1.fs_eq] at hw
    rcases h with ⟨hNone, -⟩ | hB | ⟨hSome, hRef⟩
    · rw [hw.2, hNone]
      exact hw.1
    · rw [hw.2, show fs.get ⟨.cow, rel⟩ = none from Tree.get_eq_none_of_blocked hB]
      exact hw.1
    · rw [hw.2, hSome]
      exact ⟨hw.1, .inr hRef⟩
  · rw [if_neg hCow] at h
    refine (triple_resolveExisting_calm rel).post ?_
    rintro loc w ⟨hw, hLoc⟩
    refine ⟨hw, (h loc hLoc).imp_left fun hNo => ?_⟩
    -- without a copy-on-write root the object is in the backing tree
    have hBacking : backingPath env rel = some loc := by
      unfold resolve at hLoc
      split at hLoc
      · cases hLoc
      · rw [overlayPath, if_neg hCow, Option.filter_none, Option.none_or] at hLoc
        exact (Option.filter_eq_some_iff.mp hLoc).1
    unfold backingPath at hBacking
    split at hBacking
    · rename_i hb
      cases hBacking
      simp [xattrUpdatesBlocked, isBackingPath, hNo, hb]
    · cases hBacking

/-- An update of a manifest that the current table does not admit. -/
theorem refuses_updateTable {loc : Loc} {f : XattrTable → Except Errno XattrTable}
    (h : ∀ node, fs.get loc = some node → ∃ e, f (storedTable env fs node.ino) = .error e) :
    Refuses env (Calm env fs) (do
      let key ← keyForPath loc
      updateTable key f) := by
  have hKey : Triple env (Calm env fs) (keyForPath loc) (fun key w => Calm env fs w ∧
      ∃ node, fs.get loc = some node ∧ key = node.ino) (Calm env fs) := by
    refine triple_bind (triple_symlinkMetadata_calm loc) (fun info => triple_pure ?_)
    rintro w ⟨hw, node, hNode, rfl⟩
    exact ⟨hw, node, hNode, rfl⟩
  refine triple_bind hKey (fun key => triple_fact ?_)
  rintro ⟨node, hNode, rfl⟩
  refine triple_bind (triple_loadTable_calm node.ino) (fun table => triple_fact ?_)
  rintro rfl
  obtain ⟨e, he⟩ := h node hNode
  rw [he]
  exact fun w hw => hw

theorem refuses_setxattr {name value : Bytes}
    (h : XattrRefused env fs rel (SetRefused env fs name flags)) :
    Refuses env (Calm env fs) (setxattr rel name value flags) := by
  refine triple_ask ?_
  refine triple_learn (materializeForXattr_calm h) (fun loc hRef => ?_)
  refine triple_learn (triple_ensure (fun _ hw => hw)) (fun _ hFree => ?_)
  replace hRef := hRef.resolve_left (by simpa using hFree)
  unfold SetRefused at hRef
  refine triple_ite (fun hAcl => ?_) (fun hAcl => refuses_updateTable fun node hNode => ?_)
  · rw [if_pos hAcl] at hRef
    refine triple_update untimed_calm ?_
    intro w a fs' hw hf
    simp only [nodeAt, if_true, hw.fs_eq] at hf
    cases hn : followNode env fs loc with
    | error e => simp [hn] at hf
    | ok node =>
      obtain ⟨e, he⟩ := hRef node hn
      simp only [hn] at hf
      rw [he] at hf
      cases hf
  · rw [if_neg hAcl] at hRef
    obtain ⟨e, he⟩ := hRef node hNode
    exact ⟨e, by rw [he]; rfl⟩

theorem refuses_removexattr {name : Bytes} (h : XattrRefused env fs rel
    (RemoveRefused env fs name)) :
    Refuses env (Calm env fs) (removexattr rel name) := by
  refine triple_ask ?_
  refine triple_learn (materializeForXattr_calm h) (fun loc hRef => ?_)
  refine triple_learn (triple_ensure (fun _ hw => hw)) (fun _ hFree => ?_)
  replace hRef := hRef.resolve_left (by simpa using hFree)
  unfold RemoveRefused at hRef
  refine triple_ite (fun hAcl => ?_) (fun hAcl => refuses_updateTable fun node hNode => ?_)
  · rw [if_pos hAcl] at hRef
    refine triple_update untimed_calm ?_
    intro w a fs' hw hf
    simp only [hw.fs_eq] at hf
    cases hn : followNode env fs loc with
    | error e => simp [hn] at hf
    | ok node =>
      simp only [hn] at hf
      rw [hRef node hn] at hf
      cases hf
  · rw [if_neg hAcl] at hRef
    refine ⟨.enodata, ?_⟩
    rw [hRef node hNode]
    rfl

/-! ## All requests -/

theorem stable_calm : Stable env (Calm env fs) where
  untimed := untimed_calm
  loaded key := (triple_loadTable_calm key).post (fun _ _ hw => hw.1)
  locked _ _ _ h _ := ⟨h.fs_eq, h.cached, h.reading⟩
  released w fh h := by
    refine ⟨h.fs_eq, h.cached, fun fh' entry hl => ?_⟩
    rw [Dict.lookup_erase_eq] at hl
    split at hl
    · cases hl
    · exact h.reading fh' entry hl
  sought w fh entry offset h hl := by
    refine ⟨h.fs_eq, h.cached, fun fh' entry' hl' => ?_⟩
    rw [Dict.lookup_insert_eq] at hl'
    split at hl'
    · cases hl'
      exact h.reading fh entry hl
    · exact h.reading fh' entry' hl'

theorem calm_of_refuses {α : Type} {f : α → Response} {x : Op α}
    (h : ∀ w, Gated env request w → w.fs = fs → Refuses env (Calm env fs) x) :
    Triple env (fun w => Calm env fs w ∧ Gated env request w) (respond f x)
      (fun _ w => Calm env fs w ∧ ¬ Mutating request) (Calm env fs) := by
  intro w hw
  exact ((h w hw.2 hw.1.fs_eq).bind _).post (fun _ _ hw => hw.elim) w hw.1

/-- A calm world stays calm, and a request to change something fails. -/
theorem exec_calm (hRo : isWritable env = false) (request : Request) :
    Triple env (fun w => Calm env fs w ∧ Gated env request w) (exec request)
      (fun _ w => Calm env fs w ∧ ¬ Mutating request) (Calm env fs) := by
  have hU : Untimed (Calm env fs) := untimed_calm
  cases request with
  | setattr path change ctx =>
    exact calm_of_refuses (fun _ _ _ => refuses_setattr hRo hU path change ctx)
  | setxattr path name value flags =>
    refine calm_of_refuses (fun w hg hfs => refuses_setxattr ?_)
    rw [← hfs]
    exact hg
  | removexattr path name =>
    refine calm_of_refuses (fun w hg hfs => refuses_removexattr ?_)
    rw [← hfs]
    exact hg
  | mkdir path mode ctx => exact calm_of_refuses (fun _ _ _ => refuses_gated hRo ctx _)
  | unlink path ctx => exact calm_of_refuses (fun _ _ _ => refuses_gated hRo ctx _)
  | rmdir path ctx => exact calm_of_refuses (fun _ _ _ => refuses_gated hRo ctx _)
  | rename source target ctx => exact calm_of_refuses (fun _ _ _ => refuses_gated hRo ctx _)
  | create path mode flags ctx => exact calm_of_refuses (fun _ _ _ => refuses_gated hRo ctx _)
  | mknod path mode ctx => exact calm_of_refuses (fun _ _ _ => refuses_gated hRo ctx _)
  | link source target ctx => exact calm_of_refuses (fun _ _ _ => refuses_gated hRo ctx _)
  | symlink path target ctx =>
    exact calm_of_refuses fun _ _ _ =>
      refuses_after (keeps_requireContext _) fun _ => (refuses_ensureMutable hRo).bind _
  | openAt path kind flags ctx =>
    intro w hw
    have hGate : kind = .file → ∀ c, ctx = some c → TruncateRefused env fs path flags c := by
      rintro rfl c rfl
      rw [← hw.1.fs_eq]
      exact hw.2
    exact triple_seq (openOp_calm hRo hGate) (triple_done) w hw.1
  | write path offset data ctx =>
    exact calm_of_refuses (fun _ _ _ => refuses_write hRo hU path offset data ctx)
  | writeFh path handle offset data ctx =>
    exact calm_of_refuses (fun _ _ _ => refuses_after (keeps_requireContext _) (fun _ =>
      refuses_writeFh path handle offset data))
  | setattrFh path handle change ctx =>
    refine triple_seq ?_ (triple_done)
    cases ctx with
    | none => exact fun w hw => hw.1
    | some ctx => exact setattrFh_calm
  | copyFileRange input output fhIn fhOut offsetIn offsetOut len ctx =>
    exact calm_of_refuses (fun _ _ _ => refuses_after (keeps_requireContext _) (fun _ =>
      refuses_copyFileRange input output fhIn fhOut offsetIn offsetOut len))
  | fallocate path handle offset length mode =>
    exact calm_of_refuses fun _ _ _ => refuses_after (keeps_ensure _ _) fun _ =>
      Refuses.bind ((refuses_cloneForWrite path handle).bind _) _
  | _ =>
    exact triple_conseq (keeps_exec_of_looking stable_calm trivial) (fun _ hw => hw.1)
      (fun _ _ hw => ⟨hw, id⟩) (fun _ hw => hw)

theorem step_calm (hRo : isWritable env = false) {w : World} (hw : Calm env fs w)
    (hGate : Gated env request w) : Calm env fs (step env request w) := by
  have hRun := exec_calm hRo request w ⟨hw, hGate⟩
  unfold step
  rcases hr : exec request env w with ⟨e | a, w'⟩
  · rw [hr] at hRun
    exact hRun
  · rw [hr] at hRun
    exact hRun.1

theorem exec_error_of_mutating (hRo : isWritable env = false) {w : World} (hw : Calm env fs w)
    (hGate : Gated env request w) (hm : Mutating request) :
    ∃ e, (exec request env w).1 = .error e := by
  have hRun := exec_calm hRo request w ⟨hw, hGate⟩
  rcases hr : exec request env w with ⟨e | a, w'⟩
  · exact ⟨e, rfl⟩
  · rw [hr] at hRun
    exact absurd hm hRun.2

end Calm

/-! ## Answers -/

/-- The requests for information about paths. -/
def Informing : Request → Prop
  | .stat .. | .listDir .. | .read .. | .getxattr .. | .listxattr .. => True
  | _ => False

section Answers

variable {env : Env} {fs : HostFs}

theorem fixed_calm : Fixed fs (Calm env fs) := ⟨untimed_calm, fun _ hw => hw.fs_eq⟩

/-- With a calm cache it makes no difference whether a table is cached. -/
theorem reports_loadTable_calm (hQuiet : ∀ n, env.fault n = none) (key : Nat) :
    Reports env (Calm env fs) (loadTable key) (.ok (storedTable env fs key)) := by
  intro w hw
  have hOk : ∃ table, (loadTable key env w).1 = .ok table := by
    unfold loadTable
    rw [bind_run, state_run]
    cases w.cache.lookup key with
    | some table => exact ⟨table, rfl⟩
    | none =>
      simp only [loadManifest, bind_run, probe_run]
      cases manifestAt env w.fs key with
      | none => exact ⟨_, rfl⟩
      | some manifest =>
        simp only [query, hQuiet]
        exact ⟨_, rfl⟩
  obtain ⟨table, hTable⟩ := hOk
  have hRun : loadTable key env w = (.ok table, (loadTable key env w).2) := Prod.ext hTable rfl
  have hKeep := triple_loadTable_calm key w hw
  rw [hRun] at hKeep ⊢
  exact ⟨congrArg _ hKeep.2, hKeep.1⟩

theorem determined_exec_calm (hQuiet : ∀ n, env.fault n = none) {request : Request}
    (h : Informing request) : Determined env (Calm env fs) (exec request) := by
  have hI : Fixed fs (Calm env fs) := fixed_calm
  have hTable : ∀ key, Determined env (Calm env fs) (loadTable key) :=
    fun key => ⟨_, reports_loadTable_calm hQuiet key⟩
  have hRespond : ∀ {α : Type} {f : α → Response} {x : Op α},
      Determined env (Calm env fs) x → Determined env (Calm env fs) (respond f x) :=
    fun hx => determined_bind hx (fun _ => determined_pure _)
  cases request with
  | stat path => exact hRespond (determined_stat hQuiet hI path)
  | listDir path => exact hRespond (determined_listDir hQuiet hI path)
  | read path offset size ctx => exact hRespond (determined_read hQuiet hI path offset size ctx)
  | getxattr path name size =>
    exact hRespond (determined_getxattr hQuiet hI hTable path name size)
  | listxattr path => exact hRespond (determined_listxattr hQuiet hI hTable path)
  | _ => exact h.elim

end Answers

/-- A mount of a backing tree alone, where a file is opened and read and four requests to
change something are refused. -/
def readOnlyRequests : List Request :=
  [.openAt [nameOf "f"] .file 0 superuser, .write [nameOf "f"] 0 [1] superuser,
    .setxattr [nameOf "f"] (nameOf "user.a") [1] 0, .mkdir [nameOf "d"] 0o755 superuser,
    .unlink [nameOf "f"] superuser]

def readOnlyEnv : Env := { sampleEnv with layout := ⟨true, false, false⟩ }

end FabricFs.Overlay
