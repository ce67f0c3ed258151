import FabricFs.Host.Effects
import FabricFs.Overlay.Rules

/-!
# Rules for routines that change objects

An invariant rarely depends on everything. When it does not depend on what an inode holds
(`Free`, `FreeAt`) nor on the attribute store (`Passive`), it is kept by every routine that
works on that inode, and a copy keeps it when making the new name does. The rules here are
stated for all such invariants, from the calls on open files over the copies of single
objects up to the tombstones.
-/

namespace FabricFs.Overlay

open Lib Lib.Prog Server List HostFs Prod Except

/-- What the inode holds does not matter. -/
def Free (I : World → Prop) (ino : Nat) : Prop :=
  ∀ w f, I w → I { w with fs := w.fs.modifyInode ino f }

/-- What the object at a path holds does not matter. -/
def FreeAt (env : Env) (I : World → Prop) (loc : Loc) (followLink : Bool) : Prop :=
  ∀ w node f, I w → nodeAt env w.fs loc followLink = .ok node →
    I { w with fs := w.fs.modifyInode node.ino f }

/-- Neither the number of calls nor the attribute store matters. -/
structure Passive (I : World → Prop) : Prop where
  untimed : Untimed I
  manifest : ∀ w ino table, I w → I { w with fs := w.fs.setManifest ino table }
  cache : ∀ w cache, I w → I { w with cache := cache }

variable {env : Env} {I : World → Prop} {α : Type}

/-! ## New names -/

variable {loc : Loc}

/-- A new object has been made at a path. -/
structure Made (w : World) (loc : Loc) (node : Node) (inode : Inode) (fs' : HostFs) : Prop where
  entered : HostFs.Entered w.fs loc node fs'
  inode_eq : ∀ i, fs'.inode i = if i = node.ino then inode else w.fs.inode i
  fresh : node.ino ∉ w.fs.inos ++ w.openInos

theorem triple_makeNode {Q : Node → World → Prop} (hI : Untimed I) {kind : Kind} {perm : Nat}
    {data : Bytes}
    (h : ∀ w node fs', I w → node.kind = kind → Made w loc node ⟨perm, env.euid, env.egid, data, ∅⟩
      fs' → Q node { w with fs := fs', calls := w.calls + 1 }) :
    Triple env I (makeNode loc kind perm data) Q I := by
  refine triple_update hI ?_
  intro w node fs' hw hf
  obtain ⟨fs'', hMake, hEq⟩ := map_eq_ok.mp hf
  cases hEq
  obtain ⟨hEntered, hInode⟩ := make_ok hMake
  exact h w _ _ hw rfl ⟨hEntered, hInode, w.fs.freshIno_notMem _ _⟩

theorem keeps_createDir (hI : Untimed I)
    (h : ∀ w node fs', I w → node.kind = .dir → Made w loc node ⟨maskOff 0o777 env.processUmask,
      env.euid, env.egid, [], ∅⟩ fs' → I { w with fs := fs' }) : Keeps env I (createDir loc) :=
  triple_ask (triple_seq (triple_makeNode hI (Q := fun _ w => I w)
    fun w node fs' hw hk hm => hI _ _ (h w node fs' hw hk hm)) (keeps_pure _))

theorem keeps_makeSymlink (hI : Untimed I) {target : Bytes}
    (h : ∀ w node fs', I w → node.kind = .symlink → Made w loc node ⟨0o777, env.euid, env.egid,
      target, ∅⟩ fs' → I { w with fs := fs' }) :
    Keeps env I (makeSymlink target loc) :=
  triple_seq (triple_makeNode hI (Q := fun _ w => I w)
    fun w node fs' hw hk hm => hI _ _ (h w node fs' hw hk hm)) (keeps_pure _)

/-- A file is made, or the one that the path leads to is emptied. -/
theorem triple_createFile {Q : Node → World → Prop} (hI : Untimed I)
    (hNew : ∀ w node fs', I w → node.kind = .file → Made w loc node ⟨maskOff 0o666
      env.processUmask, env.euid, env.egid, [], ∅⟩ fs' → Q node { w with fs := fs', calls :=
      w.calls + 1 })
    (hOld : ∀ w node, I w → (w.fs.get loc).isSome = true → followNode env w.fs loc = .ok node →
      node.isDir = false → Q node { w with fs := w.fs.setLen node.ino 0, calls := w.calls + 1 }) :
    Triple env I (createFile loc) Q I := by
  refine triple_update hI ?_
  intro w file fs' hw hf
  split at hf
  · obtain ⟨fs'', hMake, hEq⟩ := map_eq_ok.mp hf
    cases hEq
    obtain ⟨hEntered, hInode⟩ := make_ok hMake
    exact hNew w _ _ hw rfl ⟨hEntered, hInode, w.fs.freshIno_notMem _ _⟩
  · rename_i found hFound
    split at hf
    · cases hf
    · rename_i node hNode
      split at hf
      · cases hf
      · rename_i hDir
        cases hf
        exact hOld w file hw (by rw [hFound]; rfl) hNode (by simpa using hDir)

/-- The file that `createFile` yields may be changed freely, as long as what is then known
about it is kept. -/
def Creates (env : Env) (I : World → Prop) (loc : Loc) : Prop :=
  ∃ J : Node → World → Prop, Triple env I (createFile loc) J I ∧
    ∀ file, Untimed (J file) ∧ Free (J file) file.ino ∧ ∀ w, J file w → I w

/-- A new name whose inode is free, and a path that only leads to such inodes. -/
theorem creates_of (hI : Untimed I)
    (hAt : ∀ w node, I w → followNode env w.fs loc = .ok node → Free I node.ino)
    (h : ∀ w node fs', I w → node.kind = .file → Made w loc node ⟨maskOff 0o666 env.processUmask,
      env.euid, env.egid, [], ∅⟩ fs' → I { w with fs := fs' } ∧ Free I node.ino) :
    Creates env I loc := by
  refine ⟨fun file w => I w ∧ Free I file.ino, ?_, fun file =>
    ⟨fun w n hw => ⟨hI w n hw.1, hw.2⟩, fun w f hw => ⟨hw.2 w f hw.1, hw.2⟩, fun _ hw => hw.1⟩⟩
  refine triple_createFile hI (fun w node fs' hw hk hm => ?_) (fun w node hw _ hn _ => ?_)
  · obtain ⟨hw', hFree⟩ := h w node fs' hw hk hm
    exact ⟨hI _ _ hw', hFree⟩
  · have hFree : Free I node.ino := hAt w node hw hn
    exact ⟨hI { w with fs := w.fs.setLen node.ino 0 } _ (hFree w _ hw), hFree⟩

theorem Creates.keeps (h : Creates env I loc) : Keeps env I (createFile loc) := by
  obtain ⟨J, hMake, hJ⟩ := h
  exact hMake.post (fun file w hw => (hJ file).2.2 w hw)

/-! ## Attributes by path -/

section Paths

variable {loc : Loc} (hI : Untimed I)

include hI

variable {followLink : Bool}

/-- A call that changes the inode of a path. -/
theorem keeps_modifyAt (hAt : FreeAt env I loc followLink)
    {f : Env → World → Except Errno (α × HostFs)}
    (h : ∀ w a fs', f env w = .ok (a, fs') → ∃ node g, nodeAt env w.fs loc followLink = .ok node ∧
      fs' = w.fs.modifyInode node.ino g) :
    Keeps env I (update f) := by
  refine keeps_update hI ?_
  intro w a fs' hw hf
  obtain ⟨node, g, hNode, rfl⟩ := h w a fs' hf
  exact hAt w node g hw hNode

theorem keeps_setPermissions (hAt : FreeAt env I loc true) (mode : Nat) :
    Keeps env I (setPermissions loc mode) := by
  refine keeps_modifyAt hI hAt fun w a fs' hf => ?_
  obtain ⟨node, hNode, hEq⟩ := map_eq_ok.mp hf
  exact ⟨node, _, hNode, (mk.inj hEq).2.symm⟩

theorem keeps_chown (hAt : FreeAt env I loc followLink) (uid gid : Nat) :
    Keeps env I (chown loc uid gid followLink) := by
  refine keeps_modifyAt hI hAt fun w a fs' hf => ?_
  obtain ⟨node, hNode, hEq⟩ := map_eq_ok.mp hf
  exact ⟨node, _, hNode, (mk.inj hEq).2.symm⟩

theorem keeps_setXattr (hAt : FreeAt env I loc followLink) (name value : Bytes) (flags : Nat) :
    Keeps env I (setXattr loc name value flags followLink) := by
  refine keeps_modifyAt hI hAt fun w a fs' hf => ?_
  split at hf
  · cases hf
  · rename_i node hNode
    obtain ⟨-, -, hEq⟩ := map_eq_ok.mp hf
    exact ⟨node, _, hNode, (mk.inj hEq).2.symm⟩

theorem keeps_removeXattr (hAt : FreeAt env I loc true) (name : Bytes) :
    Keeps env I (removeXattr loc name) := by
  refine keeps_modifyAt hI hAt fun w a fs' hf => ?_
  split at hf
  · cases hf
  · rename_i node hNode
    split at hf
    · exact ⟨node, _, hNode, (mk.inj (ok.inj hf)).2.symm⟩
    · cases hf

end Paths

/-! ## Open files -/

section Files

variable {file : Node} (hI : Untimed I) (hFile : Free I file.ino)

include hI hFile

theorem keeps_modify {f : Env → World → Except Errno (α × HostFs)}
    (h : ∀ w a fs', f env w = .ok (a, fs') → ∃ g, fs' = w.fs.modifyInode file.ino g) :
    Keeps env I (update f) := by
  refine keeps_update hI ?_
  intro w a fs' hw hf
  obtain ⟨g, rfl⟩ := h w a fs' hf
  exact hFile w g hw

theorem keeps_setLen (size : Nat) : Keeps env I (setLen file size) :=
  keeps_modify hI hFile (fun _ _ _ h => ⟨_, (mk.inj (ok.inj h)).2.symm⟩)

theorem keeps_fchmod (mode : Nat) : Keeps env I (fchmod file mode) :=
  keeps_modify hI hFile (fun _ _ _ h => ⟨_, (mk.inj (ok.inj h)).2.symm⟩)

theorem keeps_fchown (uid gid : Nat) : Keeps env I (fchown file uid gid) :=
  keeps_modify hI hFile (fun _ _ _ h => ⟨_, (mk.inj (ok.inj h)).2.symm⟩)

theorem keeps_writeAt (offset : Nat) (bytes : Bytes) : Keeps env I (writeAt file offset bytes) :=
  keeps_modify hI hFile (fun _ _ _ h => ⟨_, (mk.inj (ok.inj h)).2.symm⟩)

theorem keeps_fallocateAt (offset length : Int) :
    Keeps env I (applyModeZeroFallocate file offset length) :=
  keeps_ensured (keeps_modify hI hFile (fun _ _ _ h => ⟨_, (mk.inj (ok.inj h)).2.symm⟩))

theorem keeps_cloneBlocks (src : Node) : Keeps env I (cloneBlocks src file) := by
  refine keeps_modify hI hFile (fun w _ fs' h => ?_)
  split at h
  · exact ⟨_, (mk.inj (ok.inj h)).2.symm⟩
  · cases h

theorem keeps_copyData (src : Node) : Keeps env I (copyData src file) := by
  rw [keeps_iff]
  intro w hw
  unfold copyData
  split
  · exact hI { w with fs := w.fs.writeAt _ _ _ } _ (hFile w _ hw)
  · exact hI { w with fs := w.fs.writeAt _ _ _ } _ (hFile w _ hw)

theorem keeps_writeFileAt (offset : Int) (data : Bytes) :
    Keeps env I (writeFileAt file offset data) :=
  keeps_ensured <|
  keeps_seq (keeps_query hI _) <|
  keeps_seq (keeps_writeAt hI hFile _ _) <|
  keeps_map (keeps_query hI _)

theorem keeps_writeChunk (baseOut copied : Nat) : ∀ rounds written bytes,
    Keeps env I (writeChunk file baseOut copied rounds written bytes) := by
  intro rounds
  induction rounds with
  | zero => exact fun _ _ => keeps_pure _
  | succ rounds ih =>
    intro written bytes
    exact keeps_if (keeps_pure _) (keeps_seq (keeps_result _) <|
      keeps_seq (keeps_result _) (keeps_seq (keeps_writeAt hI hFile _ _) <|
        keeps_if (keeps_throw _) (ih _ _)))

theorem keeps_copyLoop (src : Node) (baseIn baseOut len chunkSize : Nat) : ∀ rounds copied,
    Keeps env I (copyLoop src file baseIn baseOut len chunkSize rounds copied) := by
  intro rounds
  induction rounds with
  | zero => exact fun _ => keeps_pure _
  | succ rounds ih =>
    intro copied
    exact keeps_if (keeps_pure _) (keeps_seq (keeps_result _) <|
      keeps_seq (keeps_query hI _) (keeps_if (keeps_pure _)
        (keeps_seq (keeps_writeChunk hI hFile _ _ _ _ _) (ih _))))

theorem keeps_copyFileRangeAt (src : Node) (offsetIn offsetOut : Int) (len : Nat)
    (limits : FsLimits) :
    Keeps env I (copyFileRangeAt src file offsetIn offsetOut len limits) := by
  refine keeps_ensured (keeps_if (keeps_pure _) ?_)
  refine keeps_seq ?_ (keeps_copyLoop hI hFile _ _ _ _ _ _ _)
  exact keeps_seq (keeps_fileMetadata hI _) <| keeps_seq (keeps_fileMetadata hI _) <|
    keeps_if (keeps_pure _)
      (
        keeps_seq (keeps_result _) <|
        keeps_seq (keeps_result _) <|
        keeps_ensure _ _)

theorem keeps_copyRegions (src : Node) (size : Nat) : ∀ rounds offset,
    Keeps env I (copyRegions src file size rounds offset) := by
  intro rounds
  induction rounds with
  | zero => exact fun _ => keeps_pure _
  | succ rounds ih =>
    intro offset
    refine keeps_if (keeps_pure _) (triple_ask <|
      keeps_bind (keeps_probe _) (fun data => ?_))
    cases data with
    | none => exact keeps_pure _
    | some dataOffset =>
      exact keeps_if (keeps_pure _) (keeps_seq (keeps_probe _) <|
        keeps_seq (keeps_copyFileRangeAt hI hFile _ _ _ _ _) (ih _))

theorem keeps_applyHandleSetattr (accessBits : Nat) (change : Setattr) (ctx : FuseContext) :
    Keeps env I (applyHandleSetattr file accessBits change ctx) :=
  keeps_seq (keeps_fileMetadata hI _) <|
  keeps_seq (keeps_onlyIf (fun _ => keeps_ensure _ _)) <|
  keeps_seq (keeps_onlyIf (fun _ => keeps_ensure _ _)) <|
  keeps_ensured <|
  keeps_seq (keeps_ifSome (fun _ _ => keeps_setLen hI hFile _)) <|
  keeps_seq (keeps_ifSome (fun _ _ => keeps_fchmod hI hFile _)) <|
  keeps_seq (keeps_onlyIf (fun _ => keeps_fchown hI hFile _ _)) <|
  keeps_fileMetadata hI _

end Files

/-! ## Directories -/

/-- Only the path itself and the directories above it are made. -/
theorem keeps_createDirAll {loc : Loc}
    (hDir : ∀ p, p <+: loc.path → Keeps env I (createDir ⟨loc.root, p⟩)) :
    Keeps env I (createDirAll loc) := by
  unfold createDirAll
  generalize hp : loc.path = p at hDir
  generalize p.length = fuel
  clear hp
  -- the argument loses its last component with every round
  induction fuel generalizing p with
  | zero =>
    unfold createDirAllAux
    exact keeps_tryCatch (hDir p (prefix_refl _)) (fun _ => keeps_seq (keeps_probe _)
      (keeps_if (keeps_if (keeps_pure _) (keeps_throw _))
        (keeps_seq (keeps_pure _) (keeps_tryCatch (hDir p (prefix_refl _))
          (fun _ => keeps_seq (keeps_probe _) (keeps_if (keeps_pure _)
            (keeps_throw _)))))))
  | succ fuel ih =>
    unfold createDirAllAux
    exact keeps_tryCatch (hDir p (prefix_refl _)) (fun _ => keeps_seq (keeps_probe _)
      (keeps_if (keeps_if (keeps_pure _) (keeps_throw _))
        (keeps_seq (ih _ fun q hq => hDir q (hq.trans (List.dropLast_prefix p)))
          (keeps_tryCatch (hDir p (prefix_refl _)) (fun _ =>
            keeps_seq (keeps_probe _) (keeps_if (keeps_pure _)
              (keeps_throw _)))))))

/-! ## The attribute store -/

section Store

variable (hP : Passive I)

include hP

theorem keeps_cacheInsert (key : Nat) (table : XattrTable) :
    Keeps env I (cacheInsert key table) := keeps_change (fun w hw => hP.cache w _ hw)

theorem keeps_loadTable (key : Nat) : Keeps env I (loadTable key) := by
  refine keeps_bind (keeps_state _) (fun cached => ?_)
  cases cached with
  | some table => exact keeps_pure _
  | none => exact keeps_seq (keeps_loadManifest hP.untimed _) <|
      keeps_map (keeps_cacheInsert hP _ _)

theorem keeps_setManifest (f : Env → World → Nat × Option Manifest) :
    Keeps env I (update (fun env w => .ok ((), w.fs.setManifest (f env w).1 (f env w).2))) := by
  refine keeps_update hP.untimed ?_
  intro w a fs' hw hf
  cases hf
  exact hP.manifest w _ _ hw

theorem keeps_persist (key : Nat) (table : XattrTable) : Keeps env I (persist key table) := by
  refine keeps_seq keeps_ask (keeps_seq (keeps_onlyIf fun _ => ?_) (keeps_cacheInsert hP _ _))
  exact keeps_seq (keeps_query hP.untimed _) <|
    keeps_seq (keeps_query hP.untimed _) <|
      keeps_setManifest hP (fun _ _ => (key, some (.entries xattrVersion table)))

theorem keeps_updateTable (key : Nat) (f : XattrTable → Except Errno XattrTable) :
    Keeps env I (updateTable key f) :=
  keeps_seq (keeps_loadTable hP _) (keeps_seq (keeps_result _) <| keeps_persist hP _ _)

theorem keeps_purgeIfLastLink (info : Meta) : Keeps env I (purgeIfLastLink info) :=
  keeps_if (keeps_pure _) (keeps_seq (keeps_change fun w hw => hP.cache w _ hw)
    (keeps_seq (keeps_probe _) (keeps_onlyIf (fun _ => keeps_tryCatch
      (keeps_setManifest hP (fun _ _ => (info.ino, none))) (fun _ => keeps_pure _)))))

theorem keeps_seedXattrs (src dst : Loc) (followSrc : Bool) :
    Keeps env I (seedXattrs src dst followSrc) :=
  keeps_seq (keeps_symlinkMetadata hP.untimed _) <|
  keeps_seq (keeps_probe _) <|
  keeps_if (keeps_pure _)
    (
      keeps_seq (keeps_readAllXattrs hP.untimed _ _) <|
      keeps_if (keeps_pure _) (keeps_persist hP _ _))

end Store

/-! ## Copies -/

section Copies

variable {dst : Loc} (hI : Untimed I)

include hI

variable {info : Meta}

theorem keeps_copyAcls (src : Loc) {followSrc followDst : Bool} (hAt : FreeAt env I dst followDst) :
    Keeps env I (copyAcls src dst followSrc followDst) := by
  refine keeps_seq keeps_ask (keeps_onlyIf (fun _ => keeps_each (fun name _ =>
    keeps_bind (keeps_readXattr hI _ _ _) (fun value => keeps_ifSome (fun value _ =>
      keeps_tryCatch (keeps_setXattr hI hAt _ _ _) (fun _ => ?_))))))
  exact keeps_if (keeps_pure _) (keeps_throw _)

theorem keeps_preserveOwnership (info : Meta) (hAt : FreeAt env I dst (info.kind != .symlink)) :
    Keeps env I (preserveOwnership dst info) := by
  refine keeps_seq keeps_ask (keeps_tryCatch (keeps_chown hI hAt _ _) (fun _ =>
    keeps_if (keeps_tryCatch (keeps_chown hI hAt _ _) (fun _ => ?_))
      (keeps_throw _)))
  exact keeps_if (keeps_pure _) (keeps_throw _)

theorem keeps_copyLink (src : Loc) (hInfo : info.kind = .symlink)
    (hMake : ∀ target, Keeps env I (makeSymlink target dst)) (hAt : FreeAt env I dst false) :
    Keeps env I (copyLink src dst info) :=
  keeps_seq (keeps_query hI _) <|
  keeps_seq (hMake _) <|
  keeps_seq (keeps_preserveOwnership hI info (by simpa [hInfo] using hAt)) <|
  keeps_copyAcls hI src hAt

theorem keeps_copyAttributes (src : Loc) (hInfo : info.kind ≠ .symlink)
    (hAt : FreeAt env I dst true) : Keeps env I (copyAttributes src dst info) :=
  keeps_seq (keeps_preserveOwnership hI info (by rwa [bne_iff_ne.mpr hInfo])) <|
    keeps_seq (keeps_setPermissions hI hAt _) (keeps_copyAcls hI src hAt)

theorem keeps_copyDirNode (src : Loc) (hInfo : info.kind ≠ .symlink)
    (hMake : Keeps env I (createDirAll dst)) (hAt : FreeAt env I dst true) :
    Keeps env I (copyDirNode src dst info) :=
  keeps_seq hMake (keeps_copyAttributes hI src hInfo hAt)

omit hI in
/-- What a routine does with a file that it has created. -/
theorem Creates.bind (hNew : Creates env I dst) {f : Node → Op Unit}
    (hf : ∀ file J, Untimed J → Free J file.ino → Keeps env J (f file)) :
    Keeps env I (createFile dst >>= f) := by
  obtain ⟨J, hMake, hJ⟩ := hNew
  refine triple_bind hMake (fun file => ?_)
  obtain ⟨hU, hFree, hBack⟩ := hJ file
  exact triple_imp (hf file _ hU hFree) (fun _ => hBack) hBack

theorem keeps_copySparseFile (src : Loc) (hNew : Creates env I dst) :
    Keeps env I (copySparseFile src dst) :=
  keeps_seq (keeps_openFile hI _ _) <|
  hNew.bind fun _ _ hU hFile =>
    keeps_seq (keeps_fileMetadata hU _) <|
    keeps_seq (keeps_setLen hU hFile _) <|
    keeps_copyRegions hU hFile _ _ _ _

theorem keeps_fsCopy (src : Loc) (hNew : Creates env I dst) : Keeps env I (fsCopy src dst) :=
  keeps_seq (keeps_openFile hI _ _) <|
  keeps_seq (keeps_fileMetadata hI _) <|
  keeps_ensured <|
  hNew.bind fun _ _ hU hFile =>
    keeps_seq (keeps_fchmod hU hFile _) (keeps_copyData hU hFile _)

theorem keeps_copyWithReflinkFallback (src : Loc) (hNew : Creates env I dst) :
    Keeps env I (copyWithReflinkFallback src dst) := by
  have hFallback : Keeps env I (copyFileFallback src dst) := by
    refine keeps_seq keeps_ask (keeps_seq (keeps_if ?_
      (keeps_pure _)) (keeps_if (keeps_copySparseFile hI src hNew)
        (keeps_fsCopy hI src hNew)))
    exact keeps_tryCatch (keeps_query hI _) (fun _ => keeps_pure _)
  refine keeps_seq keeps_ask (keeps_if ?_ hFallback)
  refine keeps_tryCatch ?_ (fun _ => hFallback)
  exact keeps_seq (keeps_openFile hI _ _) (hNew.bind fun _ _ hU hFile =>
    keeps_cloneBlocks hU hFile _)

theorem keeps_copyRegular (src : Loc) (hInfo : info.kind ≠ .symlink) (hNew : Creates env I dst)
    (hAt : FreeAt env I dst true) :
    Keeps env I (copyRegular src dst info) :=
  keeps_seq (keeps_copyWithReflinkFallback hI src hNew) <| keeps_copyAttributes hI src hInfo hAt

end Copies

/-! ## Names that go or move -/

section Names

variable (hI : Untimed I)

include hI

theorem keeps_removeFile {loc : Loc}
    (h : ∀ w node fs', I w → w.fs.get loc = some node → node.isDir = false →
      HostFs.Removed w.fs loc fs' → I { w with fs := fs' }) : Keeps env I (removeFile loc) := by
  refine keeps_update hI ?_
  intro w a fs' hw hf
  obtain ⟨fs'', hRemove, hEq⟩ := map_eq_ok.mp hf
  cases hEq
  obtain ⟨node, hGet, hDir, hR⟩ := removeFile_ok hRemove
  exact h w node _ hw hGet hDir hR

theorem keeps_removeDir {loc : Loc}
    (h : ∀ w node fs', I w → w.fs.get loc = some node → node.isDir = true →
      HostFs.Removed w.fs loc fs' → I { w with fs := fs' }) : Keeps env I (removeDir loc) := by
  refine keeps_update hI ?_
  intro w a fs' hw hf
  obtain ⟨fs'', hRemove, hEq⟩ := map_eq_ok.mp hf
  cases hEq
  obtain ⟨node, hGet, hDir, hR⟩ := removeDir_ok hRemove
  exact h w node _ hw hGet hDir hR

theorem keeps_renameNode {root : Root} {src dst : Path}
    (h : ∀ w fs', I w → HostFs.Relocated w.fs root src dst fs' → I { w with fs := fs' }) :
    Keeps env I (renameNode ⟨root, src⟩ ⟨root, dst⟩) := by
  refine keeps_update hI ?_
  intro w a fs' hw hf
  obtain ⟨fs'', hRename, hEq⟩ := map_eq_ok.mp hf
  cases hEq
  obtain ⟨-, -, -, node, -, ⟨-, -, -, rfl⟩ | ⟨hR, -⟩⟩ := rename_ok hRename
  · exact hw
  · exact h w _ hw hR

theorem keeps_hardLink {src dst : Loc}
    (h : ∀ w node fs', I w → w.fs.get src = some node → node.isDir = false →
      HostFs.Entered w.fs dst node fs' → fs'.inode = w.fs.inode → I { w with fs := fs' }) :
    Keeps env I (hardLink src dst) := by
  refine keeps_update hI ?_
  intro w a fs' hw hf
  obtain ⟨fs'', hLink, hEq⟩ := map_eq_ok.mp hf
  cases hEq
  obtain ⟨node, hSrc, hDir, -, hE, hInode⟩ := hardLink_ok hLink
  exact h w node _ hw hSrc hDir hE hInode

end Names

/-! ## Tombstones -/

section Tombstones

variable (hI : Untimed I) {rel : Path}

omit hI in
theorem keeps_createDirAllWithRecordedDirs {loc : Loc}
    (hDir : ∀ p, p <+: loc.path → Keeps env I (createDir ⟨loc.root, p⟩)) :
    Keeps env I (createDirAllWithRecordedDirs loc) := by
  refine keeps_seq (keeps_probe _) (keeps_if (keeps_pure _) (
    triple_bind (triple_probe _) (fun missing => ?_)))
  refine Triple.pre (P := fun w => I w ∧ ∀ p ∈ missing, p <+: loc.path)
    (triple_fact fun hMissing => ?_) ?_
  · refine keeps_if (hDir _ (prefix_refl _)) (keeps_each (fun p hp =>
      keeps_tryCatch (hDir p (hMissing p (mem_reverse.mp hp))) (fun _ => ?_)))
    exact keeps_seq (keeps_probe _) (keeps_if (keeps_pure _) (keeps_throw _))
  · rintro w ⟨hw, rfl⟩
    refine ⟨hw, fun p hp => ?_⟩
    have hMem := (List.takeWhile_prefix _).subset hp
    simp only [segments, mem_reverse, mem_map] at hMem
    obtain ⟨k, -, rfl⟩ := hMem
    exact take_prefix k loc.path

include hI

theorem keeps_clearTombstone (h : ∀ p, Keeps env I (removeFile ⟨.alias, p⟩)) :
    Keeps env I (clearTombstone rel) := by
  refine triple_ask (keeps_ifSome fun loc hLoc => ?_)
  obtain rfl := tombstonePath_eq hLoc
  refine keeps_bind (keeps_lstat hI _) (fun found => keeps_ifSome fun info _ => ?_)
  exact keeps_if (keeps_seq (keeps_probe _) (keeps_onlyIf (fun _ => h _))) (h _)

theorem keeps_markTombstone (hDir : ∀ p, Keeps env I (createDir ⟨.alias, p⟩))
    (hFile : ∀ p, Keeps env I (createFile ⟨.alias, p⟩)) : Keeps env I (markTombstone rel) := by
  refine triple_ask (keeps_ifSome fun loc hLoc => ?_)
  obtain rfl := tombstonePath_eq hLoc
  refine keeps_bind (keeps_lstat hI _) (fun found => ?_)
  cases found with
  | some info =>
    refine keeps_map ?_
    split
    · exact hFile _
    · exact hFile _
  | none =>
    exact keeps_seq (keeps_createDirAllWithRecordedDirs fun p _ => hDir p) <|
      keeps_map (hFile _)

end Tombstones

/-! ## Copy-up

A copy-up does nothing when the copy exists or the backing object does not. What is left is
the copy of an object that is known to have none. -/

section CopyUp

variable {P E : World → Prop} {Q : Unit → World → Prop} {rel : Path}

variable {w : World}

/-- The copy of the path is missing, and the backing object has the metadata. -/
def Uncopied (env : Env) (rel : Path) (info : Meta) (w : World) : Prop :=
  w.fs.get ⟨.cow, rel⟩ = none ∧ env.layout.backingRoot = true ∧
    ∃ node, w.fs.get ⟨.backing, rel⟩ = some node ∧ info = w.fs.metaOf node

/-- A copy-up has nothing to do: there is a copy, or nothing to copy. -/
def Settled (env : Env) (rel : Path) (w : World) : Prop :=
  (w.fs.get ⟨.cow, rel⟩).isSome = true ∨
    ∀ backing, backingPath env rel = some backing → w.fs.get backing = none

/-- The parents, the object and its attributes. -/
abbrev copyObject (copy : Loc → Loc → Meta → Op Unit) (rel : Path) (info : Meta)
    (followSrc : Bool) : Op Unit := do
  createDirAll (Loc.parent ⟨.cow, rel⟩)
  copy ⟨.backing, rel⟩ ⟨.cow, rel⟩ info
  seedXattrs ⟨.backing, rel⟩ ⟨.cow, rel⟩ followSrc

/-- What follows the look at a backing object without a copy. -/
theorem triple_uncopied (hU : Untimed P) (hErr : ∀ w, P w → E w) {backing : Loc}
    (hb : backingPath env rel = some backing) {f : Meta → Op Unit}
    (hf : ∀ info, Triple env (fun w => P w ∧ Uncopied env rel info w) (f info) Q E) :
    Triple env (fun w => P w ∧ w.fs.get ⟨.cow, rel⟩ = none)
      (symlinkMetadata backing >>= f) Q E := by
  obtain ⟨hRoot, rfl⟩ := backingPath_eq_some.mp hb
  have hU' : Untimed (fun w => P w ∧ w.fs.get ⟨.cow, rel⟩ = none) :=
    fun w n hw => ⟨hU w n hw.1, hw.2⟩
  refine triple_bind ((triple_symlinkMetadata hU' _).weaken (fun w hw => hErr w hw.1))
    (fun info => ?_)
  exact (hf info).pre (fun w hw => ⟨hw.1.1, hw.1.2, hRoot, hw.2⟩)

theorem settled_of_no_backing (h : backingPath env rel = none) : Settled env rel w :=
  .inr fun backing hb => by rw [h] at hb; cases hb

theorem settled_of_missing (h : w.fs.get ⟨.backing, rel⟩ = none) :
    Settled env rel w := by
  refine .inr fun backing hb => ?_
  obtain rfl := backingPath_eq hb
  exact h

theorem settled_of_found {info : Meta}
    (h : ∀ i, some info = some i →
      ∃ node, w.fs.get ⟨.cow, rel⟩ = some node ∧ i = w.fs.metaOf node) : Settled env rel w := by
  obtain ⟨node, hNode, -⟩ := h info rfl
  exact .inl (by rw [hNode]; rfl)

/-- The rule for a backing object without a copy, at the program that copies it. -/
abbrev Copies (env : Env) (rel : Path) (P : World → Prop) (Q : Unit → World → Prop)
    (E : World → Prop) (info : Meta) (x : Op Unit) : Prop :=
  Triple env (fun w => P w ∧ Uncopied env rel info w) x Q E

/-- What the routines of the copy-up of a path have in common. -/
structure CopyRules (env : Env) (rel : Path) (P : World → Prop) (Q : Unit → World → Prop)
    (E : World → Prop) : Prop where
  untimed : Untimed P
  done : ∀ w, P w → Settled env rel w → Q () w
  failed : ∀ w, P w → E w
  link : ∀ info, info.kind = .symlink →
    Copies env rel P Q E info (copyObject copyLink rel info false)
  dir : ∀ info, info.kind = .dir → Copies env rel P Q E info (copyObject copyDirNode rel info true)
  file : ∀ info, info.kind ≠ .symlink → info.kind ≠ .dir →
    Copies env rel P Q E info (copyObject copyRegular rel info true)

/-- Nothing is ever copied. -/
theorem CopyRules.of_never (hU : Untimed P) (hDone : ∀ w, P w → Settled env rel w → Q () w)
    (hErr : ∀ w, P w → E w) (hNever : ∀ {info x}, Copies env rel P Q E info x) :
    CopyRules env rel P Q E :=
  ⟨hU, hDone, hErr, fun _ _ => hNever, fun _ _ => hNever, fun _ _ _ => hNever⟩

/-- The copy of an entry of a directory, one level down. -/
def copyUpChild (rel : Path) (n : Name) : Nat → Op Unit
  | 0 => pure ()
  | depth + 1 => copyUpTreeAux depth (rel ++ [toStringLossy n])

section Routines

variable (h : CopyRules env rel P Q E)

include h

/-- What is not copied yet is copied if it is in the backing tree. -/
theorem triple_fromBacking {f : Loc → Meta → Op Unit}
    (hf : ∀ info, Copies env rel P Q E info (f ⟨.backing, rel⟩ info)) :
    Triple env (fun w => P w ∧ w.fs.get ⟨.cow, rel⟩ = none) (match backingPath env rel with
      | none => pure ()
      | some backing => do
        let inBacking ← nodeExists backing
        if !inBacking then pure () else symlinkMetadata backing >>= f backing) Q E := by
  cases hb : backingPath env rel with
  | none => exact triple_pure (fun w hw => h.done w hw.1 (settled_of_no_backing hb))
  | some backing =>
    obtain rfl := backingPath_eq hb
    refine triple_nodeExists ?_ (triple_pure fun w hw => h.done w hw.1.1 (settled_of_missing hw.2))
    exact (triple_uncopied h.untimed h.failed hb hf).pre (fun w hw => hw.1)

theorem triple_copyUpNode : Triple env P (copyUpNode rel) Q E := by
  refine triple_ask ?_
  cases ho : overlayPath env rel with
  | none => exact triple_throw h.failed
  | some overlay =>
    obtain rfl := overlayPath_eq ho
    refine triple_nodeExists (triple_pure fun w hw => h.done w hw.1 (.inl hw.2))
      (triple_fromBacking h fun info => ?_)
    cases hk : info.kind with
    | symlink => exact h.link info hk
    | dir => exact h.dir info hk
    | file => exact h.file info (by simp [hk]) (by simp [hk])
    | special => exact h.file info (by simp [hk]) (by simp [hk])

theorem triple_copyUpFile : Triple env P (copyUpFile rel) Q E := by
  refine triple_ask ?_
  cases ho : overlayPath env rel with
  | none => exact triple_throw h.failed
  | some overlay =>
    obtain rfl := overlayPath_eq ho
    refine triple_bind ((triple_lstat h.untimed _).weaken h.failed) (fun found => ?_)
    cases found with
    | some info =>
      exact triple_conseq (P := fun w => P w ∧ Settled env rel w) (keeps_ensure _ _)
        (fun _ hw => ⟨hw.1, settled_of_found hw.2.2⟩)
        (fun _ w hw => h.done w hw.1 hw.2) (fun w hw => h.failed w hw.1)
    | none =>
      refine (triple_fromBacking h fun info => ?_).pre fun w hw => ⟨hw.1, hw.2.1 rfl⟩
      refine triple_learn ((triple_ensure fun _ hw => hw).weaken (fun w hw => h.failed w hw.1))
        (fun _ hNotDir => ?_)
      cases hk : info.kind with
      | symlink => exact h.link info hk
      | dir => simp [hk] at hNotDir
      | file => exact h.file info (by simp [hk]) (by simp [hk])
      | special => exact h.file info (by simp [hk]) (by simp [hk])

theorem triple_copyUpEmptyFileForTruncate
    (hFile : ∀ info, info.kind = .file → Copies env rel P Q E info (do
      createDirAll (Loc.parent ⟨.cow, rel⟩)
      let _ ← createNew ⟨.cow, rel⟩ info.perm
      copyAttributes ⟨.backing, rel⟩ ⟨.cow, rel⟩ info
      seedXattrs ⟨.backing, rel⟩ ⟨.cow, rel⟩ true)) :
    Triple env P (copyUpEmptyFileForTruncate rel) Q E := by
  refine triple_ask ?_
  cases ho : overlayPath env rel with
  | none => exact triple_throw h.failed
  | some overlay =>
    obtain rfl := overlayPath_eq ho
    refine triple_bind ((triple_lstat h.untimed _).weaken h.failed) (fun found => ?_)
    cases found with
    | some info =>
      exact triple_conseq (P := fun w => P w ∧ Settled env rel w)
        (keeps_ensured (keeps_ensureRegularFile _))
        (fun _ hw => ⟨hw.1, settled_of_found hw.2.2⟩) (fun _ w hw => h.done w hw.1 hw.2)
        (fun w hw => h.failed w hw.1)
    | none =>
      refine (triple_fromBacking h fun info => ?_).pre fun w hw => ⟨hw.1, hw.2.1 rfl⟩
      refine triple_seq ((keeps_ensure _ _).weaken fun w hw => h.failed w hw.1) <|
        triple_learn ((triple_ensureRegularFile info).weaken (fun w hw => h.failed w hw.1))
          (fun _ hk => ?_)
      exact hFile info hk

theorem triple_copyUpTreeAux {depth : Nat}
    (hDir : ∀ info, info.kind = .dir → Copies env rel P Q E info (do
      copyDirNode ⟨.backing, rel⟩ ⟨.cow, rel⟩ info
      seedXattrs ⟨.backing, rel⟩ ⟨.cow, rel⟩ true
      let names ← readDir ⟨.backing, rel⟩
      each (fun n => do
        nextEntry
        copyUpChild rel n depth) names)) :
    Triple env P (copyUpTreeAux depth rel) Q E := by
  unfold copyUpTreeAux
  refine triple_ask ?_
  cases ho : overlayPath env rel with
  | none => exact triple_throw h.failed
  | some overlay =>
    obtain rfl := overlayPath_eq ho
    refine triple_nodeExists (triple_pure fun w hw => h.done w hw.1 (.inl hw.2)) ?_
    cases hb : backingPath env rel with
    | none => exact triple_throw (fun w hw => h.failed w hw.1)
    | some backing =>
      obtain rfl := backingPath_eq hb
      refine triple_nodeExists ?_ (fun w hw => h.failed w hw.1.1)
      refine triple_seq (triple_pure fun _ hw => hw.1) <|
        triple_uncopied h.untimed h.failed hb fun info => ?_
      cases hk : info.kind with
      | symlink => exact h.link info hk
      | dir =>
        have hBody := hDir info hk
        cases depth with
        | zero => exact hBody
        | succ depth => exact hBody
      | file => exact h.file info (by simp [hk]) (by simp [hk])
      | special => exact h.file info (by simp [hk]) (by simp [hk])

end Routines

/-- An invariant that one level keeps when the levels below do, at the paths of a set that is
closed under children. -/
theorem keeps_copyUpTree {S : Path → Prop} (hDown : ∀ rel n, S rel → S (rel ++ [n]))
    (hLevel : ∀ depth rel, S rel → (∀ n, Keeps env I (copyUpChild rel n depth)) →
      Keeps env I (copyUpTreeAux depth rel)) (hRel : S rel) : Keeps env I (copyUpTree rel) := by
  refine keeps_bind (keeps_state _) (fun depth => ?_)
  induction depth generalizing rel with
  | zero => exact hLevel 0 rel hRel fun n => keeps_pure _
  | succ depth ih => exact hLevel (depth + 1) rel hRel fun n => ih (hDown rel _ hRel)

end CopyUp

end FabricFs.Overlay
