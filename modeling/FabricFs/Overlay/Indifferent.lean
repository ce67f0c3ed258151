import FabricFs.Overlay.Edits

/-!
# Operations and the handle table

Most operations do not touch the handles and locks of the server: they keep every invariant
that only depends on these (`Indifferent`), up to the places where a handle is entered,
released or moved to another path.

* `keeps_exec_of_indifferent`: the rule for all requests.
-/

namespace FabricFs.Overlay

open Lib Lib.Prog Server

/-- Only the handles and the locks matter. -/
def Indifferent (I : World → Prop) : Prop :=
  ∀ w fs cache calls, I w → I { w with fs := fs, cache := cache, calls := calls }

section Indifferent

variable {env : Env} {I : World → Prop} (hI : Indifferent I) {α : Type}

include hI

theorem Indifferent.untimed : Untimed I := fun w n hw => hI w w.fs w.cache n hw

theorem Indifferent.passive : Passive I where
  untimed := hI.untimed
  manifest w _ _ hw := hI w _ w.cache w.calls hw
  cache w cache hw := hI w w.fs cache w.calls hw

theorem Indifferent.free (ino : Nat) : Free I ino := fun w _ hw => hI w _ w.cache w.calls hw

theorem Indifferent.freeAt (loc : Loc) (followLink : Bool) : FreeAt env I loc followLink :=
  fun w node f hw _ => hI.free node.ino w f hw

theorem Indifferent.update (f : Env → World → Except Errno (α × HostFs)) : Keeps env I (update f) :=
  keeps_update hI.untimed (fun w _ fs hw _ => hI w fs w.cache w.calls hw)

theorem Indifferent.query (f : Env → World → Except Errno α) : Keeps env I (query f) :=
  keeps_query hI.untimed f

theorem Indifferent.creates (loc : Loc) : Creates env I loc :=
  ⟨fun _ => I, hI.update _, fun file => ⟨hI.untimed, hI.free file.ino, fun _ hw => hw⟩⟩

theorem indifferent_createDir (loc : Loc) : Keeps env I (createDir loc) :=
  keeps_seq keeps_ask (keeps_map (hI.update _))

theorem indifferent_createDirAll (loc : Loc) : Keeps env I (createDirAll loc) :=
  keeps_createDirAll fun _ _ => indifferent_createDir hI _

theorem indifferent_makeSymlink (target : Bytes) (loc : Loc) :
    Keeps env I (makeSymlink target loc) := keeps_map (hI.update _)

theorem indifferent_clearTombstone (rel : Path) : Keeps env I (clearTombstone rel) :=
  keeps_clearTombstone hI.untimed fun _ => hI.update _

theorem indifferent_markTombstone (rel : Path) : Keeps env I (markTombstone rel) :=
  keeps_markTombstone hI.untimed (fun _ => indifferent_createDir hI _) fun _ => hI.update _

/-! ### Copy-up -/

theorem indifferent_copyDirNode (src dst : Loc) {info : Meta} (hk : info.kind = .dir) :
    Keeps env I (copyDirNode src dst info) :=
  keeps_copyDirNode hI.untimed src (by simp [hk]) (indifferent_createDirAll hI dst) (hI.freeAt _ _)

/-- The parents, the object and its attributes. -/
theorem indifferent_copied {rel : Path} {info : Meta} {x : Op Unit} (hx : Keeps env I x)
    (src dst : Loc) (followSrc : Bool) : Triple env (fun w => I w ∧ Uncopied env rel info w) (do
      createDirAll (Loc.parent ⟨.cow, rel⟩)
      x
      seedXattrs src dst followSrc) (fun _ => I) I :=
  (keeps_seq (indifferent_createDirAll hI _) (keeps_seq hx <|
    keeps_seedXattrs hI.passive _ _ _)).pre (fun _ hw => hw.1)

theorem indifferent_copyRules (rel : Path) : CopyRules env rel I (fun _ => I) I where
  untimed := hI.untimed
  done _ hw _ := hw
  failed _ hw := hw
  link _ hk := indifferent_copied hI (keeps_copyLink hI.untimed _ hk
    (fun target => indifferent_makeSymlink hI target _) (hI.freeAt _ _)) _ _ _
  dir _ hk := indifferent_copied hI (indifferent_copyDirNode hI _ _ hk) _ _ _
  file _ hk _ := indifferent_copied hI (keeps_copyRegular hI.untimed _ hk (hI.creates _)
    (hI.freeAt _ _)) _ _ _

theorem indifferent_copyUpNode (rel : Path) : Keeps env I (copyUpNode rel) :=
  triple_copyUpNode (indifferent_copyRules hI rel)

theorem indifferent_copyUpFile (rel : Path) : Keeps env I (copyUpFile rel) :=
  triple_copyUpFile (indifferent_copyRules hI rel)

theorem indifferent_copyUpEmptyFileForTruncate (rel : Path) :
    Keeps env I (copyUpEmptyFileForTruncate rel) := by
  refine triple_copyUpEmptyFileForTruncate (indifferent_copyRules hI rel) fun info hk => ?_
  refine (keeps_seq (indifferent_createDirAll hI _) (keeps_seq
    (keeps_seq keeps_ask (hI.update _)) (keeps_seq ?_ <|
      keeps_seedXattrs hI.passive _ _ _))).pre (fun _ hw => hw.1)
  exact keeps_copyAttributes hI.untimed _ (by simp [hk]) (hI.freeAt _ _)

theorem indifferent_copyUpTree (rel : Path) : Keeps env I (copyUpTree rel) := by
  refine keeps_copyUpTree (S := fun _ => True) (fun _ _ h => h) (fun depth rel _ hChild => ?_)
    trivial
  exact triple_copyUpTreeAux (indifferent_copyRules hI rel) fun _ hk =>
    (keeps_seq (indifferent_copyDirNode hI _ _ hk) <|
      keeps_seq (keeps_seedXattrs hI.passive _ _ _) (keeps_seq (hI.query _) <|
        keeps_each (fun n _ => keeps_seq (hI.query _) (hChild n)))).pre fun _ hw => hw.1

/-! ### Operations -/

omit hI in
theorem keeps_targetFileForWrite (rel : Path) : Keeps env I (targetFileForWrite rel) := by
  refine triple_ask <| keeps_ensured <| keeps_then keeps_ensureBackingMutable ?_
  split
  · exact keeps_pure _
  · exact keeps_throw _

omit hI in
theorem keeps_backingTarget (rel : Path) : Keeps env I (backingTarget rel) := by
  refine keeps_bind keeps_ask (fun _ => ?_)
  split
  · exact keeps_pure _
  · exact keeps_throw _

theorem indifferent_prepareFileForWrite (rel : Path) : Keeps env I (prepareFileForWrite rel) :=
  triple_ask <|
  keeps_seq keeps_ensureWritable <|
  keeps_seq keeps_ensureBackingMutable <|
  keeps_if
    (
      keeps_seq (indifferent_copyUpFile hI rel) <|
      keeps_seq (keeps_probe _) <|
      keeps_ensured <|
      keeps_map (indifferent_clearTombstone hI rel))
    (keeps_backingTarget rel)

theorem indifferent_materializeForWrite (rel : Path) : Keeps env I (materializeForWrite rel) :=
  triple_ask <|
  keeps_seq keeps_ensureWritable <|
  keeps_seq keeps_ensureBackingMutable <|
  keeps_if
    (
      keeps_seq (indifferent_copyUpTree hI rel) <|
      keeps_map (indifferent_clearTombstone hI rel))
    (keeps_backingTarget rel)

theorem indifferent_materializeForXattr (rel : Path) : Keeps env I (materializeForXattr rel) :=
  triple_ask <|
  keeps_if
    (
      keeps_seq (indifferent_copyUpNode hI rel) <|
      keeps_seq (keeps_probe _) <|
      keeps_ensured <|
      keeps_pure _)
    (keeps_resolveExisting rel)

theorem indifferent_mkdir (rel : Path) (mode : Nat) (ctx : Option FuseContext) :
    Keeps env I (mkdir rel mode ctx) :=
  triple_ask <|
  keeps_gates fun _ =>
  keeps_seq (keeps_parentMetadata hI.untimed _) <|
  keeps_ensured <|
  keeps_seq (keeps_ensureUnionEntryAbsent _) <|
  keeps_seq (keeps_targetFileForWrite rel) <|
  keeps_seq (indifferent_clearTombstone hI rel) <|
  keeps_seq (indifferent_createDir hI _) <|
  keeps_seq (hI.update _) <|
  hI.update _

theorem indifferent_mknod (rel : Path) (mode : Nat) (ctx : Option FuseContext) :
    Keeps env I (mknod rel mode ctx) :=
  triple_ask <|
  keeps_gates fun c =>
  keeps_seq (keeps_checkNewEntry hI.untimed rel c) <|
  keeps_seq (keeps_targetFileForWrite rel) <|
  keeps_seq (indifferent_clearTombstone hI rel) <|
  keeps_seq
    (triple_ask <| keeps_seq (keeps_result _) <| keeps_map (hI.update _)) <|
  keeps_seq (hI.update _) <|
  keeps_seq (hI.update _) <|
  hI.query _

theorem indifferent_symlink (rel : Path) (target : Bytes) (ctx : Option FuseContext) :
    Keeps env I (symlink rel target ctx) :=
  keeps_gates fun c =>
  keeps_seq (keeps_checkNewEntry hI.untimed rel c) <|
  keeps_seq (keeps_targetFileForWrite rel) <|
  keeps_seq (indifferent_clearTombstone hI rel) <|
  keeps_seq (indifferent_createDirAll hI _) <|
  keeps_seq (indifferent_makeSymlink hI _ _) <|
  hI.update _

theorem indifferent_link (source target : Path) (ctx : Option FuseContext) :
    Keeps env I (link source target ctx) := by
  refine triple_ask <| keeps_gates fun c =>
    keeps_seq (keeps_resolveExisting _) <|
    keeps_seq (keeps_each fun p _ => keeps_checkSearch hI.untimed c p) <|
    keeps_seq (hI.query _) <|
    keeps_seq (keeps_checkNewEntry hI.untimed target c) <|
    keeps_if ?_ ?_
  · exact keeps_seq (indifferent_copyUpFile hI source) <|
      keeps_seq (indifferent_createDirAll hI _) <|
      keeps_seq (indifferent_clearTombstone hI target) <|
      hI.update _
  · exact keeps_seq (keeps_resolveExisting _) (keeps_seq (keeps_backingTarget target) (hI.update _))

theorem indifferent_unlink (rel : Path) (ctx : Option FuseContext) :
    Keeps env I (unlink rel ctx) := by
  refine triple_ask <| keeps_gates fun _ =>
    keeps_seq (keeps_resolveExisting _) <|
    keeps_bind (hI.query _) fun info =>
    keeps_ensured <|
    keeps_seq (keeps_parentMetadata hI.untimed _) <|
    keeps_seq (keeps_ensureRemovalAllowed _ _ _ _) <|
    keeps_ensured <|
    keeps_if ?_ ?_
  · exact keeps_seq
        (keeps_seq (keeps_probe _) <|
          keeps_onlyIf fun _ =>
            keeps_seq (hI.update _) (keeps_purgeIfLastLink hI.passive info)) <|
      indifferent_markTombstone hI rel
  · exact keeps_seq (hI.update _) (keeps_purgeIfLastLink hI.passive info)

theorem indifferent_rmdir (rel : Path) (ctx : Option FuseContext) :
    Keeps env I (rmdir rel ctx) := by
  refine triple_ask <| keeps_gates fun _ =>
    keeps_seq (keeps_dirIsEmpty hI.untimed _) <|
    keeps_ensured <|
    keeps_seq (keeps_parentMetadata hI.untimed _) <|
    keeps_seq (keeps_resolveExisting _) <|
    keeps_seq (hI.query _) <|
    keeps_seq (keeps_ensureRemovalAllowed _ _ _ _) <|
    keeps_ensured <|
    keeps_if ?_ (hI.update _)
  exact keeps_seq (keeps_probe _) (keeps_seq (keeps_onlyIf fun _ => hI.update _)
    (indifferent_markTombstone hI rel))

theorem indifferent_moveOver (src dst : Loc) {x : Op Unit} (hx : Keeps env I x) :
    Keeps env I (moveOver src dst x) := by
  refine keeps_seq (keeps_probe _) <| keeps_ensured <| keeps_seq (indifferent_createDirAll hI _) <|
    keeps_seq ?_ <|
    keeps_seq hx <|
    hI.update _
  refine keeps_seq (keeps_probe _) (keeps_onlyIf fun _ =>
    keeps_bind (hI.query _) (fun info => keeps_if ?_ ?_))
  · exact keeps_seq (hI.query _) <| keeps_ensured <| keeps_seq (hI.update _) <|
      keeps_purgeIfLastLink hI.passive info
  · exact keeps_seq (hI.update _) (keeps_purgeIfLastLink hI.passive info)

/-- A rename touches the handles by its last step alone. -/
theorem indifferent_rename {source target : Path}
    (hRewrite : Keeps env I (rewritePaths source target)) (ctx : Option FuseContext) :
    Keeps env I (rename source target ctx) :=
  triple_ask <|
  keeps_gates fun c =>
  keeps_seq (keeps_checkRename hI.untimed source target c) <|
  keeps_seq
    (keeps_if
      (
        keeps_seq (indifferent_copyUpTree hI source) <|
        keeps_seq (indifferent_moveOver hI _ _ (indifferent_clearTombstone hI target)) <|
        indifferent_markTombstone hI source)
      (
        keeps_ensured <|
        indifferent_moveOver hI _ _ (keeps_pure _))) <|
  hRewrite

theorem indifferent_setattr (rel : Path) (change : Setattr) (ctx : Option FuseContext) :
    Keeps env I (setattr rel change ctx) := by
  refine triple_ask <| keeps_seq (keeps_requireContext _) <|
    keeps_seq (keeps_resolveExisting _) <|
    keeps_seq (keeps_ensureNotSymlink hI.untimed _) <|
    keeps_seq (hI.query _) <|
    keeps_seq (keeps_ensureSetattrAllowed _ _ _) <|
    keeps_seq (indifferent_materializeForWrite hI rel) <|
    keeps_ensured <|
    keeps_seq ?_ <|
    keeps_seq (keeps_ifSome fun _ _ => hI.update _) <|
    keeps_seq (keeps_onlyIf fun _ => hI.update _) <|
    hI.query _
  unfold setSize
  split
  · exact keeps_seq (hI.query _) <| keeps_seq (hI.query _) <|
      keeps_seq (keeps_ensureSetattrAllowed _ _ _) <|
      hI.update _
  · exact keeps_seq (hI.query _) (keeps_ensureSetattrAllowed _ _ _)

theorem indifferent_setxattr (rel : Path) (name value : Bytes) (flags : Nat) :
    Keeps env I (setxattr rel name value flags) :=
  triple_ask <|
  keeps_seq (indifferent_materializeForXattr hI rel) <|
  keeps_ensured <|
  keeps_if (hI.update _)
    (
      keeps_seq (keeps_keyForPath hI.untimed _) (keeps_updateTable hI.passive _ _))

theorem indifferent_removexattr (rel : Path) (name : Bytes) : Keeps env I (removexattr rel name) :=
  triple_ask <|
  keeps_seq (indifferent_materializeForXattr hI rel) <|
  keeps_ensured <|
  keeps_if (hI.update _)
    (
      keeps_seq (keeps_keyForPath hI.untimed _) (keeps_updateTable hI.passive _ _))

theorem indifferent_write (rel : Path) (offset : Int) (data : Bytes) (ctx : Option FuseContext) :
    Keeps env I (write rel offset data ctx) :=
  keeps_seq (keeps_requireContext _) <|
  keeps_seq (keeps_resolveExisting _) <|
  keeps_seq (keeps_ensureNotSymlink hI.untimed _) <|
  keeps_seq (indifferent_prepareFileForWrite hI rel) <|
  keeps_seq (hI.query _) <|
  keeps_seq (hI.query _) <|
  keeps_ensured <|
  keeps_writeFileAt hI.untimed (hI.free _) _ _

/-! ### Opens -/

theorem indifferent_openFileTarget (rel : Path) (resolved : Loc) (info : Meta) (flags : Nat)
    (c : FuseContext) : Keeps env I (openFileTarget rel resolved info flags c) :=
  triple_ask <|
  keeps_seq (keeps_ensureRegularFile _) <|
  keeps_seq (keeps_ensureOpenFlagsAllowed _ _ _ _) <|
  keeps_if
    (
      keeps_seq (keeps_ensureNotSymlink hI.untimed _) <|
      keeps_if
        (
          keeps_seq (indifferent_copyUpEmptyFileForTruncate hI rel) <|
          keeps_map (indifferent_clearTombstone hI rel))
        (indifferent_prepareFileForWrite hI rel))
    (keeps_pure _)

/-! An open ends with the entry of its handle, which may take the invariant to another. -/

variable {J E : World → Prop} (hE : ∀ w, I w → E w)

include hE in
theorem indifferent_openExisting {object : ResolvedObject} {kind : HandleKind}
    (hAlloc : ∀ bits blocked file, Triple env I
      (allocateHandle object.virtualPath kind bits blocked file) (fun _ => J) E)
    (flags : Nat) (c : FuseContext) :
    Triple env I (openExisting object kind flags c) (fun _ => J) E := by
  refine triple_seq ((keeps_followedMetadata hI.untimed _).weaken hE) <|
    triple_then ((keeps_ensureKind _ _).weaken hE) ?_
  cases kind with
  | dir =>
    exact triple_seq ((keeps_ensure _ _).weaken hE) <| triple_seq ((hI.query _).weaken hE) <|
      triple_seq (hAlloc _ _ _) <|
      triple_done
  | file =>
    exact triple_seq ((keeps_ensureRegularFile _).weaken hE) <|
      triple_seq ((keeps_ensureOpenFlagsAllowed _ _ _ _).weaken hE) <|
      triple_seq ((hI.query _).weaken hE) <|
      triple_seq ((keeps_onlyIf fun _ => hI.update _).weaken hE) <|
      triple_seq ((hI.query _).weaken hE) <|
      triple_seq (hAlloc _ _ _) <|
      triple_done

include hE in
theorem indifferent_openOp {rel : Path} {kind : HandleKind}
    (hAlloc : ∀ bits blocked file,
      Triple env I (allocateHandle rel kind bits blocked file) (fun _ => J) E)
    (flags : Nat) (ctx : Option FuseContext) :
    Triple env I (openOp rel kind flags ctx) (fun _ => J) E := by
  refine triple_ask (triple_bind ((keeps_requireContext _).weaken hE) (fun c =>
    triple_seq ((keeps_resolveExisting _).weaken hE) <|
      triple_seq ((keeps_followedMetadata hI.untimed _).weaken hE) <|
        triple_seq ((keeps_ensureKind _ _).weaken hE) <|
          triple_bind (Q := fun _ => I) (Keeps.weaken ?_ hE) (fun _ =>
            indifferent_openExisting hI hE hAlloc flags c)))
  cases kind with
  | dir => exact keeps_ensured (keeps_pure _)
  | file => exact indifferent_openFileTarget hI _ _ _ _ _

theorem indifferent_checkCreate (rel : Path) (existing : Option Loc) (flags : Nat)
    (c : FuseContext) : Keeps env I (checkCreate rel existing flags c) := by
  cases existing with
  | none => exact keeps_seq (keeps_parentMetadata hI.untimed _) (keeps_ensure _ _)
  | some loc =>
    exact keeps_seq (hI.query _) <| keeps_ensured <| keeps_ensured <|
      keeps_seq (keeps_ensureNotSymlink hI.untimed _) <|
      keeps_seq (hI.query _) <|
      keeps_seq (keeps_ensureRegularFile _) <|
      keeps_map (keeps_ensureOpenFlagsAllowed _ _ _ _)

omit hI in
theorem keeps_checkTarget (targetMeta : Option Meta) (checked : Bool) (flags : Nat)
    (c : FuseContext) : Keeps env I (checkTarget targetMeta checked flags c) :=
  keeps_ifSome fun _ _ => keeps_ensured (keeps_onlyIf fun _ =>
    keeps_seq (keeps_ensureRegularFile _) <|
      keeps_map (keeps_ensureOpenFlagsAllowed _ _ _ _))

theorem indifferent_openTarget (target : Loc) (existed : Bool) (bits mode : Nat)
    (c : FuseContext) : Keeps env I (openTarget target existed bits mode c) :=
  keeps_if (hI.query _) (keeps_seq
    (keeps_seq (keeps_probe _) (keeps_if (hI.query _)
      (keeps_seq keeps_ask (hI.update _))))
    (keeps_seq (hI.update _) (keeps_map (hI.update _))))

include hE in
theorem indifferent_createFileOp {rel : Path}
    (hAlloc : ∀ bits blocked file,
      Triple env I (allocateHandle rel .file bits blocked file) (fun _ => J) E)
    (mode flags : Nat) (ctx : Option FuseContext) :
    Triple env I (createFileOp rel mode flags ctx) (fun _ => J) E := by
  refine triple_ask (triple_gates hE (fun c =>
      triple_seq ((keeps_result _).weaken hE) (triple_seq ((keeps_probe _).weaken hE)
        (triple_seq ((indifferent_checkCreate hI _ _ _ c).weaken hE) <|
          triple_then (Q := I) (Keeps.weaken (keeps_onlyIf fun _ => keeps_if
            (indifferent_copyUpEmptyFileForTruncate hI _)
            (indifferent_copyUpFile hI _)) hE) ?_))))
  refine triple_seq ((keeps_targetFileForWrite _).weaken hE) <|
    triple_seq ((keeps_lstat hI.untimed _).weaken hE) <|
    triple_seq ((keeps_checkTarget _ _ _ _).weaken hE) <|
    triple_seq ((indifferent_clearTombstone hI _).weaken hE) <|
    triple_seq ((indifferent_createDirAll hI _).weaken hE) <|
    triple_bind ((indifferent_openTarget hI _ _ _ _ _).weaken hE) fun _ => ?_
  exact triple_seq ((hI.query _).weaken hE) <|
    triple_seq ((keeps_onlyIf fun _ => hI.update _).weaken hE) <|
    triple_seq ((hI.query _).weaken hE) <|
    triple_seq (hAlloc _ _ _) <|
    triple_done

/-! ### Requests on handles -/

theorem indifferent_setattrFh (path : Path) (handle : Nat) (change : Setattr) (c : FuseContext) :
    Keeps env I (setattrFh path handle change c) := by
  refine keeps_bind ?_ (fun cloned => ?_)
  · exact keeps_seq (keeps_matchingHandle _ _ _) <| keeps_ensured <|
      keeps_seq (keeps_openFileOf _) <|
      hI.query _
  · obtain ⟨file, bits, blocked⟩ := cloned
    exact keeps_ensured (keeps_applyHandleSetattr hI.untimed (hI.free _) _ _ _)

theorem indifferent_copyFileRange (input output : Path) (fhIn fhOut : Nat)
    (offsetIn offsetOut : Int) (len : Nat) :
    Keeps env I (copyFileRange input output fhIn fhOut offsetIn offsetOut len) :=
  triple_ask <|
  keeps_ensured <|
  keeps_seq (keeps_cloneFileHandle hI.untimed _ _ _) <|
  keeps_seq (keeps_cloneFileHandle hI.untimed _ _ _) <|
  keeps_copyFileRangeAt hI.untimed (hI.free _) _ _ _ _ _

end Indifferent

/-! ## Requests -/

/-- The request opens a handle of the kind on the path. -/
def Opens (path : Path) (kind : HandleKind) : Request → Prop
  | .openAt p k .. => p = path ∧ k = kind
  | .create p .. => p = path ∧ kind = .file
  | _ => False

/-- Besides the bookkeeping, only opens and renames touch the handles. -/
theorem keeps_exec_of_indifferent {env : Env} {I : World → Prop} (hI : Indifferent I)
    (hS : Stable env I) {request : Request}
    (hOpen : ∀ path kind, Opens path kind request → ∀ bits blocked file,
      Keeps env I (allocateHandle path kind bits blocked file))
    (hRename : ∀ source target ctx, request = .rename source target ctx →
      Keeps env I (rewritePaths source target)) : Keeps env I (exec request) := by
  by_cases hLook : Looking request
  · exact keeps_exec_of_looking hS hLook
  have hRespond : ∀ {α : Type} {f : α → Response} {x : Op α}, Keeps env I x →
      Keeps env I (respond f x) := fun hx => keeps_map hx
  cases request with
  | setattr path change ctx => exact hRespond (indifferent_setattr hI path change ctx)
  | setxattr path name value flags =>
    exact hRespond (indifferent_setxattr hI path name value flags)
  | removexattr path name => exact hRespond (indifferent_removexattr hI path name)
  | mkdir path mode ctx => exact hRespond (indifferent_mkdir hI path mode ctx)
  | unlink path ctx => exact hRespond (indifferent_unlink hI path ctx)
  | rmdir path ctx => exact hRespond (indifferent_rmdir hI path ctx)
  | rename source target ctx =>
    exact hRespond (indifferent_rename hI (hRename source target ctx rfl) ctx)
  | create path mode flags ctx =>
    exact hRespond
      (indifferent_createFileOp hI (fun _ hw => hw) (hOpen path .file ⟨rfl, rfl⟩) mode flags ctx)
  | mknod path mode ctx => exact hRespond (indifferent_mknod hI path mode ctx)
  | link source target ctx => exact hRespond (indifferent_link hI source target ctx)
  | symlink path target ctx => exact hRespond (indifferent_symlink hI path target ctx)
  | openAt path kind flags ctx =>
    exact hRespond (indifferent_openOp hI (fun _ hw => hw) (hOpen path kind ⟨rfl, rfl⟩) flags ctx)
  | write path offset data ctx => exact hRespond (indifferent_write hI path offset data ctx)
  | writeFh path handle offset data ctx =>
    exact hRespond (keeps_seq (keeps_requireContext _) <|
      keeps_seq (keeps_matchingHandle _ _ _) <| keeps_ensured <|
      keeps_seq (keeps_openFileOf _) <| keeps_writeFileAt hI.untimed (hI.free _) _ _)
  | setattrFh path handle change ctx =>
    exact hRespond (keeps_bind (keeps_requireContext _) (fun c =>
      indifferent_setattrFh hI path handle change c))
  | copyFileRange input output fhIn fhOut offsetIn offsetOut len ctx =>
    exact hRespond (keeps_seq (keeps_requireContext _) <|
      indifferent_copyFileRange hI input output fhIn fhOut offsetIn offsetOut len)
  | fallocate path handle offset length mode =>
    exact hRespond (keeps_ensured <| keeps_seq (keeps_cloneFileHandle hI.untimed _ _ _) <|
      keeps_fallocateAt hI.untimed (hI.free _) _ _)
  | _ => exact absurd trivial hLook

end FabricFs.Overlay
