import FabricFs.Overlay.Requests

/-!
# Rules for the programs of the server

Invariants that do not mention the number of calls made so far are kept by every routine
that only looks at the host. The rules for calls that change the file system reduce an
invariant to what the call does to the file system.
-/

namespace FabricFs.Overlay

open Lib Lib.Prog Server

/-- The number of calls made so far does not matter. -/
def Untimed (I : World → Prop) : Prop := ∀ w n, I w → I { w with calls := n }

/-- What `setxattr` and `removexattr` share: an ACL is changed at the host, any other attribute
in its table. -/
abbrev changeXattr (rel : Path) (name : Bytes) (acl : Loc → Op Unit)
    (f : XattrTable → Except Errno XattrTable) : Op Unit := do
  let env ← ask
  let target ← materializeForXattr rel
  ensure (!xattrUpdatesBlocked env target) .eacces
  if isAclName name then acl target
  else do
    let key ← keyForPath target
    updateTable key f

variable {env : Env} {I E : World → Prop} {α : Type}

/-! ## Calls -/

theorem keeps_probe (f : Env → World → α) : Keeps env I (probe f) := fun _ hw => hw

theorem triple_probe (f : Env → World → α) :
    Triple env I (probe f) (fun a w => I w ∧ a = f env w) E := fun _ hw => ⟨hw, rfl⟩

theorem keeps_query (hI : Untimed I) (f : Env → World → Except Errno α) :
    Keeps env I (query f) := by
  rw [keeps_iff]
  intro w hw
  rw [query_state]
  exact hI w _ hw

/-- A query that succeeds has returned what it computes from the state. -/
theorem triple_query (hI : Untimed I) (f : Env → World → Except Errno α) :
    Triple env I (query f) (fun a w => I w ∧ ∃ n, f env { w with calls := n } = .ok a) I := by
  intro w hw
  have hKeep : Keeps env I (query f) := keeps_query hI f
  have hKeep := hKeep w hw
  rcases hr : query f env w with ⟨e | a, w'⟩
  · rw [hr] at hKeep
    exact hKeep
  · obtain ⟨hf, rfl⟩ := query_ok hr
    exact ⟨hI w _ hw, w.calls, hf⟩

theorem triple_update {Q : α → World → Prop} (hI : Untimed I)
    {f : Env → World → Except Errno (α × HostFs)}
    (h : ∀ w a fs, I w → f env w = .ok (a, fs) → Q a { w with fs := fs, calls := w.calls + 1 }) :
    Triple env I (update f) Q I := by
  intro w hw
  rcases hr : update f env w with ⟨res, w'⟩
  rcases update_cases hr with ⟨e, rfl, rfl⟩ | ⟨a, fs, rfl, hf, rfl⟩
  · exact hI w _ hw
  · exact h w a fs hw hf

theorem keeps_update (hI : Untimed I) {f : Env → World → Except Errno (α × HostFs)}
    (h : ∀ w a fs, I w → f env w = .ok (a, fs) → I { w with fs := fs }) :
    Keeps env I (update f) :=
  triple_update hI (fun w a fs hw hf => hI _ _ (h w a fs hw hf))

/-- Whether an object exists decides how the program goes on. -/
theorem triple_nodeExists {loc : Loc} {f : Bool → Op α} {Q : α → World → Prop}
    (hSome : Triple env (fun w => I w ∧ (w.fs.get loc).isSome = true) (f true) Q E)
    (hNone : Triple env (fun w => I w ∧ w.fs.get loc = none) (f false) Q E) :
    Triple env I (nodeExists loc >>= f) Q E := by
  intro w hw
  rw [nodeExists, probe_bind_run]
  cases hg : w.fs.get loc with
  | some node => exact hSome w ⟨hw, by rw [hg]; rfl⟩
  | none => exact hNone w ⟨hw, hg⟩

theorem triple_symlinkMetadata (hI : Untimed I) (loc : Loc) :
    Triple env I (symlinkMetadata loc)
      (fun info w => I w ∧ ∃ node, w.fs.get loc = some node ∧ info = w.fs.metaOf node) I := by
  refine (triple_query hI _).post ?_
  rintro info w ⟨hw, n, hf⟩
  obtain ⟨node, hNode, rfl⟩ := map_eq_ok.mp hf
  exact ⟨hw, node, w.fs.lookup_eq_ok.mp hNode, rfl⟩

theorem triple_followedMetadata (hI : Untimed I) (loc : Loc) :
    Triple env I (followedMetadata loc) (fun info w => I w ∧
      ∃ node, followNode env w.fs loc = .ok node ∧ info = w.fs.metaOf node) I := by
  refine triple_bind (triple_symlinkMetadata hI loc) (fun linkMeta => ?_)
  have hU : Untimed (fun w => I w ∧
      ∃ node, w.fs.get loc = some node ∧ linkMeta = w.fs.metaOf node) :=
    fun w n hw => ⟨hI w n hw.1, hw.2⟩
  refine triple_ite (fun _ => ?_) (fun hk => triple_pure ?_)
  · refine triple_imp (triple_query hU _) ?_ (fun _ hw => hw.1)
    rintro info w ⟨hw, n, hf⟩
    obtain ⟨node, hNode, rfl⟩ := map_eq_ok.mp hf
    exact ⟨hw.1, node, hNode, rfl⟩
  · rintro w ⟨hw, node, hNode, rfl⟩
    exact ⟨hw, node, followNode_of_not_symlink hNode hk, rfl⟩

theorem triple_ensureNotSymlink (hI : Untimed I) (loc : Loc) :
    Triple env I (ensureNotSymlink loc) (fun _ w => I w ∧
      ∃ node, w.fs.get loc = some node ∧ node.kind ≠ .symlink) I := by
  refine triple_bind (triple_symlinkMetadata hI loc) (fun info => ?_)
  refine triple_imp (triple_ensure fun _ hw => hw) ?_ (fun _ hw => hw.1)
  rintro _ w ⟨⟨hw, node, hNode, rfl⟩, hk⟩
  exact ⟨hw, node, hNode, bne_iff_ne.mp hk⟩

/-- A missing object is reported as such, since no fault looks like one. -/
theorem triple_lstat (hI : Untimed I) (loc : Loc) :
    Triple env I (lstat loc) (fun found w => I w ∧ (found = none → w.fs.get loc = none) ∧
      ∀ info, found = some info → ∃ node, w.fs.get loc = some node ∧ info = w.fs.metaOf node)
      I := by
  intro w hw
  unfold lstat
  rw [tryCatch_run, bind_run]
  simp only [symlinkMetadata, query]
  cases hf : env.fault w.calls with
  | some fault =>
    simp only [if_neg fault.errno_ne]
    exact hI w _ hw
  | none =>
    cases hg : w.fs.get loc with
    | some node =>
      simp only [HostFs.lookup, hg]
      refine ⟨hI w _ hw, (fun h => by cases h), fun info hInfo => ?_⟩
      cases hInfo
      exact ⟨node, hg, rfl⟩
    | none =>
      simp only [HostFs.lookup, hg, Except.map]
      cases (w.fs.tree loc.root).blocked loc.path with
      | true => exact hI w _ hw
      | false => exact ⟨hI w _ hw, fun _ => hg, fun info hInfo => by cases hInfo⟩

/-! ## Routines that only look -/

section Looking

variable (hI : Untimed I)

include hI

theorem keeps_symlinkMetadata (loc : Loc) : Keeps env I (symlinkMetadata loc) := keeps_query hI _

theorem keeps_metadata (loc : Loc) : Keeps env I (metadata loc) := keeps_query hI _

theorem keeps_fileMetadata (file : Node) : Keeps env I (fileMetadata file) := keeps_query hI _

theorem keeps_openFile (loc : Loc) (write : Bool) : Keeps env I (openFile loc write) :=
  keeps_query hI _

omit hI in
theorem keeps_requireContext (ctx : Option FuseContext) : Keeps env I (requireContext ctx) := by
  unfold requireContext
  split
  · exact keeps_pure _
  · exact keeps_throw _

omit hI in
theorem triple_requireContext (ctx : Option FuseContext) :
    Triple env I (requireContext ctx) (fun c w => I w ∧ ctx = some c) I := by
  unfold requireContext
  split
  · exact triple_pure (fun w hw => ⟨hw, rfl⟩)
  · exact triple_thrown

omit hI in
theorem triple_ensureRegularFile (info : Meta) :
    Triple env I (ensureRegularFile info) (fun _ w => I w ∧ info.kind = .file) I := by
  unfold ensureRegularFile
  split
  · rename_i hk
    exact triple_pure (fun w hw => ⟨hw, hk⟩)
  · exact triple_thrown
  · exact triple_thrown

omit hI in
theorem keeps_ensureRegularFile (info : Meta) : Keeps env I (ensureRegularFile info) := by
  unfold ensureRegularFile
  split
  · exact keeps_pure _
  · exact keeps_throw _
  · exact keeps_throw _

omit hI in
theorem keeps_ensureKind (kind : HandleKind) (info : Meta) :
    Keeps env I (ensureKind kind info) := by
  unfold ensureKind
  split
  · exact keeps_throw _
  · exact keeps_throw _
  · exact keeps_pure _

omit hI in
theorem keeps_ensureOpenFlagsAllowed (info : Meta) (uid gid flags : Nat) :
    Keeps env I (ensureOpenFlagsAllowed info uid gid flags) :=
  keeps_seq (keeps_result _) (keeps_ensured (keeps_pure _))

omit hI in
theorem triple_ensureOpenFlagsAllowed (info : Meta) (uid gid flags : Nat) :
    Triple env I (ensureOpenFlagsAllowed info uid gid flags) (fun bits w => I w ∧
      openAccessBits flags = .ok bits ∧ accessAllowed info uid gid bits = true) I := by
  refine triple_learn (triple_result (fun _ hw => hw)) (fun bits hb => ?_)
  refine triple_learn (triple_ensure (fun _ hw => hw)) (fun _ ha => ?_)
  exact triple_pure (fun w hw => ⟨hw, hb, ha⟩)

omit hI in
theorem keeps_ensureRemovalAllowed (parent target : Meta) (uid gid : Nat) :
    Keeps env I (ensureRemovalAllowed parent target uid gid) :=
  keeps_ensured (keeps_ensure _ _)

omit hI in
theorem keeps_ensureSetattrAllowed (info : Meta) (ctx : FuseContext) (change : Setattr) :
    Keeps env I (ensureSetattrAllowed info ctx change) :=
  keeps_seq (keeps_onlyIf (fun _ => keeps_ensure _ _)) <|
    keeps_seq (keeps_onlyIf (fun _ => keeps_ensure _ _)) <| keeps_onlyIf (fun _ => keeps_ensure _ _)

theorem keeps_ensureNotSymlink (loc : Loc) : Keeps env I (ensureNotSymlink loc) :=
  keeps_seq (keeps_query hI _) (keeps_ensure _ _)

omit hI in
theorem keeps_ensureWritable : Keeps env I ensureWritable :=
  keeps_seq keeps_ask (keeps_ensure _ _)

omit hI in
theorem keeps_ensureBackingMutable : Keeps env I ensureBackingMutable :=
  keeps_seq keeps_ask (keeps_ensure _ _)

omit hI in
theorem keeps_ensureMutable : Keeps env I ensureMutable :=
  keeps_seq keeps_ensureWritable keeps_ensureBackingMutable

omit hI in
/-- The context of a request that changes names, and the gates. -/
theorem triple_gates {ctx : Option FuseContext} {f : FuseContext → Op α} {Q : α → World → Prop}
    (hE : ∀ w, I w → E w) (h : ∀ c, Triple env I (f c) Q E) :
    Triple env I (do
      let c ← requireContext ctx
      ensureMutable
      f c) Q E :=
  triple_bind ((keeps_requireContext _).weaken hE) fun c =>
    triple_seq (keeps_ensureMutable.weaken hE) (h c)

omit hI in
theorem keeps_gates {ctx : Option FuseContext} {f : FuseContext → Op α}
    (h : ∀ c, Keeps env I (f c)) : Keeps env I (do
      let c ← requireContext ctx
      ensureMutable
      f c) :=
  triple_gates (fun _ hw => hw) h

omit hI in
theorem keeps_resolveExisting (rel : Path) : Keeps env I (resolveExisting rel) := by
  refine keeps_bind (keeps_probe _) ?_
  intro found
  cases found with
  | none => exact keeps_throw _
  | some loc => exact keeps_pure _

omit hI in
theorem triple_resolveExisting (rel : Path) :
    Triple env I (resolveExisting rel) (fun loc w => I w ∧ resolve env w.fs rel = some loc) I := by
  refine triple_bind (triple_probe _) (fun found => ?_)
  cases found with
  | none => exact triple_throw (fun _ hw => hw.1)
  | some loc => exact triple_pure (fun w hw => ⟨hw.1, hw.2.symm⟩)

omit hI in
theorem keeps_ensureUnionEntryAbsent (rel : Path) : Keeps env I (ensureUnionEntryAbsent rel) :=
  keeps_seq (keeps_probe _) (keeps_ensure _ _)

omit hI in
theorem triple_targetFileForWrite {rel : Path} (hCow : env.layout.cowRoot = true) :
    Triple env I (targetFileForWrite rel) (fun loc w => I w ∧ loc = ⟨.cow, rel⟩) I := by
  refine triple_ask (triple_seq (keeps_ensure _ _) <|
    triple_then keeps_ensureBackingMutable ?_)
  rw [overlayPath, if_pos hCow]
  exact triple_pure (fun w hw => ⟨hw, rfl⟩)

theorem keeps_lstat (loc : Loc) : Keeps env I (lstat loc) := by
  refine keeps_tryCatch (keeps_map (keeps_query hI _)) ?_
  intro e
  exact keeps_if (keeps_pure _) (keeps_throw _)

theorem keeps_dirViewPath (loc : Loc) : Keeps env I (dirViewPath loc) := by
  refine keeps_bind (keeps_query hI _) ?_
  intro linkMeta
  refine keeps_if ?_ ?_
  · exact keeps_seq (keeps_query hI _) <| keeps_ensured <| keeps_map (keeps_query hI _)
  · exact keeps_ensured (keeps_pure _)

theorem keeps_dirSide (loc : Option Loc) : Keeps env I (dirSide loc) := by
  unfold dirSide
  split
  · exact keeps_pure _
  · refine keeps_bind (keeps_probe _) ?_
    intro present
    exact keeps_if (keeps_map (keeps_dirViewPath hI _))
      (keeps_pure _)

theorem keeps_resolveDir (rel : Path) : Keeps env I (resolveDir rel) := by
  refine triple_ask <| keeps_seq (keeps_probe _) <| keeps_ensured <|
    keeps_bind (keeps_dirSide hI _) ?_
  intro overlay
  refine keeps_if (keeps_pure _) ?_
  exact keeps_seq (keeps_dirSide hI _) <| keeps_ensured (keeps_pure _)

theorem keeps_parentMetadata (rel : Path) : Keeps env I (parentMetadata rel) := by
  refine keeps_bind (keeps_resolveDir hI _) ?_
  intro view
  split
  · exact keeps_query hI _
  · exact keeps_throw _

theorem keeps_checkNewEntry (rel : Path) (c : FuseContext) : Keeps env I (checkNewEntry rel c) :=
  keeps_seq (keeps_parentMetadata hI _) <|
  keeps_ensured <|
  keeps_ensureUnionEntryAbsent _

theorem keeps_checkSearch (c : FuseContext) (rel : Path) : Keeps env I (checkSearch c rel) :=
  keeps_seq (keeps_resolveDir hI _) <|
  keeps_seq (keeps_ifSome fun _ _ => keeps_seq (keeps_metadata hI _) <| keeps_ensure _ _) <|
  keeps_ifSome fun _ _ => keeps_seq (keeps_metadata hI _) <| keeps_ensure _ _

theorem keeps_checkRename (source target : Path) (c : FuseContext) :
    Keeps env I (checkRename source target c) := by
  refine keeps_seq (keeps_resolveExisting _) <| keeps_seq (keeps_symlinkMetadata hI _) <|
    keeps_seq (keeps_parentMetadata hI _) <|
    keeps_seq (keeps_ensureRemovalAllowed _ _ _ _) <|
    keeps_seq (keeps_parentMetadata hI _) <|
    keeps_ensured <|
    keeps_seq (keeps_bind (keeps_probe _) fun found => ?_) <|
    keeps_ensure _ _
  cases found with
  | none => exact keeps_pure _
  | some loc =>
    exact keeps_tryCatch (keeps_map (keeps_symlinkMetadata hI _))
      fun _ => keeps_pure _

theorem keeps_anyVisible (rel : Path) (names : List Name) : Keeps env I (anyVisible rel names) := by
  induction names with
  | nil => exact keeps_pure _
  | cons n names ih =>
    refine keeps_seq (keeps_query hI _) (keeps_bind (keeps_probe _) ?_)
    intro hidden
    exact keeps_if ih (keeps_pure _)

theorem keeps_dirHasVisible (rel : Path) (dir : Option Loc) :
    Keeps env I (dirHasVisible rel dir) := by
  unfold dirHasVisible
  split
  · exact keeps_pure _
  · exact keeps_seq (keeps_query hI _) (keeps_anyVisible hI _ _)

theorem keeps_dirIsEmpty (rel : Path) : Keeps env I (dirIsEmpty rel) := by
  refine keeps_bind (keeps_resolveDir hI _) (fun view =>
    keeps_bind (keeps_dirHasVisible hI _ _) ?_)
  intro found
  exact keeps_if (keeps_pure _) (
    keeps_map (keeps_dirHasVisible hI _ _))

theorem keeps_followedMetadata (loc : Loc) : Keeps env I (followedMetadata loc) := by
  refine keeps_bind (keeps_query hI _) ?_
  intro linkMeta
  exact keeps_if (keeps_query hI _) (keeps_pure _)

theorem keeps_readLoop (file : Node) (chunkSize rounds : Nat) :
    ∀ offset wanted total, Keeps env I (readLoop file chunkSize rounds offset wanted total) := by
  induction rounds with
  | zero => exact fun _ _ _ => keeps_pure _
  | succ rounds ih =>
    intro offset wanted total
    refine keeps_if (keeps_pure _) (keeps_bind (keeps_query hI _) ?_)
    intro bytes
    exact keeps_if (keeps_pure _) (ih _ _ _)

theorem keeps_readFileAt (file : Node) (offset size : Int) (limits : FsLimits) :
    Keeps env I (readFileAt file offset size limits) :=
  keeps_ensured (keeps_seq (keeps_query hI _) <| keeps_readLoop hI _ _ _ _ _ _)

theorem keeps_readPath (object : ResolvedObject) (offset size : Int) (ctx : FuseContext) :
    Keeps env I (readPath object offset size ctx) :=
  triple_ask <|
  keeps_seq (keeps_query hI _) <|
  keeps_seq (keeps_query hI _) <|
  keeps_ensured <|
  keeps_readFileAt hI _ _ _ _

omit hI in
theorem keeps_matchingHandle (path : Path) (handle : Nat) (kind : HandleKind) :
    Keeps env I (matchingHandle path handle kind) := by
  refine keeps_bind (keeps_state _) ?_
  intro found
  cases found with
  | none => exact keeps_throw _
  | some entry => exact keeps_ensured (keeps_pure _)

omit hI in
theorem triple_matchingHandle (path : Path) (handle : Nat) (kind : HandleKind) :
    Triple env I (matchingHandle path handle kind) (fun entry w => I w ∧
      w.handles.lookup handle = some entry ∧ handleMatches entry path kind = true) I := by
  intro w hw
  unfold matchingHandle
  rw [bind_run, state_run]
  cases hl : w.handles.lookup handle with
  | none => exact hw
  | some entry =>
    simp only [bind_run, ensure]
    by_cases hm : handleMatches entry path kind = true
    · rw [if_pos hm]
      exact ⟨hw, hl, hm⟩
    · rw [if_neg hm]
      exact hw

omit hI in
theorem keeps_openFileOf (entry : HandleEntry) : Keeps env I (openFileOf entry) := by
  unfold openFileOf
  split
  · exact keeps_pure _
  · exact keeps_throw _

theorem keeps_cloneFileHandle (path : Path) (handle required : Nat) :
    Keeps env I (cloneFileHandle path handle required) :=
  keeps_map
    (keeps_seq (keeps_matchingHandle _ _ _) <| keeps_ensured <| keeps_seq (keeps_openFileOf _) <|
      keeps_query hI _)

theorem triple_cloneFileHandleWithPolicy (path : Path) (handle required : Nat) :
    Triple env I (cloneFileHandleWithPolicy path handle required)
      (fun cloned w => I w ∧ ∃ entry, w.handles.lookup handle = some entry ∧
        handleMatches entry path .file = true ∧ entry.file = some cloned.1 ∧
        entry.accessBits = cloned.2.1 ∧ entry.accessBits &&& required = required ∧
        entry.permissionUpdatesBlocked = cloned.2.2) I := by
  refine triple_bind (triple_matchingHandle path handle .file) ?_
  intro entry
  refine triple_seq (triple_ensure (fun _ hw => hw.1)) (triple_fact ?_)
  intro hBits
  unfold openFileOf
  cases hFile : entry.file with
  | none => exact fun w hw => hw.1
  | some file =>
    have hJ : Untimed (fun w => I w ∧ w.handles.lookup handle = some entry ∧
        handleMatches entry path .file = true) := fun w n hw => ⟨hI w n hw.1, hw.2⟩
    refine triple_imp (triple_query hJ _) ?_ (fun _ hw => hw.1)
    rintro cloned w ⟨⟨hw, hl, hm⟩, n, hc⟩
    cases hc
    exact ⟨hw, entry, hl, hm, hFile, rfl, by simpa using hBits, rfl⟩

/-- A change of nothing, or of the size alone through a handle that may not write, has no
effect. -/
theorem keeps_applyHandleSetattr_idle {file : Node} {bits : Nat} {change : Setattr}
    {ctx : FuseContext} (hPerm : change.permissions = false)
    (h : change.size = none ∨ hasBit bits 0o2 = false) :
    Keeps env I (applyHandleSetattr file bits change ctx) := by
  simp only [Setattr.permissions, Bool.or_eq_false_iff] at hPerm
  obtain ⟨⟨hMode, hUid⟩, hGid⟩ := hPerm
  have hMode' : change.mode = none := by simpa using hMode
  unfold applyHandleSetattr
  rw [hMode', hUid, hGid]
  refine keeps_seq (keeps_fileMetadata hI _) <| keeps_seq (keeps_pure _) <|
    keeps_then (keeps_pure _) ?_
  cases hSize : change.size with
  | none =>
    exact keeps_ensured <| keeps_seq (keeps_pure _) <| keeps_seq (keeps_pure _) <|
      keeps_seq (keeps_pure _) <|
      keeps_fileMetadata hI _
  | some size =>
    rw [h.resolve_left (by simp [hSize])]
    exact fun w hw => hw

theorem keeps_readXattr (loc : Loc) (name : Bytes) (followLink : Bool) :
    Keeps env I (readXattr loc name followLink) := by
  refine keeps_tryCatch (keeps_seq (keeps_query hI _) <|
    keeps_map (keeps_query hI _)) ?_
  intro e
  exact keeps_if (keeps_pure _) (keeps_throw _)

theorem keeps_listXattrNames (loc : Loc) (followLink : Bool) :
    Keeps env I (listXattrNames loc followLink) := by
  refine keeps_tryCatch (keeps_bind (keeps_query hI _) ?_) ?_
  · intro sized
    exact keeps_if (keeps_pure _) (
      keeps_map (keeps_query hI _))
  · intro e
    exact keeps_if (keeps_pure _) (keeps_throw _)

theorem keeps_readAllXattrs (loc : Loc) (followLink : Bool) :
    Keeps env I (readAllXattrs loc followLink) := by
  refine keeps_bind (keeps_listXattrNames hI _ _) ?_
  intro names
  generalize (∅ : XattrTable) = table
  induction names generalizing table with
  | nil => exact keeps_pure _
  | cons name names ih =>
    refine keeps_if (ih _) (keeps_bind (keeps_readXattr hI _ _ _) ?_)
    intro value
    exact ih _

theorem keeps_keyForPath (loc : Loc) : Keeps env I (keyForPath loc) :=
  keeps_map (keeps_query hI _)

theorem keeps_loadManifest (key : Nat) : Keeps env I (loadManifest key) := by
  refine keeps_bind (keeps_probe _) ?_
  intro found
  cases found with
  | none => exact keeps_pure _
  | some manifest => exact keeps_query hI _

theorem keeps_listEntries (rel : Path) (dir : Loc) (seen names : List Name) :
    Keeps env I (listEntries rel dir seen names) := by
  induction names with
  | nil => exact keeps_pure _
  | cons n names ih =>
    refine keeps_seq (keeps_query hI _) (keeps_if ih (
      keeps_bind (keeps_probe _) ?_))
    intro hidden
    exact keeps_if ih (keeps_seq (keeps_query hI _) <|
      keeps_map ih)

theorem keeps_listDir (rel : Path) : Keeps env I (listDir rel) := by
  have hSide : ∀ dir seen, Keeps env I (listSide rel dir seen) := by
    intro dir seen
    unfold listSide
    split
    · exact keeps_pure _
    · exact keeps_seq (keeps_query hI _) (keeps_listEntries hI _ _ _ _)
  exact keeps_seq (keeps_resolveDir hI _) <| keeps_seq (hSide _ _) <| keeps_map (hSide _ _)

end Looking

/-! ## Requests that only look -/

/-- The bookkeeping of handles, locks and loaded attributes does not matter. -/
structure Stable (env : Env) (I : World → Prop) : Prop where
  untimed : Untimed I
  loaded : ∀ key, Keeps env I (loadTable key)
  locked : ∀ w locks flocks, I w → LockTable.LockStep w.locks locks →
    I { w with locks := locks, flocks := flocks }
  released : ∀ w fh, I w → I { w with handles := w.handles.erase fh }
  sought : ∀ w fh entry offset, I w → w.handles.lookup fh = some entry →
    I { w with handles := w.handles.insert fh { entry with offset := offset } }

/-- The requests that change neither the file system nor the set of open files, releases
apart. -/
def Looking : Request → Prop
  | .readlink .. | .stat .. | .exists .. | .statfs | .getxattr .. | .listxattr ..
  | .listDir .. | .releaseFh .. | .read .. | .readFh .. | .syncFile .. | .syncFh ..
  | .checkHandle .. | .releasePosixLocks .. | .getlk .. | .setlk .. | .flock ..
  | .lseek .. => True
  | _ => False

theorem keeps_getxattr (hI : Stable env I) (rel : Path) (name : Bytes) (size : Nat) :
    Keeps env I (getxattr rel name size) := by
  have hSized : ∀ value : Bytes, Keeps env I (if size = 0 then
      pure (List.replicate value.length 0) else do
        ensure (decide (value.length ≤ size)) Errno.erange
        pure value) := fun value =>
    keeps_if (keeps_pure _) (
      keeps_ensured (keeps_pure _))
  refine keeps_bind (keeps_resolveExisting _) (fun loc => keeps_if ?_ ?_)
  · exact keeps_bind (keeps_query hI.untimed _) hSized
  · refine keeps_bind (keeps_keyForPath hI.untimed _) (fun key =>
      keeps_bind (hI.loaded key) (fun table => ?_))
    split
    · exact keeps_throw _
    · exact hSized _

theorem keeps_listxattr (hI : Stable env I) (rel : Path) : Keeps env I (listxattr rel) :=
  keeps_seq (keeps_resolveExisting _) <|
  keeps_seq (keeps_listXattrNames hI.untimed _ _) <|
  keeps_seq (keeps_keyForPath hI.untimed _) <|
  keeps_map (hI.loaded _)

theorem keeps_releaseHandle (hI : Stable env I) (handle : Nat) :
    Keeps env I (releaseHandle handle) :=
  keeps_change (fun w hw => hI.locked _ _ _ (hI.released w handle hw) (.closed handle))

theorem keeps_releasePosixLocks (hI : Stable env I) (path : Path) (handle owner : Nat) :
    Keeps env I (releasePosixLocks path handle owner) :=
  keeps_seq (keeps_cloneFileHandle hI.untimed _ _ _) <|
    keeps_seq (keeps_fileMetadata hI.untimed _) <|
      keeps_change (fun w hw => hI.locked w _ w.flocks hw (.released _ owner))

theorem keeps_getlk (hI : Stable env I) (path : Path) (handle owner first last : Nat)
    (typ : Int) : Keeps env I (getlk path handle owner first last typ) :=
  keeps_seq (keeps_result _) <|
  keeps_seq (keeps_cloneFileHandle hI.untimed _ _ _) <|
  keeps_seq (keeps_fileMetadata hI.untimed _) <|
  keeps_seq (keeps_state _) <|
  keeps_result _

theorem keeps_setlk (hI : Stable env I) (path : Path) (handle owner first : Nat) {last : Nat}
    (hLast : last ≤ u64Max) (typ : Int) (pid : Nat) :
    Keeps env I (setlk path handle owner first last typ pid) := by
  refine keeps_seq (keeps_result _) <| keeps_seq (keeps_cloneFileHandle hI.untimed _ _ _) <|
    keeps_bind (keeps_fileMetadata hI.untimed _) fun info => ?_
  intro w hw
  rw [bind_run, state_run]
  simp only [bind_run, result]
  cases hs : LockTable.setlk w.locks info.ino handle owner first last typ pid with
  | error e => exact hw
  | ok locks => exact hI.locked w locks w.flocks hw (.set hLast hs)

theorem keeps_flock (hI : Stable env I) (path : Path) (handle owner operation : Nat) :
    Keeps env I (flock path handle owner operation) :=
  keeps_seq (keeps_cloneFileHandle hI.untimed _ _ _) <|
  keeps_seq (keeps_fileMetadata hI.untimed _) <|
  keeps_seq (keeps_state _) <|
  keeps_seq (keeps_result _) <|
  keeps_change (fun w hw => hI.locked w w.locks _ hw .idle)

theorem keeps_checkHandle (path : Path) (handle : Option Nat) (kind : HandleKind) :
    Keeps env I (checkHandle path handle kind) := by
  cases handle with
  | none => exact keeps_throw _
  | some handle => exact keeps_map (keeps_matchingHandle _ _ _)

theorem keeps_lseek (hI : Stable env I) (path : Path) (handle : Nat) (offset : Int)
    (whence : Nat) : Keeps env I (lseek path handle offset whence) := by
  refine triple_bind (triple_matchingHandle path handle .file) (fun entry => ?_)
  have hU : Untimed (fun w => I w ∧ w.handles.lookup handle = some entry ∧
      handleMatches entry path .file = true) := fun w n hw => ⟨hI.untimed w n hw.1, hw.2⟩
  refine triple_bind ((keeps_openFileOf entry).weaken fun _ hw => hw.1) (fun file => ?_)
  refine triple_bind ((keeps_fileMetadata hU file).weaken fun _ hw => hw.1) (fun info => ?_)
  refine triple_bind ((keeps_result _).weaken fun _ hw => hw.1) (fun newOffset => ?_)
  refine triple_bind (Q := fun _ => I) ?_ (fun _ => keeps_pure _)
  exact fun w hw => hI.sought w handle entry newOffset hw.1 hw.2.1

/-- What is stable under the bookkeeping is kept by every request that only looks. -/
theorem keeps_exec_of_looking (hI : Stable env I) {request : Request} (h : Looking request) :
    Keeps env I (exec request) := by
  have hU := hI.untimed
  have hRespond : ∀ {α : Type} {f : α → Response} {x : Op α}, Keeps env I x →
      Keeps env I (respond f x) := fun hx => keeps_map hx
  cases request with
  | readlink path =>
    exact hRespond (keeps_seq (keeps_resolveExisting _) (keeps_query hU _))
  | stat path =>
    exact hRespond (keeps_seq (keeps_resolveExisting _) (keeps_query hU _))
  | «exists» path => exact hRespond (keeps_resolveExisting _)
  | statfs =>
    exact hRespond (keeps_seq keeps_ask (keeps_ensured (keeps_query hU _)))
  | getxattr path name size => exact hRespond (keeps_getxattr hI path name size)
  | listxattr path => exact hRespond (keeps_listxattr hI path)
  | listDir path => exact hRespond (keeps_listDir hU path)
  | releaseFh handle => exact hRespond (keeps_releaseHandle hI handle)
  | read path offset size ctx =>
    exact hRespond (keeps_seq (keeps_requireContext _) <|
      keeps_seq (keeps_resolveExisting _) (keeps_readPath hU _ _ _ _))
  | readFh path handle offset size ctx =>
    exact hRespond (keeps_seq (keeps_requireContext _) (keeps_seq keeps_ask
      (keeps_seq (keeps_matchingHandle _ _ _) (keeps_ensured (keeps_seq (keeps_openFileOf _)
        (keeps_readFileAt hU _ _ _ _))))))
  | syncFile path =>
    exact hRespond (keeps_seq (keeps_resolveExisting _) <|
      keeps_seq (keeps_openFile hU _ _) (keeps_query hU _))
  | syncFh path handle kind =>
    exact hRespond (keeps_seq (keeps_matchingHandle _ _ _) <|
      keeps_seq (keeps_openFileOf _) (keeps_query hU _))
  | checkHandle path handle kind => exact hRespond (keeps_checkHandle path handle kind)
  | releasePosixLocks path handle owner =>
    exact hRespond (keeps_releasePosixLocks hI path handle owner)
  | getlk path handle owner first last typ =>
    exact hRespond (keeps_getlk hI path handle owner _ _ typ)
  | setlk path handle owner first last typ pid =>
    exact hRespond (keeps_setlk hI path handle owner _ (Nat.le_pred_of_lt last.toNat_lt) typ pid)
  | flock path handle owner operation =>
    exact hRespond (keeps_flock hI path handle owner operation)
  | lseek path handle offset whence => exact hRespond (keeps_lseek hI path handle offset whence)
  | _ => exact h.elim

end FabricFs.Overlay
