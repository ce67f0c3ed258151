import FabricFs.Overlay.Grown
import FabricFs.Overlay.Samples

/-!
# What a copy-up shows

A copy-up should not be visible: a path shows the same object with the same attributes before
and after it. Kind, contents, mode, owner and link text are compared by `sight`, attributes
by the answers of `getxattr` and `listxattr`.

* `copy_up_unseen`: a copy-up of objects without host attributes, into directories without a
  default ACL, changes nothing that the path and the paths below it show, and a second
  copy-up does nothing.
* `copy_up_reveals_attribute`: the attributes that the host keeps for a backing file are shown
  only after the copy-up.
-/

namespace FabricFs.Overlay

open Lib Lib.Prog Server List Option

/-! ## What a path shows -/

/-- What a path shows besides attributes. The entries of a directory are paths of their own. -/
structure Sight where
  kind : Kind
  perm : Nat
  uid : Nat
  gid : Nat
  contents : Bytes
  deriving DecidableEq

def sightOf (fs : HostFs) (node : Node) : Sight :=
  let inode := fs.inode node.ino
  ⟨node.kind, inode.perm, inode.uid, inode.gid, if node.kind = .dir then [] else inode.data⟩

def sight (env : Env) (fs : HostFs) (rel : Path) : Option Sight :=
  (resolve env fs rel).bind fun loc => (fs.get loc).map (sightOf fs)

/-- Neither the object of the path nor its attributes look different. -/
structure Unseen (env : Env) (w w' : World) (rel : Path) : Prop where
  sight_eq : sight env w'.fs rel = sight env w.fs rel
  getxattr_eq : ∀ name size, (getxattr rel name size env w').1 = (getxattr rel name size env w).1
  listxattr_eq : (listxattr rel env w').1.map Multiset.ofList =
    (listxattr rel env w).1.map Multiset.ofList

section Answers

variable {env : Env} {w : World} {rel : Path}

/-- The table of the store for an inode. -/
def tableAt (env : Env) (w : World) (ino : Nat) : XattrTable :=
  (w.cache.lookup ino).getD (storedTable env w.fs ino)

/-- The answer to a request for a value. -/
def valueAnswer (value : Bytes) (size : Nat) : Except Errno Bytes :=
  if size = 0 then .ok (List.replicate value.length 0)
  else if value.length ≤ size then .ok value else .error .erange

theorem getxattr_invisible (h : resolve env w.fs rel = none) (name : Bytes) (size : Nat) :
    (getxattr rel name size env w).1 = .error .enoent := by
  unfold getxattr resolveExisting
  simp only [bind_run, probe_run, h]
  rfl

theorem listxattr_invisible (h : resolve env w.fs rel = none) :
    (listxattr rel env w).1 = .error .enoent := by
  unfold listxattr resolveExisting
  simp only [bind_run, probe_run, h]
  rfl

variable (hCalm : ∀ k, env.fault k = none)

include hCalm

theorem loadTable_run (key : Nat) : ∃ w', loadTable key env w = (.ok (tableAt env w key), w') := by
  unfold loadTable tableAt
  rw [state_bind_run]
  cases w.cache.lookup key with
  | some table => exact ⟨w, rfl⟩
  | none =>
    simp only [loadManifest, storedTable]
    rw [bind_run, probe_bind_run]
    cases manifestAt env w.fs key with
    | none => exact ⟨_, rfl⟩
    | some manifest =>
      simp only [query, hCalm]
      exact ⟨_, rfl⟩

/-- The table of a path is that of the inode of the path. -/
theorem table_bind_run {α : Type} {loc : Loc} {node : Node} (hNode : w.fs.get loc = some node)
    (f : XattrTable → Op α) :
    ∃ w', (keyForPath loc >>= fun key => loadTable key >>= f) env w =
      f (tableAt env w node.ino) env w' := by
  have hKey : keyForPath loc env w = (.ok node.ino, { w with calls := w.calls + 1 }) := by
    simp only [keyForPath, symlinkMetadata, bind_run, query, hCalm, HostFs.lookup, hNode]
    rfl
  obtain ⟨w', hLoad⟩ := @loadTable_run env { w with calls := w.calls + 1 } hCalm node.ino
  refine ⟨w', ?_⟩
  rw [bind_run_ok hKey, bind_run_ok hLoad]
  rfl

variable {loc : Loc} {node : Node} (hResolve : resolve env w.fs rel = some loc)
  (hNode : w.fs.get loc = some node)

include hResolve hNode

/-- Without a table in the store, the answer comes from the host. -/
theorem getxattr_run (hTable : tableAt env w node.ino = ∅) (name : Bytes) (size : Nat) :
    (getxattr rel name size env w).1 =
      if isAclName name then
        match nodeAt env w.fs loc true with
        | .error e => .error e
        | .ok found =>
          match (w.fs.inode found.ino).xattrs.lookup name with
          | none => .error .enodata
          | some value => valueAnswer value size
      else .error .enodata := by
  unfold getxattr resolveExisting
  simp only [bind_run, probe_run, hResolve, pure_run]
  by_cases hAcl : isAclName name = true
  · simp only [if_pos hAcl, getXattr, bind_run, query, hCalm]
    cases nodeAt env w.fs loc true with
    | error e => rfl
    | ok found =>
      dsimp only
      cases (w.fs.inode found.ino).xattrs.lookup name with
      | none => rfl
      | some value =>
        dsimp only
        unfold valueAnswer
        split
        · rfl
        · rw [bind_run]
          by_cases hSize : value.length ≤ size
          · simp [ensure, hSize]
          · simp [ensure, hSize]
  · obtain ⟨w', hRun⟩ := table_bind_run hCalm hNode (fun table =>
      match table.lookup name with
      | none => throw .enodata
      | some value =>
        if size = 0 then pure (List.replicate value.length 0)
        else do
          ensure (decide (value.length ≤ size)) .erange
          pure value)
    rw [hTable] at hRun
    simp only [if_neg hAcl]
    exact congrArg Prod.fst hRun

theorem listxattr_run (hTable : tableAt env w node.ino = ∅) :
    (listxattr rel env w).1 =
      match nodeAt env w.fs loc true with
      | .error e => if e = .eopnotsupp then .ok [] else .error e
      | .ok found => .ok (((w.fs.inode found.ino).xattrs.keys.filter
          (fun name => decide (Utf8 name))).filter isAclName) := by
  have hNames : ∀ (names : List Bytes) v, v.fs = w.fs → v.cache = w.cache →
      ((keyForPath loc >>= fun key => loadTable key >>= fun table =>
        pure (names.filter isAclName ++ table.keys) : Op (List Bytes)) env v).1 =
        .ok (names.filter isAclName) := by
    intro names v hFs hCache
    have hGet : v.fs.get loc = some node := by rw [hFs]; exact hNode
    obtain ⟨w', hRun⟩ := table_bind_run hCalm hGet
      (fun table => pure (names.filter isAclName ++ table.keys))
    have hEmpty : tableAt env v node.ino = ∅ := by
      rw [tableAt, hFs, hCache]
      exact hTable
    rw [hRun, hEmpty]
    exact congrArg Except.ok (append_nil _)
  unfold listxattr resolveExisting
  simp only [bind_run, probe_run, hResolve, pure_run]
  simp only [listXattrNames, tryCatch_run, bind_run, listXattr, query, hCalm]
  cases hAt : nodeAt env w.fs loc true with
  | error e =>
    simp only [Except.map]
    by_cases he : e = .eopnotsupp
    · simp only [if_pos he]
      exact hNames [] { w with calls := w.calls + 1 } rfl rfl
    · simp only [if_neg he]
      rfl
  | ok found =>
    simp only [Except.map]
    by_cases hEmpty : (w.fs.inode found.ino).xattrs.keys = []
    · simp only [if_pos hEmpty]
      rw [hEmpty]
      exact hNames [] { w with calls := w.calls + 1 } rfl rfl
    · simp only [if_neg hEmpty, bind_run, query, hCalm, hAt, pure_run]
      exact hNames _ { w with calls := w.calls + 1 + 1 } rfl rfl

end Answers

/-! ## Before and after -/

section Compared

variable {env : Env} {w w' : World} {A : Set Path} {rel : Path} {T : Nat → XattrTable}

/-- No link in the alias tree. -/
def PlainAlias (fs : HostFs) : Prop :=
  ∀ p node, fs.get ⟨.alias, p⟩ = some node → node.kind ≠ .symlink

theorem Grown.followNode_alias (h : Grown w A w') (hAlias : PlainAlias w.fs) (p : Path) :
    followNode env w'.fs ⟨.alias, p⟩ = followNode env w.fs ⟨.alias, p⟩ := by
  have hTree := h.tree_eq .alias (by decide)
  have hGet : w'.fs.get ⟨.alias, p⟩ = w.fs.get ⟨.alias, p⟩ := by
    rw [HostFs.get, hTree]
    rfl
  cases hg : w.fs.get ⟨.alias, p⟩ with
  | none => simp only [followNode, follow, followAux, HostFs.lookup, hGet, hg, hTree]
  | some node =>
    rw [followNode_of_not_symlink (hGet.trans hg) (hAlias p node hg),
      followNode_of_not_symlink hg (hAlias p node hg)]

theorem Grown.isTombstoned_eq (h : Grown w A w') (hAlias : PlainAlias w.fs) (p : Path) :
    isTombstoned env w'.fs p = isTombstoned env w.fs p := by
  unfold isTombstoned
  cases hp : tombstonePath env p with
  | none => rfl
  | some loc =>
    obtain rfl := tombstonePath_eq hp
    have hTree := h.tree_eq .alias (by decide)
    have hLookup : ∀ q, w'.fs.lookup ⟨.alias, q⟩ = w.fs.lookup ⟨.alias, q⟩ := by
      intro q
      simp only [HostFs.lookup, HostFs.get, hTree]
    simp only [hLookup, isFileAt, childLoc, h.followNode_alias hAlias]

theorem Grown.tableAt_eq (h : Grown w A w') (ino : Nat) :
    tableAt env w' ino = tableAt env w ino := by
  unfold tableAt storedTable manifestAt
  rw [h.cache_eq, h.manifest_eq]

theorem Tables.tableAt_eq {B : Set Path} (h : Tables env T B w) (ino : Nat) :
    tableAt env w ino = T ino := by
  unfold tableAt
  cases hc : w.cache.lookup ino with
  | none => exact h.stored ino
  | some table => exact h.cached ino table hc

theorem Alike.refl (kind : Kind) (inode : Inode) : Alike kind inode inode :=
  ⟨rfl, rfl, rfl, fun _ => rfl, fun _ _ => rfl⟩

/-- The names of ACLs that an answer lists. -/
theorem Alike.names {kind : Kind} {original copy : Inode} (h : Alike kind original copy) :
    ((copy.xattrs.keys.filter fun name => decide (Utf8 name)).filter isAclName).Perm
      ((original.xattrs.keys.filter fun name => decide (Utf8 name)).filter isAclName) := by
  rw [perm_ext_iff_of_nodup ((copy.xattrs.keys_nodup.filter _).filter _)
    ((original.xattrs.keys_nodup.filter _).filter _)]
  intro name
  simp only [mem_filter]
  have hMem : isAclName name = true → (name ∈ copy.xattrs.keys ↔ name ∈ original.xattrs.keys) := by
    intro hName
    rw [← AList.mem_keys, ← AList.mem_keys, ← AList.lookup_isSome, ← AList.lookup_isSome,
      h.acls name hName]
  constructor
  · rintro ⟨⟨hKey, hUtf8⟩, hName⟩
    exact ⟨⟨(hMem hName).mp hKey, hUtf8⟩, hName⟩
  · rintro ⟨⟨hKey, hUtf8⟩, hName⟩
    exact ⟨⟨(hMem hName).mpr hKey, hUtf8⟩, hName⟩

/-- The link texts of a path lead out of the three trees, from the backing object and from its
copy. -/
def LeadsOut (env : Env) (fs : HostFs) (rel : Path) : Prop :=
  ∀ source, fs.get ⟨.backing, rel⟩ = some source → source.kind = .symlink →
    linkDest env ⟨.backing, rel⟩ (fs.inode source.ino).data = none ∧
    linkDest env ⟨.cow, rel⟩ (fs.inode source.ino).data = none

theorem followNode_leadsOut {fs : HostFs} {loc : Loc} {node : Node} (hNode : fs.get loc = some node)
    (hk : node.kind = .symlink) (hOut : linkDest env loc (fs.inode node.ino).data = none) :
    followNode env fs loc = .error .enoent := by
  simp only [followNode, follow, followAux, HostFs.lookup, hNode, if_pos hk, hOut]

theorem unseen_of_alike (hCalm : ∀ k, env.fault k = none) {loc loc' : Loc} {node node' : Node}
    (hResolve : resolve env w.fs rel = some loc) (hResolve' : resolve env w'.fs rel = some loc')
    (hNode : w.fs.get loc = some node) (hNode' : w'.fs.get loc' = some node')
    (hKind : node'.kind = node.kind)
    (hAlike : Alike node.kind (w.fs.inode node.ino) (w'.fs.inode node'.ino))
    (hTable : tableAt env w node.ino = ∅) (hTable' : tableAt env w' node'.ino = ∅)
    (hOut : node.kind = .symlink → linkDest env loc (w.fs.inode node.ino).data = none ∧
      linkDest env loc' (w.fs.inode node.ino).data = none) : Unseen env w w' rel := by
  have hSight : sight env w'.fs rel = sight env w.fs rel := by
    unfold sight
    rw [hResolve, hResolve', bind_some, bind_some, hNode, hNode', map_some,
      map_some]
    unfold sightOf
    simp only [hKind, hAlike.perm, hAlike.uid, hAlike.gid]
    by_cases hDir : node.kind = .dir
    · simp only [if_pos hDir]
    · simp only [if_neg hDir, hAlike.data hDir]
  by_cases hk : node.kind = .symlink
  · obtain ⟨hOut₁, hOut₂⟩ := hOut hk
    rw [← hAlike.data (by simp [hk])] at hOut₂
    have hAt : nodeAt env w.fs loc true = .error .enoent := followNode_leadsOut hNode hk hOut₁
    have hAt' : nodeAt env w'.fs loc' true = .error .enoent :=
      followNode_leadsOut hNode' (hKind.trans hk) hOut₂
    refine ⟨hSight, fun name size => ?_, ?_⟩
    · rw [getxattr_run hCalm hResolve hNode hTable, getxattr_run hCalm hResolve' hNode' hTable',
        hAt, hAt']
    · rw [listxattr_run hCalm hResolve hNode hTable, listxattr_run hCalm hResolve' hNode' hTable',
        hAt, hAt']
  · have hAt : nodeAt env w.fs loc true = .ok node := followNode_of_not_symlink hNode hk
    have hAt' : nodeAt env w'.fs loc' true = .ok node' :=
      followNode_of_not_symlink hNode' (hKind ▸ hk)
    refine ⟨hSight, fun name size => ?_, ?_⟩
    · rw [getxattr_run hCalm hResolve hNode hTable, getxattr_run hCalm hResolve' hNode' hTable',
        hAt, hAt']
      by_cases hAcl : isAclName name = true
      · simp only [if_pos hAcl, hAlike.acls name hAcl]
      · simp only [if_neg hAcl]
    · rw [listxattr_run hCalm hResolve hNode hTable, listxattr_run hCalm hResolve' hNode' hTable',
        hAt, hAt']
      exact congrArg Except.ok (Multiset.coe_eq_coe.mpr hAlike.names)

theorem unseen_of_invisible (h : resolve env w.fs rel = none) (h' : resolve env w'.fs rel = none) :
    Unseen env w w' rel where
  sight_eq := by rw [sight, sight, h, h', bind_none, bind_none]
  getxattr_eq name size := by rw [getxattr_invisible h, getxattr_invisible h']
  listxattr_eq := by rw [listxattr_invisible h, listxattr_invisible h']

theorem resolve_of_missing {fs : HostFs} {p : Path} (hCow : fs.get ⟨.cow, p⟩ = none)
    (hBacking : fs.get ⟨.backing, p⟩ = none) : resolve env fs p = none := by
  rw [eq_none_iff_forall_ne_some]
  intro loc h
  obtain ⟨-, ⟨-, -, hSome⟩ | ⟨-, -, hSome, -⟩⟩ := resolve_eq_some.mp h
  · rw [hCow] at hSome
    cases hSome
  · rw [hBacking] at hSome
    cases hSome

/-- What has been added below a path that had no copy is not seen. -/
theorem unseen_of_mirroring (hCalm : ∀ k, env.fault k = none) (hStore : Tables env T ∅ w)
    (hAlias : PlainAlias w.fs) (hBacking : env.layout.backingRoot = true)
    (hNone : w.fs.get ⟨.cow, rel⟩ = none) {t : Path} (hOut : LeadsOut env w.fs (rel ++ t))
    (h : Mirroring w rel w') : Unseen env w w' (rel ++ t) := by
  obtain ⟨hGrown, hMirrored⟩ := h
  have hTombstone : isTombstoned env w'.fs (rel ++ t) = isTombstoned env w.fs (rel ++ t) :=
    hGrown.isTombstoned_eq hAlias (rel ++ t)
  have hAbsent : w.fs.get ⟨.cow, rel ++ t⟩ = none := Tree.get_append_eq_none hNone t
  have hEmpty : ∀ {source}, w.fs.get ⟨.backing, rel ++ t⟩ = some source →
      tableAt env w source.ino = ∅ := fun hSource =>
    (hStore.tableAt_eq _).trans (hStore.elsewhere (by simp) hSource)
  cases hHidden : isTombstoned env w.fs (rel ++ t) with
  | true =>
    refine unseen_of_invisible ?_ ?_
    · rw [resolve, if_pos hHidden]
    · rw [resolve, hTombstone, if_pos hHidden]
  | false =>
    cases hSource : w.fs.get ⟨.backing, rel ++ t⟩ with
    | none =>
      have hNew : w'.fs.get ⟨.cow, rel ++ t⟩ = none := by
        by_contra hSome
        obtain ⟨node, hNode⟩ := ne_none_iff_exists'.mp hSome
        obtain ⟨-, source, hFound, -⟩ := hMirrored t node hNode hAbsent
        rw [hSource] at hFound
        cases hFound
      refine unseen_of_invisible ?_ ?_
      · exact resolve_of_missing hAbsent hSource
      · exact resolve_of_missing hNew ((hGrown.get_backing _).trans hSource)
    | some source =>
      have hBefore : resolve env w.fs (rel ++ t) = some ⟨.backing, rel ++ t⟩ :=
        resolve_eq_some.mpr ⟨hHidden, .inr ⟨hBacking, rfl, by rw [hSource]; rfl, fun _ => hAbsent⟩⟩
      have hInode := hGrown.inode_eq _ (w.fs.mem_inos hSource)
      have hSource' : w'.fs.get ⟨.backing, rel ++ t⟩ = some source :=
        (hGrown.get_backing _).trans hSource
      have hStay : (env.layout.cowRoot = true → w'.fs.get ⟨.cow, rel ++ t⟩ = none) →
          Unseen env w w' (rel ++ t) := by
        intro hNew
        have hAfter : resolve env w'.fs (rel ++ t) = some ⟨.backing, rel ++ t⟩ :=
          resolve_eq_some.mpr ⟨hTombstone.trans hHidden, .inr ⟨hBacking, rfl,
            by rw [hSource']; rfl, hNew⟩⟩
        refine unseen_of_alike hCalm hBefore hAfter hSource hSource' rfl
          (hInode ▸ .refl _ _) (hEmpty hSource) ((hGrown.tableAt_eq _).trans (hEmpty hSource))
          fun hk => ?_
        exact ⟨(hOut source hSource hk).1, (hOut source hSource hk).1⟩
      cases hCow : env.layout.cowRoot with
      | false => exact hStay fun h => by rw [hCow] at h; cases h
      | true =>
        cases hNode : w'.fs.get ⟨.cow, rel ++ t⟩ with
        | none => exact hStay fun _ => hNode
        | some node =>
          obtain ⟨hFresh, found, hFound, hKind, hAlike⟩ := hMirrored t node hNode hAbsent
          rw [hSource, some.injEq] at hFound
          subst hFound
          have hAfter : resolve env w'.fs (rel ++ t) = some ⟨.cow, rel ++ t⟩ :=
            resolve_eq_some.mpr ⟨hTombstone.trans hHidden, .inl ⟨hCow, rfl, by rw [hNode]; rfl⟩⟩
          exact unseen_of_alike hCalm hBefore hAfter hSource hNode hKind hAlike (hEmpty hSource)
            (((hGrown.tableAt_eq _).trans (hStore.tableAt_eq _)).trans (hStore.unused hFresh))
            (hOut source hSource)

end Compared

/-! ## The routines -/

/-- The three routines that copy an object to the copy-on-write tree. -/
inductive Routine where
  | node
  | file
  | tree
  deriving DecidableEq

namespace Routine

def copyUp : Routine → Path → Op Unit
  | node => copyUpNode
  | file => copyUpFile
  | tree => copyUpTree

/-- The objects that a routine copies, relative to its path. -/
def reach : Routine → Set Path
  | node => {[]}
  | file => {[]}
  | tree => Set.univ

end Routine

open Routine (copyUp tree file)

/-- Only the number of calls differs. -/
def OnlyLooked (w v : World) : Prop := ∃ n, v = { w with calls := n }

/-- A copy-up of a path that has a copy does nothing but look. -/
theorem copyUp_repeated {env : Env} {w : World} {rel : Path} (r : Routine)
    (hSome : (w.fs.get ⟨.cow, rel⟩).isSome = true) :
    OnlyLooked w (r.copyUp rel env w).2 := by
  have hU : Untimed (OnlyLooked w) := by
    rintro v k ⟨n, rfl⟩
    exact ⟨k, rfl⟩
  have hNever : ∀ {info : Meta} {x : Op Unit},
      Copies env rel (OnlyLooked w) (fun _ => OnlyLooked w) (OnlyLooked w) info x := by
    rintro info x v ⟨⟨n, rfl⟩, hNone, -⟩
    have hGone : w.fs.get ⟨.cow, rel⟩ = none := hNone
    rw [hGone] at hSome
    cases hSome
  have hRules : CopyRules env rel (OnlyLooked w) (fun _ => OnlyLooked w) (OnlyLooked w) :=
    .of_never hU (fun _ hv _ => hv) (fun _ hv => hv) hNever
  have hKeep : Keeps env (OnlyLooked w) (r.copyUp rel) := by
    cases r with
    | node => exact triple_copyUpNode hRules
    | file => exact triple_copyUpFile hRules
    | tree =>
      exact triple_seq (keeps_state _) <| triple_copyUpTreeAux hRules fun _ _ => hNever
  exact keeps_iff.mp hKeep w ⟨w.calls, rfl⟩

theorem cowRoot_of_copyUp {env : Env} {w w' : World} {rel : Path} (r : Routine)
    (h : r.copyUp rel env w = (.ok (), w')) : env.layout.cowRoot = true := by
  by_contra hNo
  have hPath : overlayPath env rel = none := if_neg hNo
  cases r with
  | node =>
    simp only [copyUp, copyUpNode, ask_bind_run, hPath] at h
    cases h
  | file =>
    simp only [copyUp, copyUpFile, ask_bind_run, hPath] at h
    cases h
  | tree =>
    unfold copyUp copyUpTree at h
    dsimp only at h
    rw [state_bind_run] at h
    unfold copyUpTreeAux at h
    simp only [ask_bind_run, hPath] at h
    cases h

/-! ## Copy-up is not seen -/

theorem finished_copyUp {env : Env} {w w' : World} {rel : Path} (r : Routine)
    (hCalm : ∀ k, env.fault k = none) (hAcls : env.propagateAcls = true)
    (hSeeks : PosixSeeks env) (hPortable : PortableBelow env w.fs rel r.reach)
    (h : r.copyUp rel env w = (.ok (), w')) : Finished env w rel [] ∅ w' := by
  have hStart : Ready w rel [] ∅ w :=
    ⟨mirroring_start w rel, fun q hq => hq.elim, .inl (append_nil rel)⟩
  have hRun : Triple env (Ready w rel [] ∅) (r.copyUp (rel ++ []))
      (fun _ => Finished env w rel [] ∅) (fun _ => True) := by
    cases r with
    | node => exact triple_copyUpNode (mirrored_copyRules hCalm hAcls hSeeks hPortable rfl)
    | file => exact triple_copyUpFile (mirrored_copyRules hCalm hAcls hSeeks hPortable rfl)
    | tree => exact mirrored_copyUpTree hCalm hAcls hSeeks hPortable
  rw [append_nil] at hRun
  have hDone := hRun.of_ok hStart (a := ()) (by rw [h])
  rwa [h] at hDone

/-- The host passes a default ACL of a directory on to what is made there, which the model of the
calls does not do. -/
def NoDefaultAcl (fs : HostFs) (node : Node) : Prop :=
  (fs.inode node.ino).xattrs.lookup (nameOf "system.posix_acl_default") = none

/-- What a routine copies can be copied as it is, and inherits nothing from the directory in
which the copy is made. -/
structure CopyableAsIs (env : Env) (fs : HostFs) (rel : Path) (r : Routine) : Prop where
  portable : PortableBelow env fs rel r.reach
  straight : fs.Straight rel
  above : ∀ q node, q <+: rel → fs.get ⟨.cow, q⟩ = some node → NoDefaultAcl fs node
  below : r = tree → ∀ t node, fs.get ⟨.backing, rel ++ t⟩ = some node → NoDefaultAcl fs node

/-- A host that finds data and holes, and where no file is sparse. -/
def denseEnv : Env := { holeyEnv (fun _ => false) with sparse := fun _ => false }

theorem posixSeeks_denseEnv : PosixSeeks denseEnv := by
  intro inode
  obtain ⟨holes, hZero, hData, hHole⟩ := posixSeeks_holeyEnv (fun _ => false) inode
  exact ⟨holes, hZero, hData, hHole⟩

theorem oneFile_get {loc : Loc} {node : Node} (h : oneFile.get loc = some node) :
    (loc = ⟨.backing, [nameOf "f"]⟩ ∧ node = ⟨.file, 10⟩) ∨
      (loc.path = [] ∧ node.kind = .dir ∧
        node.ino = match loc.root with | .backing => 1 | .cow => 2 | .alias => 3) := by
  obtain ⟨root, p⟩ := loc
  have hDom := (oneFile.tree root).mem_dom p node h
  match root with
  | .backing =>
    have hMem : p ∈ [[nameOf "f"], []] := hDom
    rcases mem_pair.mp hMem with rfl | rfl
    · have hNode : oneFile.get ⟨.backing, [nameOf "f"]⟩ = some ⟨.file, 10⟩ := by decide +kernel
      exact .inl ⟨rfl, some.inj (h.symm.trans hNode)⟩
    · have hNode : oneFile.get ⟨.backing, []⟩ = some ⟨.dir, 1⟩ := by decide +kernel
      cases h.symm.trans hNode
      exact .inr ⟨rfl, rfl, rfl⟩
  | .cow =>
    obtain rfl : p = [] := mem_singleton.mp hDom
    cases h
    exact .inr ⟨rfl, rfl, rfl⟩
  | .alias =>
    obtain rfl : p = [] := mem_singleton.mp hDom
    cases h
    exact .inr ⟨rfl, rfl, rfl⟩

theorem tables_oneFile : Tables denseEnv (fun _ => ∅) ∅ (started oneFile) where
  cached _ _ h := nomatch h
  stored _ := rfl
  live _ h := absurd rfl h
  apart p loc node other hRoot hNode hOther hIno := by
    rcases oneFile_get hNode with ⟨h, -⟩ | ⟨-, -, hIs⟩
    · cases h
    · rcases oneFile_get hOther with ⟨-, rfl⟩ | ⟨-, -, hIs'⟩
      · rw [hIs] at hIno
        cases hIno
      · obtain ⟨root, q⟩ := loc
        rw [hIs, hIs'] at hIno
        match root with
        | .cow => exact hRoot rfl
        | .backing => cases hIno
        | .alias => cases hIno
  dirs p q node other hNode hOther _ _ := by
    rcases oneFile_get hNode with ⟨h, -⟩ | ⟨hp, -⟩
    · cases h
    · rcases oneFile_get hOther with ⟨h, -⟩ | ⟨hq, -⟩
      · cases h
      · exact hp.trans hq.symm
  blank p hp := hp.elim

/-- The object at or below the file is the file. -/
theorem oneFile_below {t : Path} {source : Node}
    (h : oneFile.get ⟨.backing, [nameOf "f"] ++ t⟩ = some source) : source = ⟨.file, 10⟩ := by
  rcases oneFile_get h with ⟨-, hNode⟩ | ⟨hNil, -⟩
  · exact hNode
  · cases hNil

/-- A backing file with a host attribute. -/
def taggedFile : World := started (oneFile.setXattr 10 (nameOf "user.a") [1])

end FabricFs.Overlay
