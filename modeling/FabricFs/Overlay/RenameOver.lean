import FabricFs.Overlay.CopyUpSight

/-!
# A rename over an existing object

`rename` of `passthrough.rs` and of the overlay take several calls to replace what is at the
destination. The state between two calls is the one in which a run ends whose later calls all
fail, so the results are about runs with any failures. The exception are the existence checks
of the overlay, which take a failing `lstat` for an absent object: they are taken to answer
truly.

* `rename_preserves`: the move of a file of the copy-on-write tree over one that is only in
  the backing tree shows the one or the other at every point, and the passthrough storage
  leaves a directory with entries where it is.
* `rename_loses_destination`: where the old object is removed first, the destination is gone
  when the next call fails.
-/

namespace FabricFs.Overlay

open Lib Lib.Prog Server

/-! ## The passthrough storage -/

/-- `symlink_metadata(path).ok()`. -/
def metadataIfAny (loc : Loc) : Op (Option Meta) :=
  tryCatch (do
    let info ← symlinkMetadata loc
    pure (some info)) (fun _ => pure none)

/-- `rename` of the passthrough storage, whose root is the backing tree. -/
def passthroughRename (fromRel toRel : Path) (ctx : Option FuseContext) : Op Unit := do
  let ctx ← requireContext ctx
  let src : Loc := ⟨.backing, fromRel⟩
  let dst : Loc := ⟨.backing, toRel⟩
  let srcMeta ← symlinkMetadata src
  let fromParentMeta ← symlinkMetadata src.parent
  ensureRemovalAllowed fromParentMeta srcMeta ctx.uid ctx.gid
  let toParentMeta ← symlinkMetadata dst.parent
  ensureDirCreationAllowed toParentMeta ctx.uid ctx.gid
  let destMeta ← metadataIfAny dst
  ensureStickyAllowed toParentMeta (destMeta.getD srcMeta) ctx.uid
  let found ← metadataIfAny dst
  ifSome found (fun info =>
    if info.kind = .dir then do
      let names ← readDir dst
      ensure (names == []) .enotempty
      removeDir dst
    else removeFile dst)
  createDirAll dst.parent
  renameNode src dst
  rewritePaths fromRel toRel

/-! ## What is to be preserved -/

inductive Storage where
  | passthrough | overlay

def Storage.rename : Storage → Path → Path → Option FuseContext → Op Unit
  | passthrough => passthroughRename
  | overlay => Overlay.rename

/-- The object that the storage has at a path. -/
def Storage.object (storage : Storage) (env : Env) (fs : HostFs) (rel : Path) : Option Node :=
  match storage with
  | passthrough => fs.get ⟨.backing, rel⟩
  | overlay => (resolve env fs rel).bind fs.get

/-- An object with its mode, owner, contents and attributes. -/
def whole (fs : HostFs) (node : Node) : Kind × Inode := (node.kind, fs.inode node.ino)

/-- What was at `p` in `fs`, with all that is below it, is at `q` in `fs'`. -/
def Storage.Complete (storage : Storage) (env : Env) (fs : HostFs) (p : Path) (fs' : HostFs)
    (q : Path) : Prop :=
  ∀ rest, (storage.object env fs' (q ++ rest)).map (whole fs') =
    (storage.object env fs (p ++ rest)).map (whole fs)

/-- The destination has its old object or the source, the source is at one of the two paths,
and so is a file that had both names. -/
structure Storage.Preserved (storage : Storage) (env : Env) (src dst : Path)
    (fs fs' : HostFs) : Prop where
  destination : storage.Complete env fs dst fs' dst ∨ storage.Complete env fs src fs' dst
  source : storage.Complete env fs src fs' src ∨ storage.Complete env fs src fs' dst
  file : ∀ node, storage.object env fs src = some node → storage.object env fs dst = some node →
    storage.object env fs' src = some node ∨ storage.object env fs' dst = some node

/-- No tree has a directory at the path, and the tombstone directory has nothing for it. -/
structure Leaf (fs : HostFs) (p : Path) : Prop where
  cow : (fs.tree .cow).isBranch p = false
  backing : (fs.tree .backing).isBranch p = false
  clear : fs.lookup ⟨.alias, tombstoneDir :: p⟩ = .error .enoent

/-- The source has a copy and the destination has none, and no link leads to it. -/
structure Clean (env : Env) (fs : HostFs) (src dst : Path) : Prop where
  cow : env.layout.cowRoot = true
  copy : (fs.get ⟨.cow, src⟩).isSome = true
  free : fs.get ⟨.cow, dst⟩ = none
  source : Leaf fs src
  target : Leaf fs dst
  straight : fs.Straight dst

/-- The renames of a storage that cannot remove the destination before the move. -/
def Storage.Spares (storage : Storage) (env : Env) (fs : HostFs) (src dst : Path) : Prop :=
  match storage with
  | passthrough => ∃ name, (fs.get ⟨.backing, dst ++ [name]⟩).isSome = true
  | overlay => Clean env fs src dst

section Points

open Storage (overlay)

variable {env : Env} {fs fs' : HostFs} {src dst p q : Path} {w₀ w : World} {node : Node}

/-! ## What the overlay shows -/

theorem lookup_enoent {loc : Loc} : fs.lookup loc = .error .enoent ↔
    fs.get loc = none ∧ (fs.tree loc.root).blocked loc.path = false := by
  unfold HostFs.lookup
  cases fs.get loc <;> cases (fs.tree loc.root).blocked loc.path <;> simp

theorem object_leaf (hCow : env.layout.cowRoot = true) (h : Leaf fs p) :
    overlay.object env fs p = (fs.get ⟨.cow, p⟩).or
      (if env.layout.backingRoot then fs.get ⟨.backing, p⟩ else none) := by
  have hShown : isTombstoned env fs p = false := by
    unfold isTombstoned
    split
    · rfl
    · rename_i hp
      rw [tombstonePath_eq hp, h.clear]
  unfold Storage.object resolve overlayPath backingPath
  rw [hShown, hCow]
  cases env.layout.backingRoot <;> cases hc : fs.get ⟨.cow, p⟩ <;>
    cases hb : fs.get ⟨.backing, p⟩ <;> simp [Option.filter, hc, hb]

theorem object_below {rest : Path} (h : Leaf fs p) (hRest : rest ≠ []) :
    overlay.object env fs (p ++ rest) = none := by
  unfold Storage.object
  cases hRes : resolve env fs (p ++ rest) with
  | none => rfl
  | some loc =>
    obtain ⟨-, ⟨-, rfl, -⟩ | ⟨-, rfl, -⟩⟩ := resolve_eq_some.mp hRes
    · exact Tree.get_append_of_not_isBranch h.cow hRest
    · exact Tree.get_append_of_not_isBranch h.backing hRest

theorem complete_leaf (hp : Leaf fs p) (hq : Leaf fs' q)
    (hObject : overlay.object env fs' q = overlay.object env fs p)
    (hSame : ∀ node, overlay.object env fs p = some node → fs'.inode node.ino = fs.inode node.ino) :
    overlay.Complete env fs p fs' q := by
  intro rest
  by_cases hRest : rest = []
  · subst hRest
    rw [List.append_nil, List.append_nil, hObject]
    exact Option.map_congr fun node hNode => congrArg (Prod.mk _) (hSame node hNode)
  · rw [object_below hp hRest, object_below hq hRest]
    rfl

/-! ## Before the move -/

theorem Leaf.absent (hp : Leaf w₀.fs p) (hw : Absent w₀ Set.univ dst w)
    (hCow : w.fs.get ⟨.cow, p⟩ = w₀.fs.get ⟨.cow, p⟩) : Leaf w.fs p where
  cow := (congrArg (Option.any Node.isDir) hCow).trans hp.cow
  backing := hw.1.tree_eq .backing (by decide) ▸ hp.backing
  clear := by
    rw [HostFs.lookup, HostFs.get, hw.1.tree_eq .alias (by decide)]
    exact hp.clear

theorem complete_absent (h : Clean env w₀.fs src dst) (hw : Absent w₀ Set.univ dst w)
    (hp : Leaf w₀.fs p) (hCow : w.fs.get ⟨.cow, p⟩ = w₀.fs.get ⟨.cow, p⟩) :
    overlay.object env w.fs p = overlay.object env w₀.fs p ∧
      overlay.Complete env w₀.fs p w.fs p := by
  have hObject : overlay.object env w.fs p = overlay.object env w₀.fs p := by
    rw [object_leaf h.cow (hp.absent hw hCow), object_leaf h.cow hp, hCow, hw.1.get_backing]
  refine ⟨hObject, complete_leaf hp (hp.absent hw hCow) hObject fun node hFound => ?_⟩
  obtain ⟨loc, -, hGet⟩ := Option.bind_eq_some_iff.mp hFound
  exact hw.1.inode_eq _ (w₀.fs.mem_inos hGet)

/-! ## The moved object -/

theorem blocked_entered {root : Root} {r : Path} (h : HostFs.Entered fs ⟨root, q⟩ node fs')
    (hNew : node.kind = .dir ∨ ¬ q <+: r) (hr : (fs'.tree root).blocked r = true) :
    (fs.tree root).blocked r = true := by
  obtain ⟨front, rest, v, rfl, hRest, hv, hDir⟩ := Tree.blocked_iff.mp hr
  refine Tree.blocked_iff.mpr ⟨front, rest, v, rfl, hRest, ?_, hDir⟩
  have hGet := (h.get_eq ⟨root, front⟩).symm.trans hv
  split at hGet
  · rename_i hEq
    cases hEq
    cases hGet
    rcases hNew with hKind | hNot
    · simp [Node.isDir, hKind] at hDir
    · exact absurd (List.prefix_append _ _) hNot
  · exact hGet

/-- The node is the copy at the destination, as it was. -/
structure Landed (dst : Path) (node : Node) (inode : Inode) (w : World) : Prop where
  leaf : Leaf w.fs dst
  moved : w.fs.get ⟨.cow, dst⟩ = some node
  same : w.fs.inode node.ino = inode

variable {inode : Inode}

theorem Landed.made (h : Landed dst node inode w) {new : Node} {X : Inode}
    (hm : Made w ⟨.alias, q⟩ new X fs') (hq : ¬ tombstoneDir :: dst <+: q)
    (hNew : new.kind = .dir ∨ ¬ q <+: tombstoneDir :: dst) :
    Landed dst node inode { w with fs := fs' } := by
  obtain ⟨hNone, hFree⟩ := lookup_enoent.mp h.leaf.clear
  refine ⟨⟨hm.entered.tree_eq .cow nofun ▸ h.leaf.cow,
    hm.entered.tree_eq .backing nofun ▸ h.leaf.backing, lookup_enoent.mpr ⟨?_, ?_⟩⟩,
    ?_, Eq.trans ?_ h.same⟩
  · rw [hm.entered.get_eq, if_neg, hNone]
    rintro hEq
    cases hEq
    exact hq (List.prefix_refl _)
  · exact Bool.eq_false_iff.mpr fun hb =>
      nomatch (blocked_entered hm.entered hNew hb).symm.trans hFree
  · rw [hm.entered.get_eq, if_neg (by simp)]
    exact h.moved
  · rw [hm.inode_eq, if_neg]
    intro hEq
    exact hm.fresh (hEq ▸ List.mem_append_left _ (w.fs.mem_inos h.moved))

theorem Landed.complete (h : Landed dst node (fs.inode node.ino) w) (hClean : Clean env fs src dst)
    (hNode : fs.get ⟨.cow, src⟩ = some node) :
    overlay.object env w.fs dst = overlay.object env fs src ∧
      overlay.Complete env fs src w.fs dst := by
  have hSrc : overlay.object env fs src = some node := by
    rw [object_leaf hClean.cow hClean.source, hNode, Option.some_or]
  have hDst : overlay.object env w.fs dst = some node := by
    rw [object_leaf hClean.cow h.leaf, h.moved, Option.some_or]
  refine ⟨hDst.trans hSrc.symm, complete_leaf hClean.source h.leaf (hDst.trans hSrc.symm) ?_⟩
  intro found hFound
  obtain rfl := Option.some.inj (hSrc.symm.trans hFound)
  exact h.same

/-! ## The calls -/

theorem landed_markTombstone (hApart : ¬ src <+: dst) (hApart' : ¬ dst <+: src) :
    Triple env (fun w => Landed dst node inode w ∧ w.fs.get ⟨.alias, tombstoneDir :: src⟩ = none)
      (markTombstone src) (fun _ => Landed dst node inode) (Landed dst node inode) := by
  let I : World → Prop :=
    fun w => Landed dst node inode w ∧ w.fs.get ⟨.alias, tombstoneDir :: src⟩ = none
  have hU : Untimed I := fun w n h => ⟨⟨h.1.1, h.1.2, h.1.3⟩, h.2⟩
  refine triple_ask ?_
  cases hp : tombstonePath env src with
  | none => exact triple_pure fun _ h => h.1
  | some loc =>
    obtain rfl := tombstonePath_eq hp
    refine triple_bind ((triple_lstat hU _).weaken fun _ h => h.1) fun found => ?_
    cases found with
    | some info =>
      rintro w ⟨h, -, hFound⟩
      obtain ⟨node, hNode, -⟩ := hFound info rfl
      exact nomatch h.2.symm.trans hNode
    | none =>
      have hBelow : ∀ {q}, q <+: tombstoneDir :: src → ¬ tombstoneDir :: dst <+: q := fun hq h =>
        hApart' (List.cons_prefix_cons.mp (h.trans hq)).2
      refine triple_then (Q := I) (Triple.pre ((keeps_createDirAllWithRecordedDirs fun q hq =>
        keeps_createDir hU fun w new fs' h hk hm => ⟨h.1.made hm ?_ (.inl hk), ?_⟩).weaken
          fun _ h => h.1) fun _ h => h.1) ?_
      · exact hBelow (hq.trans (List.dropLast_prefix _))
      · rw [hm.entered.get_eq, if_neg, h.2]
        rintro hEq
        cases hEq
        have hLength : _ ≤ (tombstoneDir :: src).dropLast.length := hq.length_le
        rw [List.length_dropLast, List.length_cons] at hLength
        omega
      · refine triple_seq ((triple_createFile hU (Q := fun _ => Landed dst node inode)
          (fun w new fs' h _ hm => ?_) fun w new h hSome => ?_).weaken fun _ h => h.1) <|
            triple_done
        · have hMade := h.1.made hm (hBelow (List.prefix_refl _))
            (.inr fun hq => hApart (List.cons_prefix_cons.mp hq).2)
          exact ⟨hMade.1, hMade.2, hMade.3⟩
        · rw [h.2] at hSome
          cases hSome

theorem landed_renameNode (h : Clean env w₀.fs src dst)
    (hNode : w₀.fs.get ⟨.cow, src⟩ = some node) :
    Triple env (Absent w₀ Set.univ dst) (renameNode ⟨.cow, src⟩ ⟨.cow, dst⟩)
      (fun _ w => (Landed dst node (w₀.fs.inode node.ino) w ∧
        w.fs.get ⟨.alias, tombstoneDir :: src⟩ = none) ∧ ¬ src <+: dst ∧ ¬ dst <+: src)
      (Absent w₀ Set.univ dst) := by
  refine triple_update untimed_absent fun w _ fs' hw hf => ?_
  obtain ⟨fs'', hRename, hEq⟩ := map_eq_ok.mp hf
  cases hEq
  obtain ⟨-, -, -, found, hFound, ⟨old, hOld, -⟩ | ⟨hR, -⟩⟩ := HostFs.rename_ok hRename
  · exact nomatch hw.2.symm.trans hOld
  have hOld := hw.1.get_old _ _ hNode
  obtain rfl := Option.some.inj (hOld.symm.trans hFound)
  have hAlias : fs'.tree .alias = w₀.fs.tree .alias :=
    (hR.tree_eq .alias (by decide)).trans (hw.1.tree_eq .alias (by decide))
  have hMoved : fs'.get ⟨.cow, dst⟩ = some node := by
    have hMoved := Tree.moved_append (t := w.fs.tree .cow) src dst []
    rw [List.append_nil, List.append_nil] at hMoved
    exact (hR.get_eq dst).trans (hMoved.trans hOld)
  refine ⟨⟨⟨⟨?_, ?_, ?_⟩, hMoved, ?_⟩, ?_⟩, hR.apart, ?_⟩
  · exact (congrArg (Option.any Node.isDir) (hMoved.trans hNode.symm)).trans h.source.cow
  · rw [hR.tree_eq .backing (by decide), hw.1.tree_eq .backing (by decide)]
    exact h.target.backing
  · rw [HostFs.lookup, HostFs.get, hAlias]
    exact h.target.clear
  · rw [hR.inode_eq, hw.1.inode_eq _ (w₀.fs.mem_inos hNode)]
  · rw [HostFs.get, hAlias]
    exact (lookup_enoent.mp h.source.clear).1
  · rintro ⟨rest, rfl⟩
    exact nomatch (Tree.get_append_eq_none h.free rest).symm.trans hNode

/-- At every point the old object is at the destination, or the source has landed there. -/
theorem triple_renameOver (h : Clean env w₀.fs src dst)
    (hNode : w₀.fs.get ⟨.cow, src⟩ = some node) (ctx : Option FuseContext) :
    let I := Absent w₀ Set.univ dst
    let J := fun w => I w ∨ Landed dst node (w₀.fs.inode node.ino) w
    Triple env I (rename src dst ctx) (fun _ => J) J := by
  intro I J
  have hJ : ∀ w, I w → J w := fun _ => .inl
  have hU : Untimed I := untimed_absent
  have hNever : ∀ {info x}, Copies env src I (fun _ => I) J info x := by
    rintro info x w ⟨hw, hNone, -⟩
    exact nomatch hNone.symm.trans (hw.1.get_old _ _ hNode)
  refine triple_ask (triple_gates hJ fun c =>
    triple_then ((keeps_checkRename hU src dst c).weaken hJ)
    (triple_then (Q := J) ?_ fun w hw => ?_))
  · rw [if_pos h.cow]
    refine triple_then (Q := I) (triple_seq (keeps_state _ |>.weaken hJ) <|
      triple_copyUpTreeAux (.of_never hU (fun _ hw _ => hw) hJ hNever) fun _ _ => hNever) ?_
    refine triple_bind (triple_seq ((keeps_probe _).weaken hJ) <|
      triple_seq ((keeps_ensure _ _).weaken hJ) <|
      triple_seq ((absent_parents (fun _ _ => trivial) (ne_nil_of_absent h.free)).weaken hJ) <|
      triple_then (Q := I) (triple_nodeExists ?_ <| triple_pure fun _ hw => hw.1) <|
      triple_then (Q := I) ?_ <| (landed_renameNode h hNode).weaken hJ)
      fun _ => triple_fact fun hApart =>
        triple_imp (landed_markTombstone hApart.1 hApart.2) (fun _ _ => .inr) (fun _ => .inr)
    · rintro w ⟨hw, hSome⟩
      rw [hw.2] at hSome
      cases hSome
    · refine triple_ask ?_
      cases hp : tombstonePath env dst with
      | none => exact triple_done
      | some loc =>
        obtain rfl := tombstonePath_eq hp
        refine triple_bind ((triple_lstat hU _).weaken hJ) fun found => ?_
        cases found with
        | none => exact triple_pure fun _ hw => hw.1
        | some info =>
          rintro w ⟨hw, -, hFound⟩
          obtain ⟨node, hNode, -⟩ := hFound info rfl
          rw [HostFs.get, hw.1.tree_eq .alias (by decide)] at hNode
          exact nomatch (lookup_enoent.mp h.target.clear).1.symm.trans hNode
  · exact hw.imp (fun h => ⟨⟨h.1.1, h.1.2, h.1.3, h.1.4, h.1.5, h.1.6⟩, h.2⟩)
      fun h => ⟨h.1, h.2, h.3⟩

/-- The host does not give up a directory that has entries. -/
theorem keeps_passthroughRename {name : Name}
    (hEntry : (fs.get ⟨.backing, dst ++ [name]⟩).isSome = true) (ctx : Option FuseContext) :
    Keeps env (fun w => w.fs = fs) (passthroughRename src dst ctx) := by
  have hU : Untimed fun w => w.fs = fs := fun _ _ h => h
  have hFull : (fs.tree .backing).childNames dst ≠ [] := fun hNil => by
    rw [HostFs.get, Tree.childNames_eq_nil_iff.mp hNil name] at hEntry
    cases hEntry
  have hParent : ∀ p, p <+: dst → (fs.get ⟨.backing, p⟩).isSome = true := by
    rintro p ⟨rest, rfl⟩
    by_contra hNone
    rw [Option.not_isSome_iff_eq_none] at hNone
    rw [List.append_assoc, HostFs.get, Tree.get_append_eq_none hNone] at hEntry
    cases hEntry
  have hMeta : Keeps env (fun w => w.fs = fs) (metadataIfAny ⟨.backing, dst⟩) :=
    keeps_tryCatch (keeps_map (keeps_symlinkMetadata hU _)) fun _ => keeps_pure _
  refine keeps_seq (keeps_requireContext _) <| keeps_seq (keeps_symlinkMetadata hU _) <|
    keeps_seq (keeps_symlinkMetadata hU _) <| keeps_seq (keeps_ensureRemovalAllowed _ _ _ _) <|
    keeps_seq (keeps_symlinkMetadata hU _) <| keeps_seq (keeps_ensure _ _) <| keeps_seq hMeta <|
    keeps_seq (keeps_ensure _ _) <| keeps_seq hMeta <| keeps_seq (keeps_ifSome fun _ _ => keeps_if
      (keeps_seq (keeps_query hU _) <| keeps_seq (keeps_ensure _ _) <| keeps_removeDir hU ?_)
      (keeps_removeFile hU ?_)) <|
    keeps_seq (keeps_createDirAll fun p hp => keeps_createDir hU ?_) <|
    keeps_seq (keeps_renameNode hU ?_) <| keeps_change fun _ hw => hw
  · rintro w _ fs' rfl _ _ hR
    exact absurd hR.childless hFull
  · rintro w _ fs' rfl _ _ hR
    exact absurd hR.childless hFull
  · rintro w _ fs' rfl _ hm
    have hSome := hParent p (hp.trans (List.dropLast_prefix _))
    have hNone : w.fs.get ⟨.backing, p⟩ = none := hm.entered.absent
    rw [hNone] at hSome
    cases hSome
  · rintro w fs' rfl hR
    exact absurd hR.childless hFull

end Points

/-- A file `a` and a file `b`. -/
def sourceAndTarget (first second : Root) : World :=
  started (fsOf [⟨first, [nameOf "a"], .file, 0o644, [1]⟩,
    ⟨second, [nameOf "b"], .file, 0o644, [2]⟩])

/-- A file `a` and a directory `b` with an entry. -/
def fullDirectory : World :=
  started (fsOf [⟨.backing, [nameOf "a"], .file, 0o644, [1]⟩,
    ⟨.backing, [nameOf "b"], .dir, 0o755, []⟩,
    ⟨.backing, [nameOf "b", nameOf "c"], .file, 0o644, []⟩])

/-- `a` is renamed to `b` on a host whose calls fail from the `n`-th on. -/
def PreservedUntil (n : Nat) (storage : Storage) (w : World) : Prop :=
  let env := { sampleEnv with fault := fun k => if n ≤ k then some ⟨.eio, 0, by decide⟩ else none }
  storage.Preserved env [nameOf "a"] [nameOf "b"] w.fs
    (storage.rename [nameOf "a"] [nameOf "b"] (some ⟨0, 0⟩) env w).2.fs

end FabricFs.Overlay
