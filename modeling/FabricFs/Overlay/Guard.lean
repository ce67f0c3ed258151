import FabricFs.Overlay.Edits

/-!
# Keeping changes away from the backing tree

The invariant `Guarded` says what keeps changes away from the backing tree of a
copy-on-write mount: the objects of the other two trees are other inodes, a handle on a
backing file may neither write nor change permissions, and no symbolic link leads out of
the alias tree. While an operation works on a copy through calls that follow links, the
invariant also says which copies are no links (`NoLink`).

The rules `guarded_*` follow the code from the host calls over the copies of single objects
up to `guarded_copyUpTree`.
-/

namespace FabricFs.Overlay

open Lib Lib.Prog Server

/-! ## The invariant -/

/-- The inode belongs to the backing tree. -/
def Backed (fs₀ : HostFs) (ino : Nat) : Prop :=
  ∃ p node, fs₀.get ⟨.backing, p⟩ = some node ∧ node.ino = ino

/-- A place where no link may be: everywhere in the alias tree, and the given copies. -/
def NoLink (S : Set Path) (loc : Loc) : Prop := loc.root = .alias ∨ loc.root = .cow ∧ loc.path ∈ S

structure Guarded (fs₀ : HostFs) (S : Set Path) (w : World) : Prop where
  tree_eq : w.fs.tree .backing = fs₀.tree .backing
  inode_eq : ∀ ino, Backed fs₀ ino → w.fs.inode ino = fs₀.inode ino
  apart : ∀ loc node, loc.root ≠ .backing → w.fs.get loc = some node → ¬ Backed fs₀ node.ino
  handles : ∀ fh entry file, w.handles.lookup fh = some entry → entry.kind = .file →
    entry.file = some file → Backed fs₀ file.ino →
    hasBit entry.accessBits 0o2 = false ∧ entry.permissionUpdatesBlocked = true
  plain : ∀ loc node, NoLink S loc → w.fs.get loc = some node → node.kind ≠ .symlink

section Invariant

variable {env : Env} {fs₀ : HostFs} {S : Set Path} {w : World}

variable {loc : Loc} {ino : Nat} {node : Node} {fs' : HostFs}

theorem untimed_guarded : Untimed (Guarded fs₀ S) :=
  fun _ _ h => ⟨h.tree_eq, h.inode_eq, h.apart, h.handles, h.plain⟩

theorem Guarded.mono {T : Set Path} (h : Guarded fs₀ S w) (hSub : T ⊆ S) : Guarded fs₀ T w :=
  ⟨h.tree_eq, h.inode_eq, h.apart, h.handles,
    fun loc node hLoc => h.plain loc node (hLoc.imp_right fun hl => ⟨hl.1, hSub hl.2⟩)⟩

theorem Guarded.insert {rel : Path} (h : Guarded fs₀ S w)
    (hRel : ∀ node, w.fs.get ⟨.cow, rel⟩ = some node → node.kind ≠ .symlink) :
    Guarded fs₀ (insert rel S) w := by
  refine ⟨h.tree_eq, h.inode_eq, h.apart, h.handles, ?_⟩
  rintro ⟨root, p⟩ node (hRoot | ⟨hRoot, rfl | hp⟩) hNode
  · exact h.plain _ node (.inl hRoot) hNode
  · obtain rfl : root = .cow := hRoot
    exact hRel node hNode
  · exact h.plain _ node (.inr ⟨hRoot, hp⟩) hNode

theorem Guarded.single {rel : Path} (h : Guarded fs₀ ∅ w)
    (hRel : ∀ node, w.fs.get ⟨.cow, rel⟩ = some node → node.kind ≠ .symlink) :
    Guarded fs₀ {rel} w := by
  rw [← insert_empty_eq]
  exact h.insert hRel

theorem Guarded.get_backing (h : Guarded fs₀ S w) (p : Path) :
    w.fs.get ⟨.backing, p⟩ = fs₀.get ⟨.backing, p⟩ := by
  rw [HostFs.get, h.tree_eq]
  rfl

theorem NoLink.not_backing (h : NoLink S loc) : loc.root ≠ .backing := by
  rcases h with h | h
  · simp [h]
  · simp [h.1]

/-- A number that the host hands out is none of the backing tree. -/
theorem Guarded.fresh (h : Guarded fs₀ S w) (hIno : ino ∉ w.fs.inos ++ w.openInos) :
    ¬ Backed fs₀ ino := by
  rintro ⟨p, node, hNode, rfl⟩
  rw [← h.get_backing] at hNode
  exact hIno (List.mem_append_left _ (w.fs.mem_inos hNode))

/-- A path that may hold no link leads to an object outside of the backing tree. -/
theorem Guarded.followed (h : Guarded fs₀ S w) (hLoc : NoLink S loc)
    (hNode : followNode env w.fs loc = .ok node) :
    w.fs.get loc = some node ∧ ¬ Backed fs₀ node.ino := by
  cases hg : w.fs.get loc with
  | none => simp [followNode, follow, followAux, HostFs.lookup, hg] at hNode
  | some found =>
    rw [followNode_of_not_symlink hg (h.plain loc found hLoc hg), Except.ok.injEq] at hNode
    subst hNode
    exact ⟨rfl, h.apart loc found hLoc.not_backing hg⟩

/-! ## Changes of the file system -/

theorem Guarded.entered (h : Guarded fs₀ S w) (hE : HostFs.Entered w.fs loc node fs')
    (hRoot : loc.root ≠ .backing) (hIno : ¬ Backed fs₀ node.ino)
    (hLink : NoLink S loc → node.kind ≠ .symlink)
    (hInode : ∀ ino, Backed fs₀ ino → fs'.inode ino = w.fs.inode ino) :
    Guarded fs₀ S { w with fs := fs' } := by
  refine ⟨(hE.tree_eq .backing hRoot.symm).trans h.tree_eq,
    fun ino hb => (hInode ino hb).trans (h.inode_eq ino hb), ?_, h.handles, ?_⟩
  · intro l found hl hGet
    rw [hE.get_eq] at hGet
    split at hGet
    · cases hGet
      exact hIno
    · exact h.apart l found hl hGet
  · intro l found hl hGet
    rw [hE.get_eq] at hGet
    split at hGet
    · rename_i he
      cases hGet
      exact hLink (he ▸ hl)
    · exact h.plain l found hl hGet

theorem Guarded.removed (h : Guarded fs₀ S w) (hR : HostFs.Removed w.fs loc fs')
    (hRoot : loc.root ≠ .backing) :
    Guarded fs₀ S { w with fs := fs' } := by
  have hOld : ∀ {l found}, fs'.get l = some found → w.fs.get l = some found := by
    intro l found hGet
    rw [hR.get_eq] at hGet
    split at hGet
    · cases hGet
    · exact hGet
  exact ⟨(hR.tree_eq .backing hRoot.symm).trans h.tree_eq,
    fun ino hb => (congrFun hR.inode_eq ino).trans (h.inode_eq ino hb),
    fun l found hl hGet => h.apart l found hl (hOld hGet), h.handles,
    fun l found hl hGet => h.plain l found hl (hOld hGet)⟩

/-- A move within the copies; it may bring a link to any of them. -/
theorem Guarded.relocated (h : Guarded fs₀ ∅ w) {src dst : Path}
    (hR : HostFs.Relocated w.fs .cow src dst fs') : Guarded fs₀ ∅ { w with fs := fs' } := by
  have hOld : ∀ {p found}, fs'.get ⟨.cow, p⟩ = some found →
      ∃ q, w.fs.get ⟨.cow, q⟩ = some found := by
    intro p found hGet
    rw [hR.get_eq, Tree.moved] at hGet
    split at hGet
    · exact ⟨_, hGet⟩
    · split at hGet
      · cases hGet
      · exact ⟨p, hGet⟩
  refine ⟨(hR.tree_eq .backing (by decide)).trans h.tree_eq,
    fun ino hb => (congrFun hR.inode_eq ino).trans (h.inode_eq ino hb), ?_, h.handles, ?_⟩
  · rintro ⟨root, p⟩ found hl hGet
    by_cases hRoot : root = .cow
    · subst hRoot
      obtain ⟨q, hq⟩ := hOld hGet
      exact h.apart ⟨.cow, q⟩ found hl hq
    · rw [HostFs.get, hR.tree_eq root hRoot] at hGet
      exact h.apart ⟨root, p⟩ found hl hGet
  · rintro ⟨root, p⟩ found (hl | ⟨-, hl⟩) hGet
    · obtain rfl : root = .alias := hl
      rw [HostFs.get, hR.tree_eq .alias (by decide)] at hGet
      exact h.plain ⟨.alias, p⟩ found (.inl rfl) hGet
    · exact hl.elim

theorem Guarded.modified (h : Guarded fs₀ S w) (hIno : ¬ Backed fs₀ ino) (f : Inode → Inode) :
    Guarded fs₀ S { w with fs := w.fs.modifyInode ino f } := by
  refine ⟨h.tree_eq, fun i hb => ?_, h.apart, h.handles, h.plain⟩
  rw [HostFs.inode_modifyInode, if_neg]
  · exact h.inode_eq i hb
  · rintro rfl
    exact hIno hb

theorem passive_guarded : Passive (Guarded fs₀ S) where
  untimed := untimed_guarded
  manifest _ _ _ h := ⟨h.tree_eq, h.inode_eq, h.apart, h.handles, h.plain⟩
  cache _ _ h := ⟨h.tree_eq, h.inode_eq, h.apart, h.handles, h.plain⟩

theorem free_guarded (hIno : ¬ Backed fs₀ ino) : Free (Guarded fs₀ S) ino :=
  fun _ f h => h.modified hIno f

/-- A path that may hold no link can be changed through calls that follow links. -/
theorem freeAt_guarded (hLoc : NoLink S loc) : FreeAt env (Guarded fs₀ S) loc true :=
  fun w _ f hw hNode => free_guarded (hw.followed hLoc hNode).2 w f hw

theorem freeAt_guarded_link (hRoot : loc.root ≠ .backing) : FreeAt env (Guarded fs₀ S) loc false :=
  fun w node f hw hNode =>
    free_guarded (hw.apart loc node hRoot (w.fs.lookup_eq_ok.mp hNode)) w f hw

theorem Guarded.made (h : Guarded fs₀ S w) {inode : Inode} (hm : Made w loc node inode fs')
    (hRoot : loc.root ≠ .backing) (hLink : NoLink S loc → node.kind ≠ .symlink) :
    Guarded fs₀ S { w with fs := fs' } ∧ ¬ Backed fs₀ node.ino := by
  have hIno : ¬ Backed fs₀ node.ino := h.fresh hm.fresh
  refine ⟨h.entered hm.entered hRoot hIno hLink fun ino hb => ?_, hIno⟩
  rw [hm.inode_eq, if_neg]
  rintro rfl
  exact hIno hb

end Invariant

/-! ## Calls -/

section Calls

variable {env : Env} {fs₀ : HostFs} {S : Set Path} {loc : Loc}

theorem guarded_makeNode {kind : Kind} (hRoot : loc.root ≠ .backing)
    (hLink : NoLink S loc → kind ≠ .symlink) (perm : Nat) (data : Bytes) :
    Triple env (Guarded fs₀ S) (makeNode loc kind perm data)
      (fun node w => Guarded fs₀ S w ∧ w.fs.get loc = some node ∧ node.kind = kind ∧
        ¬ Backed fs₀ node.ino) (Guarded fs₀ S) := by
  refine triple_makeNode untimed_guarded fun w node fs' hw hk hm => ?_
  obtain ⟨hw', hIno⟩ := hw.made hm hRoot (by rwa [hk])
  refine ⟨untimed_guarded _ _ hw', ?_, hk, hIno⟩
  rw [hm.entered.get_eq, if_pos rfl]

theorem guarded_createDir (hRoot : loc.root ≠ .backing) :
    Keeps env (Guarded fs₀ S) (createDir loc) :=
  keeps_createDir untimed_guarded fun _ _ _ hw hk hm => (hw.made hm hRoot fun _ => by simp [hk]).1

theorem guarded_makeSymlink (hRoot : loc.root ≠ .backing) (hLink : ¬ NoLink S loc)
    (target : Bytes) : Keeps env (Guarded fs₀ S) (makeSymlink target loc) :=
  keeps_makeSymlink untimed_guarded fun _ _ _ hw _ hm =>
    (hw.made hm hRoot fun h => absurd h hLink).1

theorem modeKind_ne_symlink {mode : Nat} {kind : Kind} (h : modeKind mode = .ok kind) :
    kind ≠ .symlink := by
  rintro rfl
  unfold modeKind at h
  simp only at h
  split_ifs at h
  all_goals cases h

theorem guarded_removeFile (hRoot : loc.root ≠ .backing) :
    Keeps env (Guarded fs₀ S) (removeFile loc) :=
  keeps_removeFile untimed_guarded fun _ _ _ hw _ _ hR => hw.removed hR hRoot

theorem guarded_removeDir (hRoot : loc.root ≠ .backing) :
    Keeps env (Guarded fs₀ S) (removeDir loc) :=
  keeps_removeDir untimed_guarded fun _ _ _ hw _ _ hR => hw.removed hR hRoot

theorem guarded_hardLink (src dst : Path) :
    Keeps env (Guarded fs₀ ∅) (hardLink ⟨.cow, src⟩ ⟨.cow, dst⟩) := by
  refine keeps_hardLink untimed_guarded fun w node fs' hw hSrc _ hE hInode => ?_
  refine hw.entered hE (by simp) (hw.apart ⟨.cow, src⟩ node (by simp) hSrc) ?_
    (fun ino _ => congrFun hInode ino)
  rintro (h | ⟨-, h⟩)
  · cases h
  · exact h.elim

theorem guarded_openFile (hLoc : NoLink S loc) (write : Bool) :
    Triple env (Guarded fs₀ S) (openFile loc write)
      (fun file w => Guarded fs₀ S w ∧ ¬ Backed fs₀ file.ino) (Guarded fs₀ S) := by
  refine (triple_query untimed_guarded _).post ?_
  rintro file w ⟨hw, n, hf⟩
  refine ⟨hw, ?_⟩
  simp only at hf
  split at hf
  · cases hf
  · rename_i node hNode
    split at hf
    · cases hf
    · cases hf
      exact (hw.followed hLoc hNode).2

theorem creates_guarded (hLoc : NoLink S loc) : Creates env (Guarded fs₀ S) loc := by
  refine creates_of untimed_guarded (fun _ _ hw hNode => free_guarded (hw.followed hLoc hNode).2)
    fun w node fs' hw hk hm => ?_
  obtain ⟨hw', hIno⟩ := hw.made hm hLoc.not_backing (fun _ => by simp [hk])
  exact ⟨hw', free_guarded hIno⟩

theorem guarded_createDirAll (hRoot : loc.root ≠ .backing) :
    Keeps env (Guarded fs₀ S) (createDirAll loc) :=
  keeps_createDirAll fun _ _ => guarded_createDir hRoot

theorem guarded_clearTombstone (rel : Path) : Keeps env (Guarded fs₀ S) (clearTombstone rel) :=
  keeps_clearTombstone untimed_guarded fun _ => guarded_removeFile (by simp)

theorem guarded_markTombstone (rel : Path) : Keeps env (Guarded fs₀ S) (markTombstone rel) :=
  keeps_markTombstone untimed_guarded (fun _ => guarded_createDir (by simp)) fun _ =>
    (creates_guarded (.inl rfl)).keeps

/-! ## Copy-up -/

variable {rel : Path}

variable {info : Meta}

/-- The copy of the path is to be no link, and making it does not make it one. -/
def Copyable (fs₀ : HostFs) (S : Set Path) (rel : Path) (w : World) : Prop :=
  Guarded fs₀ S w ∧ (rel ∈ S → w.fs.get ⟨.cow, rel⟩ = none →
    ∀ node, fs₀.get ⟨.backing, rel⟩ = some node → node.kind ≠ .symlink)

theorem untimed_copyable : Untimed (Copyable fs₀ S rel) :=
  fun w n h => ⟨untimed_guarded w n h.1, h.2⟩

theorem noLink_insert : NoLink (insert rel S) ⟨.cow, rel⟩ := .inr ⟨rfl, Set.mem_insert _ _⟩

/-- What is known where the copy is missing. -/
theorem Copyable.uncopied {w : World} (h : Copyable fs₀ S rel w) (hu : Uncopied env rel info w) :
    Guarded fs₀ (insert rel S) w ∧ (info.kind = .symlink → rel ∉ S) := by
  obtain ⟨hw, hPlain⟩ := h
  obtain ⟨hNone, -, node, hNode, rfl⟩ := hu
  refine ⟨hw.insert (fun found hFound => ?_), fun hk hMem => ?_⟩
  · rw [hNone] at hFound
    cases hFound
  · rw [hw.get_backing] at hNode
    exact hPlain hMem hNone node hNode hk

theorem not_noLink (h : rel ∉ S) : ¬ NoLink S ⟨.cow, rel⟩ := by
  rintro (h' | h')
  · cases h'
  · exact h h'.2

theorem guarded_link_of_uncopied (hk : info.kind = .symlink) {x : Op Unit}
    (h : rel ∉ S → Keeps env (Guarded fs₀ S) (copyLink ⟨.backing, rel⟩ ⟨.cow, rel⟩ info) → Keeps
      env (Guarded fs₀ S) x) :
    Triple env (fun w => Copyable fs₀ S rel w ∧ Uncopied env rel info w) x (fun _ => Guarded fs₀ S)
      (Guarded fs₀ S) := by
  refine Triple.pre (P := fun w => Guarded fs₀ S w ∧ rel ∉ S) (triple_fact fun hMem => ?_)
    (fun w hw => ⟨hw.1.1, (hw.1.uncopied hw.2).2 hk⟩)
  exact h hMem (keeps_copyLink untimed_guarded _ hk (guarded_makeSymlink (by simp)
    (not_noLink hMem)) (freeAt_guarded_link (by simp)))

theorem guarded_plain_of_uncopied {x : Op Unit} (h : Keeps env (Guarded fs₀ (insert rel S)) x) :
    Triple env (fun w => Copyable fs₀ S rel w ∧ Uncopied env rel info w) x (fun _ => Guarded fs₀ S)
      (Guarded fs₀ S) :=
  triple_conseq h (fun _ hw => (hw.1.uncopied hw.2).1)
    (fun _ _ hw => hw.mono (Set.subset_insert _ _)) (fun _ hw => hw.mono (Set.subset_insert _ _))

theorem guarded_parents : Keeps env (Guarded fs₀ S) (createDirAll (Loc.parent ⟨.cow, rel⟩)) :=
  guarded_createDirAll (by simp [Loc.parent])

theorem guarded_copyRegular {src : Loc} (hk : info.kind ≠ .symlink) :
    Keeps env (Guarded fs₀ (insert rel S)) (copyRegular src ⟨.cow, rel⟩ info) :=
  keeps_copyRegular untimed_guarded src hk (creates_guarded noLink_insert)
    (freeAt_guarded noLink_insert)

theorem guarded_copyDirNode {src : Loc} (hk : info.kind ≠ .symlink) :
    Keeps env (Guarded fs₀ (insert rel S)) (copyDirNode src ⟨.cow, rel⟩ info) :=
  keeps_copyDirNode untimed_guarded src hk (guarded_createDirAll (by simp))
    (freeAt_guarded noLink_insert)

theorem guarded_seedXattrs {src dst : Loc} {follow : Bool} :
    Keeps env (Guarded fs₀ S) (seedXattrs src dst follow) := keeps_seedXattrs passive_guarded _ _ _

theorem guarded_copyRules :
    CopyRules env rel (Copyable fs₀ S rel) (fun _ => Guarded fs₀ S) (Guarded fs₀ S) where
  untimed := untimed_copyable
  done _ hw _ := hw.1
  failed _ hw := hw.1
  link info hk := guarded_link_of_uncopied hk fun _ hCopy =>
    keeps_seq guarded_parents <| keeps_seq hCopy guarded_seedXattrs
  dir info hk := guarded_plain_of_uncopied <| keeps_seq guarded_parents <|
    keeps_seq (guarded_copyDirNode (by simp [hk])) guarded_seedXattrs
  file info hk _ := guarded_plain_of_uncopied <| keeps_seq guarded_parents <|
    keeps_seq (guarded_copyRegular hk) guarded_seedXattrs

theorem guarded_copyUpFile :
    Triple env (Copyable fs₀ S rel) (copyUpFile rel) (fun _ => Guarded fs₀ S) (Guarded fs₀ S) :=
  triple_copyUpFile guarded_copyRules

theorem guarded_copyUpEmptyFileForTruncate :
    Triple env (Copyable fs₀ S rel) (copyUpEmptyFileForTruncate rel) (fun _ => Guarded fs₀ S)
      (Guarded fs₀ S) := by
  refine triple_copyUpEmptyFileForTruncate guarded_copyRules fun info hk =>
    guarded_plain_of_uncopied ?_
  refine keeps_seq guarded_parents (keeps_seq (keeps_bind keeps_ask (fun _ => ?_))
    (keeps_seq (keeps_copyAttributes untimed_guarded _ (by simp [hk])
      (freeAt_guarded noLink_insert)) guarded_seedXattrs))
  exact (guarded_makeNode (by simp) (fun _ => by simp) _ _).post (fun _ _ hw => hw.1)

/-- One level of a tree, given the rule for what is below. -/
theorem guarded_copyUpLevel {depth : Nat}
    (hChild : ∀ n, Keeps env (Guarded fs₀ S) (copyUpChild rel n depth)) :
    Triple env (Copyable fs₀ S rel) (copyUpTreeAux depth rel) (fun _ => Guarded fs₀ S)
      (Guarded fs₀ S) :=
  triple_copyUpTreeAux guarded_copyRules fun info hk =>
    triple_seq (guarded_plain_of_uncopied (guarded_copyDirNode (by simp [hk]))) <|
    keeps_seq guarded_seedXattrs <|
    keeps_seq (keeps_query untimed_guarded _) <|
    keeps_each fun n _ => keeps_seq (keeps_query untimed_guarded _) <| hChild n

/-- The copies below the path are not among those that are to be no links. -/
theorem guarded_copyUpTreeAux (depth : Nat) : ∀ rel, (∀ t, t ≠ [] → rel ++ t ∉ S) →
    Triple env (Copyable fs₀ S rel) (copyUpTreeAux depth rel) (fun _ => Guarded fs₀ S)
      (Guarded fs₀ S) := by
  induction depth with
  | zero => exact fun rel hS => guarded_copyUpLevel fun n => keeps_pure _
  | succ depth ih =>
    intro rel hS
    refine guarded_copyUpLevel fun n => (ih _ fun t ht => ?_).pre (fun w hw => ?_)
    · rw [List.append_assoc]
      exact hS _ (by simp)
    · exact ⟨hw, fun hMem => absurd hMem (hS _ (by simp))⟩

theorem guarded_copyUpTree (hS : ∀ t, t ≠ [] → rel ++ t ∉ S) :
    Triple env (Copyable fs₀ S rel) (copyUpTree rel) (fun _ => Guarded fs₀ S) (Guarded fs₀ S) :=
  triple_bind (triple_state.post (fun _ _ hw => hw.1))
    (fun height => guarded_copyUpTreeAux height rel hS)

end Calls

end FabricFs.Overlay
