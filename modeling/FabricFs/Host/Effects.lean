import FabricFs.Host.Fs

/-!
# What the system calls change

One lemma per call of `FabricFs.Host.Fs`: what a call that succeeds has found, and what is
at every path and in every inode afterwards.

* `make_ok`, `hardLink_ok`, `removeFile_ok`, `removeDir_ok`, `rename_ok`: the calls on names.
* `inode_modifyInode`: the calls on inodes, which leave the names alone.
-/

namespace FabricFs.HostFs

open Lib Tree

variable {fs fs' : HostFs}

/-- A call that has succeeded has passed its check. -/
theorem guard_ok {α : Type} {c : Prop} [Decidable c] {e : Errno} {x : Except Errno α} {a : α} :
    (if c then .error e else x) = .ok a ↔ ¬ c ∧ x = .ok a := by
  by_cases hc : c <;> simp [hc]

/-! ## Updates of one tree -/

variable {root : Root} {d src : Path} {n : Name} {node : Node} {loc : Loc}

theorem tree_setTree_of_ne {root' : Root} (h : root' ≠ root) (t : HostTree) :
    (fs.setTree root t).tree root' = fs.tree root' := if_neg h

theorem get_setTree {t : HostTree} (loc : Loc) :
    (fs.setTree root t).get loc = if loc.root = root then t.get loc.path else fs.get loc := by
  unfold get setTree
  by_cases h : loc.root = root
  · rw [if_pos h]
    simp only [if_pos h]
  · rw [if_neg h]
    simp only [if_neg h]

/-- Only the entry itself is new. -/
theorem get_enter (hd : (fs.tree root).isBranch d = true) (hn : fs.get ⟨root, d ++ [n]⟩ = none)
    (loc : Loc) :
    (fs.enter root d n node).get loc =
      if loc = ⟨root, d ++ [n]⟩ then some node else fs.get loc := by
  obtain ⟨root', p⟩ := loc
  rw [enter, get_setTree, get_add hd hn]
  by_cases hr : root' = root
  · subst hr
    simp [get]
  · simp [hr]

theorem get_drop (hp : loc.path ≠ []) (hc : (fs.tree loc.root).childNames loc.path = []) (l : Loc) :
    (fs.drop loc).get l = if l = loc then none else fs.get l := by
  obtain ⟨root', p⟩ := l
  obtain ⟨root, q⟩ := loc
  rw [drop, get_setTree, get_erase hp hc]
  by_cases hr : root' = root
  · subst hr
    simp [get]
  · simp [hr]

/-! ## Lookups -/

theorem parentDir_ok (h : fs.parentDir loc = .ok (d, n)) :
    loc.path = d ++ [n] ∧ (fs.tree loc.root).isBranch d = true := by
  unfold parentDir at h
  split at h
  · cases h
  · rename_i d' n' hs
    split at h
    · cases h
    · rename_i node hl
      split at h
      · rename_i hDir
        cases h
        exact ⟨splitLast_eq_some.mp hs, isBranch_iff.mpr ⟨node, fs.lookup_eq_ok.mp hl, hDir⟩⟩
      · cases h

/-! ## Calls on names -/

/-- A call has entered a new name. -/
structure Entered (fs : HostFs) (loc : Loc) (node : Node) (fs' : HostFs) : Prop where
  ne_root : loc.path ≠ []
  parent : (fs.tree loc.root).isBranch loc.path.dropLast = true
  absent : fs.get loc = none
  get_eq : ∀ l, fs'.get l = if l = loc then some node else fs.get l
  tree_eq : ∀ root, root ≠ loc.root → fs'.tree root = fs.tree root
  manifest_eq : fs'.manifest = fs.manifest

theorem entered_enter (hd : (fs.tree root).isBranch d = true)
    (hn : fs.get ⟨root, d ++ [n]⟩ = none) :
    Entered fs ⟨root, d ++ [n]⟩ node (fs.enter root d n node) where
  ne_root := by simp
  parent := by simpa using hd
  absent := hn
  get_eq := get_enter hd hn
  tree_eq _ h := tree_setTree_of_ne h _
  manifest_eq := rfl

theorem make_ok {kind : Kind} {ino : Nat} {inode : Inode}
    (h : fs.make loc kind ino inode = .ok fs') :
    Entered fs loc ⟨kind, ino⟩ fs' ∧ ∀ i, fs'.inode i = if i = ino then inode else fs.inode i := by
  obtain ⟨root, p⟩ := loc
  unfold make at h
  split at h
  · cases h
  · split at h
    · cases h
    · rename_i d n hd
      split at h
      · cases h
      · rename_i hNone
        cases h
        obtain ⟨rfl, hBranch⟩ := parentDir_ok hd
        have hEnter : Entered fs ⟨root, d ++ [n]⟩ ⟨kind, ino⟩ _ := entered_enter hBranch hNone
        exact ⟨⟨hEnter.ne_root, hEnter.parent, hNone, hEnter.get_eq, hEnter.tree_eq, rfl⟩,
          fun _ => rfl⟩

theorem hardLink_ok {src dst : Loc} (h : fs.hardLink src dst = .ok fs') :
    ∃ node, fs.get src = some node ∧ node.isDir = false ∧ src.root = dst.root ∧
      Entered fs dst node fs' ∧ fs'.inode = fs.inode := by
  obtain ⟨root, p⟩ := dst
  unfold hardLink at h
  split at h
  · cases h
  · rename_i node hSrc
    split at h
    · cases h
    · rename_i d n hd
      split at h
      · cases h
      · rename_i hNone
        obtain ⟨hDir, h⟩ := guard_ok.mp h
        obtain ⟨hRoot, h⟩ := guard_ok.mp h
        cases h
        obtain ⟨rfl, hBranch⟩ := parentDir_ok hd
        exact ⟨node, fs.lookup_eq_ok.mp hSrc, by simpa using hDir, by simpa using hRoot,
          entered_enter hBranch hNone, rfl⟩

/-- A call has removed a name. -/
structure Removed (fs : HostFs) (loc : Loc) (fs' : HostFs) : Prop where
  ne_root : loc.path ≠ []
  childless : (fs.tree loc.root).childNames loc.path = []
  get_eq : ∀ l, fs'.get l = if l = loc then none else fs.get l
  tree_eq : ∀ root, root ≠ loc.root → fs'.tree root = fs.tree root
  inode_eq : fs'.inode = fs.inode
  manifest_eq : fs'.manifest = fs.manifest

theorem removed_drop (hp : loc.path ≠ []) (hc : (fs.tree loc.root).childNames loc.path = []) :
    Removed fs loc (fs.drop loc) :=
  ⟨hp, hc, get_drop hp hc, fun _ h => tree_setTree_of_ne h _, rfl, rfl⟩

theorem childless_of_not_dir (h : fs.get loc = some node) (hDir : node.isDir = false) :
    (fs.tree loc.root).childNames loc.path = [] := by
  refine childNames_eq_nil_iff.mpr fun n =>
    get_append_of_not_isBranch ?_ (List.cons_ne_nil n [])
  rw [isBranch, show (fs.tree loc.root).get loc.path = some node from h]
  exact hDir

theorem ne_root_of_not_dir (h : fs.get loc = some node) (hDir : node.isDir = false) :
    loc.path ≠ [] := by
  intro hNil
  obtain ⟨v, hv, hb⟩ := (fs.tree loc.root).root_branch
  rw [get, hNil, hv] at h
  cases h
  rw [hb] at hDir
  cases hDir

theorem removeFile_ok (h : fs.removeFile loc = .ok fs') :
    ∃ node, fs.get loc = some node ∧ node.isDir = false ∧ Removed fs loc fs' := by
  unfold removeFile at h
  split at h
  · cases h
  · rename_i node hl
    obtain ⟨hDir, h⟩ := guard_ok.mp h
    cases h
    have hGet := fs.lookup_eq_ok.mp hl
    have hNot : node.isDir = false := by simpa using hDir
    exact ⟨node, hGet, hNot, removed_drop (ne_root_of_not_dir hGet hNot)
      (childless_of_not_dir hGet hNot)⟩

theorem removeDir_ok (h : fs.removeDir loc = .ok fs') :
    ∃ node, fs.get loc = some node ∧ node.isDir = true ∧ Removed fs loc fs' := by
  unfold removeDir at h
  split at h
  · cases h
  · rename_i node hl
    obtain ⟨hDir, h⟩ := guard_ok.mp h
    obtain ⟨hc, h⟩ := guard_ok.mp h
    obtain ⟨hp, h⟩ := guard_ok.mp h
    cases h
    exact ⟨node, fs.lookup_eq_ok.mp hl, by simpa using hDir, removed_drop hp (not_not.mp hc)⟩

/-- A call has moved the subtree at `src` to `dst`, where at most a childless object was. -/
structure Relocated (fs : HostFs) (root : Root) (src dst : Path) (fs' : HostFs) : Prop where
  apart : ¬ src <+: dst
  parent : (fs.tree root).isBranch dst.dropLast = true
  childless : (fs.tree root).childNames dst = []
  get_eq : ∀ p, fs'.get ⟨root, p⟩ = (fs.tree root).moved src dst p
  tree_eq : ∀ root', root' ≠ root → fs'.tree root' = fs.tree root'
  inode_eq : fs'.inode = fs.inode
  manifest_eq : fs'.manifest = fs.manifest

theorem not_prefix_concat (hOut : ¬ src <+: d) (hNe : src ≠ d ++ [n]) : ¬ src <+: d ++ [n] := by
  rw [List.prefix_concat_iff]
  rintro (h | h)
  · exact hNe h
  · exact hOut h

theorem relocated_relocate (hSrc : src ≠ []) (hd : (fs.tree root).isBranch d = true)
    (hn : fs.get ⟨root, d ++ [n]⟩ = none) (hOut : ¬ src <+: d) (hNe : src ≠ d ++ [n]) :
    Relocated fs root src (d ++ [n]) (fs.relocate root src d n) where
  apart := not_prefix_concat hOut hNe
  parent := by simpa using hd
  childless := childNames_eq_nil_iff.mpr fun m => get_append_eq_none hn [m]
  get_eq p := by
    rw [relocate, get_setTree, if_pos rfl, get_move hSrc hd hn hOut]
  tree_eq _ h := tree_setTree_of_ne h _
  inode_eq := rfl
  manifest_eq := rfl

theorem relocated_over (hSrc : src ≠ []) (hd : (fs.tree root).isBranch d = true)
    (hc : (fs.tree root).childNames (d ++ [n]) = []) (hOut : ¬ src <+: d) (hNe : src ≠ d ++ [n]) :
    Relocated fs root src (d ++ [n]) ((fs.drop ⟨root, d ++ [n]⟩).relocate root src d n) := by
  have hDrop : Removed fs ⟨root, d ++ [n]⟩ (fs.drop ⟨root, d ++ [n]⟩) :=
    removed_drop (by simp) hc
  have hApart := not_prefix_concat hOut hNe
  have hBranch : ((fs.drop ⟨root, d ++ [n]⟩).tree root).isBranch d = true := by
    obtain ⟨v, hv, hb⟩ := isBranch_iff.mp hd
    refine isBranch_iff.mpr ⟨v, (hDrop.get_eq ⟨root, d⟩).trans ?_, hb⟩
    rw [if_neg (by simp), get, hv]
  have hNone : (fs.drop ⟨root, d ++ [n]⟩).get ⟨root, d ++ [n]⟩ = none := by
    rw [hDrop.get_eq, if_pos rfl]
  have hMoved := relocated_relocate hSrc hBranch hNone hOut hNe
  refine ⟨hApart, by simpa using hd, hc, fun p => ?_, fun root' h => ?_, ?_, ?_⟩
  · rw [hMoved.get_eq]
    by_cases hDst : d ++ [n] <+: p
    · obtain ⟨rest, rfl⟩ := hDst
      rw [moved_append, moved_append]
      refine (hDrop.get_eq ⟨root, src ++ rest⟩).trans (if_neg ?_)
      rw [Loc.mk.injEq]
      rintro ⟨-, h⟩
      exact hApart ⟨rest, h⟩
    · by_cases hPre : src <+: p
      · obtain ⟨rest, rfl⟩ := hPre
        rw [moved_source rest hDst, moved_source rest hDst]
      · rw [ moved_of_not_prefix hDst hPre, moved_of_not_prefix hDst hPre]
        refine (hDrop.get_eq ⟨root, p⟩).trans (if_neg ?_)
        rw [Loc.mk.injEq]
        rintro ⟨-, rfl⟩
        exact hDst (List.prefix_refl _)
  · exact (hMoved.tree_eq root' h).trans (hDrop.tree_eq root' h)
  · rw [hMoved.inode_eq, hDrop.inode_eq]
  · rw [hMoved.manifest_eq, hDrop.manifest_eq]

theorem rename_ok {root' : Root} {dst : Path} (h : fs.rename ⟨root, src⟩ ⟨root', dst⟩ = .ok fs') :
    root = root' ∧ src ≠ [] ∧ dst ≠ [] ∧ ∃ node, fs.get ⟨root, src⟩ = some node ∧
      -- two names of one inode stay as they are
      ((∃ old, fs.get ⟨root, dst⟩ = some old ∧ old.ino = node.ino ∧ fs' = fs) ∨
        Relocated fs root src dst fs' ∧
          ∀ old, fs.get ⟨root, dst⟩ = some old → old.ino ≠ node.ino ∧ old.isDir = node.isDir) := by
  unfold rename at h
  split at h
  · cases h
  · rename_i node hSrc
    split at h
    · cases h
    · rename_i d n hd
      obtain ⟨hRoot, h⟩ := guard_ok.mp h
      obtain ⟨hNe, h⟩ := guard_ok.mp h
      obtain ⟨hOut, h⟩ := guard_ok.mp h
      obtain rfl : root = root' := by simpa using hRoot
      obtain ⟨hDst, hBranch⟩ := parentDir_ok hd
      simp only at hDst hNe hOut hBranch h
      subst hDst
      have hGet := fs.lookup_eq_ok.mp hSrc
      refine ⟨rfl, hNe, by simp, node, hGet, ?_⟩
      split at h
      · rename_i hNone
        cases h
        refine .inr ⟨relocated_relocate hNe hBranch hNone hOut ?_, fun old hOld => ?_⟩
        · rintro rfl
          rw [hNone] at hGet
          cases hGet
        · rw [hNone] at hOld
          cases hOld
      · rename_i old hOld
        split at h
        · rename_i hIno
          cases h
          exact .inl ⟨old, hOld, hIno, rfl⟩
        · rename_i hIno
          obtain ⟨hDirOver, h⟩ := guard_ok.mp h
          obtain ⟨hOverDir, h⟩ := guard_ok.mp h
          obtain ⟨hc, h⟩ := guard_ok.mp h
          cases h
          refine .inr ⟨?_, fun old' hOld' => ?_⟩
          · refine relocated_over hNe hBranch (not_not.mp hc) hOut ?_
            rintro rfl
            rw [hGet] at hOld
            cases hOld
            exact hIno rfl
          · rw [hOld] at hOld'
            cases hOld'
            refine ⟨hIno, ?_⟩
            cases hn : node.isDir <;> cases ho : old.isDir <;> simp_all

/-! ## Calls on inodes -/

theorem inode_modifyInode (ino : Nat) (f : Inode → Inode) (i : Nat) :
    (fs.modifyInode ino f).inode i = if i = ino then f (fs.inode ino) else fs.inode i := rfl

end FabricFs.HostFs
