import FabricFs.Client.FailClosed

/-!
# Entries of the client cache

The cache has two tables, from paths to inodes and from inodes to their paths. What each
operation does to the first table: a path that is cached afterwards comes from one that was
cached before, or is the path the operation stores.

* `lookup_insert`, `lookup_forget`, `lookup_unlinkEntry`, `lookup_moveEntry`: the first
  table after an operation.
* `Movable.next`: of the entries of a renamed subtree, one moves after the other.
-/

namespace FabricFs.Client

open Lib Protocol List Dict

/-! ## Paths of a subtree -/

variable {path : Text}

/-- What may follow the root of a subtree in one of its paths. -/
def IsRest (rest : Text) : Prop := rest = [] ∨ ∃ tail, rest = slash :: tail

theorem inSubtree_iff {root : Text} :
    pathIsInSubtree path root = true ↔ ∃ rest, IsRest rest ∧ path = root ++ rest := by
  rw [pathIsInSubtree_iff]
  constructor
  · rintro (rfl | ⟨tail, rfl⟩)
    · exact ⟨[], .inl rfl, (append_nil _).symm⟩
    · exact ⟨slash :: tail, .inr ⟨tail, rfl⟩, rfl⟩
  · rintro ⟨rest, rfl | ⟨tail, rfl⟩, rfl⟩
    · exact .inl (append_nil _)
    · exact .inr ⟨tail, rfl⟩

theorem inCachedSubtree {root : Text} (hRoot : root ≠ []) :
    PathCache.pathIsInCachedSubtree path root = pathIsInSubtree path root := by
  rw [PathCache.pathIsInCachedSubtree, if_neg (by simpa using hRoot)]
  rfl

/-- Of two roots above one path, one is in the subtree of the other. -/
theorem inSubtree_total {root root' : Text} (h : pathIsInSubtree path root = true)
    (h' : pathIsInSubtree path root' = true) :
    pathIsInSubtree root root' = true ∨ pathIsInSubtree root' root = true := by
  obtain ⟨rest, hRest, rfl⟩ := inSubtree_iff.mp h
  obtain ⟨rest', hRest', hEq⟩ := inSubtree_iff.mp h'
  have hTail : ∀ {between above : Text}, IsRest (between ++ above) → IsRest between := by
    intro between above hAbove
    cases between with
    | nil => exact .inl rfl
    | cons c tail =>
      obtain ⟨_, hCons⟩ := hAbove.resolve_left (by simp)
      rw [cons_append, cons.injEq] at hCons
      exact .inr ⟨tail, by rw [hCons.1]⟩
  rcases append_eq_append_iff.mp hEq with ⟨between, hRoot, hRests⟩ | ⟨between, hRoot, hRests⟩
  · exact .inr (inSubtree_iff.mpr ⟨between, hTail (hRests ▸ hRest), hRoot⟩)
  · exact .inl (inSubtree_iff.mpr ⟨between, hTail (hRests ▸ hRest'), hRoot⟩)

theorem renamed_append (oldPath newPath rest : Text) :
    PathCache.renamed oldPath newPath (oldPath ++ rest) = newPath ++ rest := by
  rw [PathCache.renamed, PathCache.subtreeSuffix, stripPrefix_eq_some.mpr rfl]
  rfl

theorem renamed_inSubtree {oldPath : Text} (newPath : Text)
    (h : pathIsInSubtree path oldPath = true) :
    pathIsInSubtree (PathCache.renamed oldPath newPath path) newPath = true := by
  obtain ⟨rest, hRest, rfl⟩ := inSubtree_iff.mp h
  rw [renamed_append]
  exact inSubtree_iff.mpr ⟨rest, hRest, rfl⟩

theorem renamed_renamed {oldPath newPath : Text} (h : pathIsInSubtree path oldPath = true) :
    PathCache.renamed newPath oldPath (PathCache.renamed oldPath newPath path) = path := by
  obtain ⟨rest, -, rfl⟩ := inSubtree_iff.mp h
  rw [renamed_append, renamed_append]

theorem root_not_inSubtree (hValid : validPath path = true) (hRoot : path ≠ rootPath) :
    pathIsInSubtree rootPath path = false := by
  rw [Bool.eq_false_iff]
  intro h
  obtain ⟨rest, -, hEq⟩ := inSubtree_iff.mp h
  rcases append_eq_singleton_iff.mp hEq.symm with ⟨hNil, -⟩ | ⟨hOne, -⟩
  · exact validPath_ne_nil hValid hNil
  · exact hRoot hOne

namespace PathCache

/-! ## The two tables -/

variable {inode i : Nat} {c : PathCache} {q : Text}

theorem detach_pathToInode (c : PathCache) (inode : Nat) (path : Text) :
    (c.detachInodePathForRename inode path).pathToInode = c.pathToInode := by
  unfold detachInodePathForRename
  split <;> rfl

/-- The second table does not depend on the first. -/
theorem detach_inodeToPaths (c : PathCache) (table : Dict Text Nat) (inode : Nat) (path : Text) :
    ({ c with pathToInode := table }.detachInodePathForRename inode path).inodeToPaths =
      (c.detachInodePathForRename inode path).inodeToPaths := by
  simp only [detachInodePathForRename]
  cases c.inodeToPaths.lookup inode <;> rfl

theorem removeInodePath_pathToInode (c : PathCache) (inode : Nat) (path : Text) :
    (c.removeInodePath inode path).pathToInode = c.pathToInode := by
  unfold removeInodePath
  split
  · rfl
  · simp only
    split <;> exact detach_pathToInode c inode path

theorem removeInodePath_inodeToPaths (c : PathCache) (inode : Nat) (path : Text) :
    (c.removeInodePath inode path).inodeToPaths =
      (c.detachInodePathForRename inode path).inodeToPaths := by
  unfold removeInodePath
  split
  · rename_i hNone
    simp [detachInodePathForRename, hNone]
  · simp only
    split <;> rfl

/-! ## Storing and forgetting -/

theorem lookup_insert_eq (c : PathCache) (path q : Text) (hInode : inode ≠ 0) :
    (c.insert path inode).pathToInode.lookup q =
      if q = path then some inode else c.pathToInode.lookup q := by
  unfold insert
  rw [if_neg hInode]
  split
  · rw [link, Dict.lookup_insert_eq, removeInodePath_pathToInode]
  · rw [link, Dict.lookup_insert_eq]

theorem lookup_insert {path : Text} (h : (c.insert path inode).pathToInode.lookup q = some i) :
    q = path ∧ i = inode ∨ (inode = 0 ∨ q ≠ path) ∧ c.pathToInode.lookup q = some i := by
  by_cases hInode : inode = 0
  · rw [insert, if_pos hInode] at h
    exact .inr ⟨.inl hInode, h⟩
  · rw [lookup_insert_eq c path q hInode] at h
    split at h
    · exact .inl ⟨‹_›, (Option.some.inj h).symm⟩
    · exact .inr ⟨.inr ‹_›, h⟩

theorem addLookup_tables (c : PathCache) (inode count : Nat) :
    (c.addLookup inode count).pathToInode = c.pathToInode ∧
      (c.addLookup inode count).inodeToPaths = c.inodeToPaths := by
  unfold addLookup
  split <;> exact ⟨rfl, rfl⟩

theorem lookup_removeInode (h : (c.removeInode inode).pathToInode.lookup q = some i) :
    c.pathToInode.lookup q = some i := by
  unfold removeInode at h
  split at h
  · exact h
  · simp only [lookup_retain] at h
    split at h
    · exact h
    · cases h

theorem lookup_forget {nlookup : Nat} (h : (c.forget inode nlookup).pathToInode.lookup q = some i) :
    c.pathToInode.lookup q = some i := by
  unfold forget at h
  split at h
  · exact h
  · split at h
    · exact lookup_removeInode h
    · split at h
      · exact h
      · exact lookup_removeInode (c := { c with lookupCounts := c.lookupCounts.erase inode }) h

theorem lookup_cleared (h : c.cleared.pathToInode.lookup q = some i) : q = rootPath ∧ i = 1 := by
  rcases lookup_insert h with hRoot | ⟨-, hNone⟩
  · exact hRoot
  · cases hNone

/-! ## Removing a subtree -/

theorem mem_pathsInSubtree {root : Text} {entry : Nat × Text} (hRoot : root ≠ []) :
    entry ∈ c.pathsInSubtree root ↔
      c.pathToInode.lookup entry.2 = some entry.1 ∧ pathIsInSubtree entry.2 root = true := by
  simp only [pathsInSubtree, mem_map, mem_filter, inCachedSubtree hRoot]
  constructor
  · rintro ⟨e, ⟨hMem, hIn⟩, rfl⟩
    exact ⟨mem_entries_iff.mp hMem, hIn⟩
  · rintro ⟨hLookup, hIn⟩
    exact ⟨⟨entry.2, entry.1⟩, ⟨mem_entries_iff.mpr hLookup, hIn⟩, rfl⟩

theorem pathsInSubtree_distinct (c : PathCache) (root : Text) :
    (c.pathsInSubtree root).Pairwise (fun e e' => e.2 ≠ e'.2) := by
  rw [pathsInSubtree, pairwise_map]
  have hKeys : c.pathToInode.entries.Pairwise (fun e e' => e.1 ≠ e'.1) :=
    pairwise_map.mp c.pathToInode.nodupKeys
  exact hKeys.filter _

theorem lookup_unlinkEntry (c : PathCache) (entry : Nat × Text) (q : Text) :
    (c.unlinkEntry entry).pathToInode.lookup q =
      if q = entry.2 then none else c.pathToInode.lookup q := by
  rw [unlinkEntry, removeInodePath_pathToInode, lookup_erase_eq]

/-! ## Moving a subtree -/

theorem lookup_moveEntry (c : PathCache) (oldPath newPath : Text) (entry : Nat × Text) (q : Text) :
    (c.moveEntry oldPath newPath entry).pathToInode.lookup q =
      if q = renamed oldPath newPath entry.2 then some entry.1
      else if q = entry.2 then none else c.pathToInode.lookup q := by
  simp only [moveEntry, link, Dict.lookup_insert_eq, detach_pathToInode, Dict.lookup_erase_eq]

/-- An entry of the old subtree whose new place is free. -/
def Movable (oldPath newPath : Text) (c : PathCache) (entry : Nat × Text) : Prop :=
  c.pathToInode.lookup entry.2 = some entry.1 ∧ pathIsInSubtree entry.2 oldPath = true ∧
    c.pathToInode.lookup (renamed oldPath newPath entry.2) = none

/-- The other entries can still move when one has moved. -/
theorem Movable.next {oldPath newPath : Text} {entry e : Nat × Text}
    (hApart : ∀ q, pathIsInSubtree q oldPath = true → pathIsInSubtree q newPath = false)
    (hEntry : Movable oldPath newPath c entry) (he : Movable oldPath newPath c e)
    (hNe : entry.2 ≠ e.2) : Movable oldPath newPath (c.moveEntry oldPath newPath entry) e := by
  obtain ⟨-, hIn, -⟩ := hEntry
  obtain ⟨hE, hEIn, hEFree⟩ := he
  have hTarget := renamed_inSubtree newPath hIn
  have hENew : pathIsInSubtree e.2 newPath = false := hApart _ hEIn
  refine ⟨?_, hEIn, ?_⟩
  · rw [lookup_moveEntry, if_neg, if_neg hNe.symm]
    · exact hE
    · intro hEq
      rw [hEq, hTarget] at hENew
      cases hENew
  · rw [lookup_moveEntry, if_neg]
    · split
      · rfl
      · exact hEFree
    · intro hEq
      have hBack := congrArg (renamed newPath oldPath) hEq
      rw [renamed_renamed hEIn, renamed_renamed hIn] at hBack
      exact hNe hBack.symm

theorem apart_of_valid {oldPath newPath : Text}
    (hValid : validateRenamePaths oldPath newPath = .ok ()) (q : Text)
    (hOld : pathIsInSubtree q oldPath = true) : pathIsInSubtree q newPath = false := by
  obtain ⟨-, -, hOldNew, hNewOld⟩ := validateRenamePaths_eq_ok.mp hValid
  rw [Bool.eq_false_iff]
  intro hNew
  rcases inSubtree_total hOld hNew with h | h
  · rw [hOldNew] at h
    cases h
  · rw [hNewOld] at h
    cases h

end PathCache

end FabricFs.Client
