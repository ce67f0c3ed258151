import FabricFs.Client.Tables

/-!
# A rename in the client cache

The entries of the old subtree move one by one while the entries of the new one leave, and
one inode may have paths in both and elsewhere. The hash map yields the entries of a
subtree in an order of its own, so the rename is described for every order.

* `moved_renameInOrder`: what a rename does to the entries and to the counts.
* `rename_moves_subtree`: it moves exactly the cached subtree, whatever the order.
-/

namespace FabricFs.Client

open Lib Protocol List

namespace PathCache

variable {oldPath newPath : Text} {c : PathCache}

/-- `rename` with the entries of the old and of the new subtree in the given order. -/
def renameInOrder (oldPath newPath : Text) (moved cached : List (Nat × Text)) (c : PathCache) :
    PathCache :=
  moved.foldl (moveEntry oldPath newPath)
    ((cached.filter (fun entry => !(moved.map Prod.snd).contains entry.2)).foldl unlinkEntry c)

theorem rename_eq_inOrder (c : PathCache) (hValid : validateRenamePaths oldPath newPath = .ok ()) :
    c.rename oldPath newPath = (.ok (), c.renameInOrder oldPath newPath
      (c.pathsInSubtree oldPath) (c.pathsInSubtree newPath)) := by
  simp only [rename, hValid]
  rfl

/-! ## The moved entries -/

/-- Entries of distinct paths move one after the other, in any order, to places that are
free. -/
theorem foldl_moveEntry {moved : List (Nat × Text)}
    (hApart : ∀ q, pathIsInSubtree q oldPath = true → pathIsInSubtree q newPath = false)
    (h : Sound c) (hDistinct : moved.Pairwise (fun e e' => e.2 ≠ e'.2))
    (hMoved : ∀ e ∈ moved, Movable oldPath newPath c e) :
    let c' := moved.foldl (moveEntry oldPath newPath) c
    Sound c' ∧ c'.lookupCounts = c.lookupCounts ∧ ∀ q i, c'.pathToInode.lookup q = some i ↔
      (∃ e ∈ moved, e.1 = i ∧ q = renamed oldPath newPath e.2) ∨
      c.pathToInode.lookup q = some i ∧ ∀ e ∈ moved, q ≠ e.2 := by
  induction moved generalizing c with
  | nil => exact ⟨h, rfl, fun q i => by simp⟩
  | cons entry rest ih =>
    obtain ⟨hHead, hRest⟩ := pairwise_cons.mp hDistinct
    have hEntry := hMoved entry (.head _)
    obtain ⟨hSound, hCounts, hOld⟩ := ih (sound_moveEntry h hEntry.1 hEntry.2.2) hRest
      fun e he => hEntry.next hApart (hMoved e (.tail _ he)) (hHead e he)
    refine ⟨hSound, hCounts.trans (counts_moveEntry c oldPath newPath entry), fun q i => ?_⟩
    rw [foldl_cons, hOld, lookup_moveEntry]
    -- the new place of the entry is not in the old subtree
    have hOut : ∀ e ∈ rest, renamed oldPath newPath entry.2 ≠ e.2 := by
      intro e he hEq
      have hNew := hApart _ (hMoved e (.tail _ he)).2.1
      rw [← hEq, renamed_inSubtree newPath hEntry.2.1] at hNew
      cases hNew
    have hFree := hEntry.2.2
    grind

/-! ## The whole rename -/

/-- The second cache is the first one with the old subtree at the new place. -/
structure Moved (oldPath newPath : Text) (c c' : PathCache) : Prop where
  sound : Sound c'
  entries : ∀ q i, c'.pathToInode.lookup q = some i ↔
    (∃ rest, IsRest rest ∧ q = newPath ++ rest ∧ c.pathToInode.lookup (oldPath ++ rest) = some i) ∨
    c.pathToInode.lookup q = some i ∧ pathIsInSubtree q oldPath = false ∧
      pathIsInSubtree q newPath = false
  counts : ∀ i, c'.aliases i ≠ [] → c'.lookupCounts.lookup i = c.lookupCounts.lookup i
  mark : SameMark c c'

theorem Moved.no_count {c' : PathCache} (h : Moved oldPath newPath c c') {i : Nat}
    (hNone : c'.aliases i = []) :
    c'.lookupCounts.lookup i = none := by
  by_contra hCount
  exact h.sound.counted i hCount hNone

/-- What a rename makes of a cache is determined. -/
theorem Moved.same {c' c'' : PathCache} (h : Moved oldPath newPath c c')
    (h' : Moved oldPath newPath c c'') : Same c' c'' := by
  have hEntries : ∀ q, c''.pathToInode.lookup q = c'.pathToInode.lookup q := by
    intro q
    apply Option.ext
    intro i
    rw [h'.entries, h.entries]
  have hAliases : ∀ i, c''.aliases i = [] ↔ c'.aliases i = [] := by
    intro i
    rw [← not_iff_not]
    refine h'.sound.has_path_iff.trans (Iff.trans ?_ h.sound.has_path_iff.symm)
    simp only [hEntries]
  refine h.sound.same_of_entries h'.sound hEntries (fun i => ?_) ?_
  · by_cases hNone : c'.aliases i = []
    · rw [h.no_count hNone, h'.no_count ((hAliases i).mpr hNone)]
    · rw [h.counts i hNone, h'.counts i fun hNil => hNone ((hAliases i).mp hNil)]
  · exact ⟨h'.mark.1.trans h.mark.1.symm, h'.mark.2.trans h.mark.2.symm⟩

theorem moved_renameInOrder (h : Sound c) (hValid : validateRenamePaths oldPath newPath = .ok ())
    {moved cached : List (Nat × Text)} (hMoved : moved.Perm (c.pathsInSubtree oldPath))
    (hCached : cached.Perm (c.pathsInSubtree newPath)) :
    Moved oldPath newPath c (c.renameInOrder oldPath newPath moved cached) := by
  have hApart := apart_of_valid hValid
  obtain ⟨⟨hOld, -⟩, ⟨hNew, -⟩, -⟩ := validateRenamePaths_eq_ok.mp hValid
  have hMem : ∀ {e}, e ∈ moved ↔
      c.pathToInode.lookup e.2 = some e.1 ∧ pathIsInSubtree e.2 oldPath = true :=
    hMoved.mem_iff.trans (mem_pathsInSubtree (validPath_ne_nil hOld))
  have hMemCached : ∀ {e}, e ∈ cached ↔
      c.pathToInode.lookup e.2 = some e.1 ∧ pathIsInSubtree e.2 newPath = true :=
    hCached.mem_iff.trans (mem_pathsInSubtree (validPath_ne_nil hNew))
  have hDistinct : moved.Pairwise (fun e e' => e.2 ≠ e'.2) :=
    hMoved.symm.pairwise (pathsInSubtree_distinct c oldPath) fun hNe => hNe.symm
  have hDistinctCached : cached.Pairwise (fun e e' => e.2 ≠ e'.2) :=
    hCached.symm.pairwise (pathsInSubtree_distinct c newPath) fun hNe => hNe.symm
  -- the two subtrees are apart, so no entry of the new one is spared
  have hSpared : cached.filter (fun entry => !(moved.map Prod.snd).contains entry.2) = cached := by
    rw [filter_eq_self]
    intro e he
    simp only [Bool.not_eq_true', contains_eq_mem, decide_eq_false_iff_not, mem_map]
    rintro ⟨e', he', hEq⟩
    have hNew := hApart _ (hMem.mp he').2
    rw [hEq, (hMemCached.mp he).2] at hNew
    cases hNew
  have hUnlinked := foldl_unlink_effect h hDistinctCached fun e he => (hMemCached.mp he).1
  have hEntries : ∀ q i, (cached.foldl unlinkEntry c).pathToInode.lookup q = some i ↔
      c.pathToInode.lookup q = some i ∧ pathIsInSubtree q newPath = false := by
    intro q i
    rw [hUnlinked.entries]
    refine and_congr_right fun hEntry => ?_
    rw [← Bool.not_eq_true]
    refine not_congr ⟨?_, fun hIn => ⟨(i, q), hMemCached.mpr ⟨hEntry, hIn⟩, rfl⟩⟩
    rintro ⟨e, he, rfl⟩
    exact (hMemCached.mp he).2
  have hMovable : ∀ e ∈ moved, Movable oldPath newPath (cached.foldl unlinkEntry c) e := by
    intro e he
    obtain ⟨hEntry, hIn⟩ := hMem.mp he
    refine ⟨(hEntries _ _).mpr ⟨hEntry, hApart _ hIn⟩, hIn, ?_⟩
    rw [Option.eq_none_iff_forall_ne_some]
    intro i hLookup
    have hOut := ((hEntries _ i).mp hLookup).2
    rw [renamed_inSubtree newPath hIn] at hOut
    cases hOut
  obtain ⟨hSound, hCounts, hFinal⟩ := foldl_moveEntry hApart hUnlinked.sound hDistinct hMovable
  rw [renameInOrder, hSpared]
  refine ⟨hSound, fun q i => ?_, fun i hSome => ?_, ?_⟩
  · rw [hFinal, hEntries]
    refine or_congr ⟨?_, ?_⟩ ⟨?_, ?_⟩
    · rintro ⟨e, he, rfl, rfl⟩
      obtain ⟨hEntry, hIn⟩ := hMem.mp he
      obtain ⟨rest, hRest, hPath⟩ := inSubtree_iff.mp hIn
      rw [hPath, renamed_append]
      exact ⟨rest, hRest, rfl, hPath ▸ hEntry⟩
    · rintro ⟨rest, hRest, rfl, hEntry⟩
      refine ⟨(i, oldPath ++ rest), hMem.mpr ⟨hEntry, ?_⟩, rfl, (renamed_append _ _ _).symm⟩
      exact inSubtree_iff.mpr ⟨rest, hRest, rfl⟩
    · rintro ⟨⟨hEntry, hNew⟩, hNot⟩
      refine ⟨hEntry, Bool.eq_false_iff.mpr fun hIn => ?_, hNew⟩
      exact hNot (i, q) (hMem.mpr ⟨hEntry, hIn⟩) rfl
    · rintro ⟨hEntry, hOld, hNew⟩
      refine ⟨⟨hEntry, hNew⟩, ?_⟩
      rintro e he rfl
      rw [(hMem.mp he).2] at hOld
      cases hOld
  · rw [hCounts]
    refine hUnlinked.counts i ?_
    obtain ⟨q, hq⟩ := hSound.has_path_iff.mp hSome
    refine hUnlinked.sound.has_path_iff.mpr ?_
    rcases (hFinal q i).mp hq with ⟨e, he, rfl, -⟩ | ⟨hOld, -⟩
    · exact ⟨e.2, (hMovable e he).1⟩
    · exact ⟨q, hOld⟩
  · exact (sameMark_foldl sameMark_unlinkEntry cached c).trans
      (sameMark_foldl (sameMark_moveEntry oldPath newPath) moved _)

theorem moved_rename (h : Sound c) (hValid : validateRenamePaths oldPath newPath = .ok ()) :
    Moved oldPath newPath c (c.rename oldPath newPath).2 := by
  rw [rename_eq_inOrder c hValid]
  exact moved_renameInOrder h hValid (.refl _) (.refl _)

/-- A rename moves exactly the cached subtree: its entries stand at the new place, the
others that were there are gone, and all else is as before. -/
theorem rename_moves_subtree {c : PathCache} (h : Sound c) {oldPath newPath : Text}
    (hValid : validateRenamePaths oldPath newPath = .ok ()) {moved cached : List (Nat × Text)}
    (hMoved : moved.Perm (c.pathsInSubtree oldPath))
    (hCached : cached.Perm (c.pathsInSubtree newPath)) :
    let c' := c.renameInOrder oldPath newPath moved cached
    (c.rename oldPath newPath).1 = .ok () ∧ Same (c.rename oldPath newPath).2 c' ∧ Sound c' ∧
    (∀ rest, pathIsInSubtree (newPath ++ rest) newPath = true →
      c'.pathToInode.lookup (newPath ++ rest) = c.pathToInode.lookup (oldPath ++ rest)) ∧
    (∀ path, pathIsInSubtree path oldPath = true → c'.pathToInode.lookup path = none) ∧
    (∀ path, pathIsInSubtree path oldPath = false → pathIsInSubtree path newPath = false →
      c'.pathToInode.lookup path = c.pathToInode.lookup path) ∧
    (∀ inode, (∃ path, c'.pathToInode.lookup path = some inode) →
      c'.lookupCounts.lookup inode = c.lookupCounts.lookup inode) ∧
    (∀ inode, (∀ path, c'.pathToInode.lookup path ≠ some inode) →
      c'.lookupCounts.lookup inode = none) := by
  intro c'
  have hApart := apart_of_valid hValid
  have hEffect : Moved oldPath newPath c c' := moved_renameInOrder h hValid hMoved hCached
  rw [rename_eq_inOrder c hValid]
  refine ⟨rfl, ?_, hEffect.sound, ?_, ?_, ?_, ?_, ?_⟩
  · exact (moved_renameInOrder h hValid (.refl _) (.refl _)).same hEffect
  · intro rest hIn
    obtain ⟨rest', hRest, hEq⟩ := inSubtree_iff.mp hIn
    obtain rfl : rest = rest' := append_cancel_left hEq
    apply Option.ext
    intro i
    rw [hEffect.entries]
    constructor
    · rintro (⟨rest', -, hEq, hEntry⟩ | ⟨-, -, hNew⟩)
      · rwa [append_cancel_left hEq]
      · rw [hIn] at hNew
        cases hNew
    · intro hEntry
      exact .inl ⟨rest, hRest, rfl, hEntry⟩
  · intro path hIn
    rw [Option.eq_none_iff_forall_ne_some]
    intro i hEntry
    rcases (hEffect.entries path i).mp hEntry with ⟨rest, hRest, rfl, -⟩ | ⟨-, hOld, -⟩
    · have hNew := hApart _ hIn
      rw [inSubtree_iff.mpr ⟨rest, hRest, rfl⟩] at hNew
      cases hNew
    · rw [hIn] at hOld
      cases hOld
  · intro path hOld hNew
    apply Option.ext
    intro i
    rw [hEffect.entries]
    constructor
    · rintro (⟨rest, hRest, rfl, -⟩ | ⟨hEntry, -⟩)
      · rw [inSubtree_iff.mpr ⟨rest, hRest, rfl⟩] at hNew
        cases hNew
      · exact hEntry
    · intro hEntry
      exact .inr ⟨hEntry, hOld, hNew⟩
  · intro inode hPath
    exact hEffect.counts inode (hEffect.sound.has_path_iff.mpr hPath)
  · intro inode hNone
    refine hEffect.no_count ?_
    by_contra hSome
    obtain ⟨path, hPath⟩ := hEffect.sound.has_path_iff.mp hSome
    exact hNone path hPath

/-- `/a` and `/a/f`, where `/c` is a hard link of the latter, and `/b/f` with a kernel
reference. -/
def hardLinks : PathCache :=
  (((PathCache.new.insert [47, 97] 2).insert [47, 97, 47, 102] 3).insertLookup
    [47, 98, 47, 102] 4 1).insert [47, 99] 3

/-- When `/a` becomes `/b`, the file at `/b/f` gives way to the hard link. -/
theorem rename_moves_hard_link :
    (hardLinks.renameInOrder [47, 97] [47, 98] (hardLinks.pathsInSubtree [47, 97]).reverse
      (hardLinks.pathsInSubtree [47, 98])).pathToInode.lookup [47, 98, 47, 102] =
        hardLinks.pathToInode.lookup [47, 97, 47, 102] ∧
      hardLinks.pathToInode.lookup [47, 97, 47, 102] = some 3 := by
  have hSound : Sound hardLinks :=
    sound_insert (sound_insertLookup (sound_insert (sound_insert (sound_cleared _) _ _) _ _)
      _ _ _) _ _
  have hMoves := @rename_moves_subtree hardLinks hSound [47, 97] [47, 98] (by decide) _ _
    (reverse_perm _) (.refl _)
  exact ⟨hMoves.2.2.2.1 [47, 102] (by decide), by decide⟩

end PathCache

end FabricFs.Client
