import FabricFs.Client.Entries

/-!
# The representation invariant of the client cache

`Sound` says when the three tables of the cache describe one set of entries: a path leads
to an inode exactly when it is an alias of it, no set of aliases is empty, and only inodes
with an alias have a lookup count. Each operation is described by what it does to the
entries, to the aliases and to the counts, and keeps the invariant.

* `Sound.same_of_entries`: the entries and the counts determine a sound cache.
* `sound_insert`, `sound_unlinkEntry`, `sound_moveEntry`: the steps from which all
  operations are made.
* `foldl_unlink_effect`: entries that leave in any order leave the same cache.
-/

namespace FabricFs.Client

open Lib Protocol PathSet List Option Dict

/-! ## Ordered sets of paths -/

namespace PathSet

variable {paths : PathSet}

/-- A list in the order of a `BTreeSet`. -/
def Ordered (paths : PathSet) : Prop := paths.Pairwise (· ≤ ·) ∧ paths.Nodup

theorem Ordered.filter (h : Ordered paths) (keep : Text → Bool) : Ordered (paths.filter keep) :=
  ⟨h.1.filter keep, h.2.filter keep⟩

theorem Ordered.insert (h : Ordered paths) (path : Text) : Ordered (insert paths path) := by
  unfold PathSet.insert
  split
  · exact h
  · rename_i hNew
    refine ⟨h.1.orderedInsert path paths, ?_⟩
    rw [(perm_orderedInsert (· ≤ ·) path paths).nodup_iff]
    exact nodup_cons.mpr ⟨hNew, h.2⟩

/-- An ordered set is known by its members. -/
theorem Ordered.eq_of_mem {paths' : PathSet} (h : Ordered paths) (h' : Ordered paths')
    (hMem : ∀ path, path ∈ paths ↔ path ∈ paths') : paths = paths' := by
  have hPerm : paths.Perm paths' := (List.perm_ext_iff_of_nodup h.2 h'.2).mpr hMem
  exact hPerm.eq_of_pairwise (fun _ _ _ _ hLe hGe => List.le_antisymm hLe hGe) h.1 h'.1

theorem insert_ne_nil (paths : PathSet) (path : Text) : insert paths path ≠ [] :=
  ne_nil_of_mem (mem_insert.mpr (.inl rfl))

end PathSet

namespace PathCache

/-! ## The invariant -/

variable {c c' : PathCache} {inode : Nat} {entry : Nat × Text}

/-- The paths under which an inode is cached. -/
def aliases (c : PathCache) (inode : Nat) : PathSet := (c.inodeToPaths.lookup inode).getD []

/-- The three tables fit together. -/
structure Sound (c : PathCache) : Prop where
  entry : ∀ path inode, c.pathToInode.lookup path = some inode ↔ path ∈ c.aliases inode
  full : ∀ inode, c.inodeToPaths.lookup inode ≠ some []
  ordered : ∀ inode, (c.aliases inode).Ordered
  counted : ∀ inode, c.lookupCounts.lookup inode ≠ none → c.aliases inode ≠ []

/-- Two caches that answer every question alike. -/
structure Same (c c' : PathCache) : Prop where
  entries : ∀ path, c'.pathToInode.lookup path = c.pathToInode.lookup path
  sets : ∀ inode, c'.inodeToPaths.lookup inode = c.inodeToPaths.lookup inode
  counts : ∀ inode, c'.lookupCounts.lookup inode = c.lookupCounts.lookup inode
  mark : SameMark c c'

theorem lookup_eq_of_full (hFull : ∀ inode, c.inodeToPaths.lookup inode ≠ some []) (inode : Nat) :
    c.inodeToPaths.lookup inode =
      if c.aliases inode = [] then none else some (c.aliases inode) := by
  unfold aliases
  cases hSet : c.inodeToPaths.lookup inode with
  | none => rfl
  | some paths =>
    rw [getD_some, if_neg]
    rintro rfl
    exact hFull inode hSet

theorem Sound.has_path_iff (h : Sound c) :
    c.aliases inode ≠ [] ↔ ∃ path, c.pathToInode.lookup path = some inode := by
  constructor
  · intro hSome
    obtain ⟨path, hMem⟩ := exists_mem_of_ne_nil _ hSome
    exact ⟨path, (h.entry path inode).mpr hMem⟩
  · rintro ⟨path, hEntry⟩
    exact ne_nil_of_mem ((h.entry path inode).mp hEntry)

theorem Sound.unique (h : Sound c) {path : Text} {other : Nat} (hMem : path ∈ c.aliases inode)
    (hOther : path ∈ c.aliases other) : other = inode := by
  have hEntry := (h.entry path inode).mpr hMem
  rw [(h.entry path other).mpr hOther] at hEntry
  exact some.inj hEntry

theorem Sound.same_of_entries (h : Sound c) (h' : Sound c')
    (hEntries : ∀ path, c'.pathToInode.lookup path = c.pathToInode.lookup path)
    (hCounts : ∀ inode, c'.lookupCounts.lookup inode = c.lookupCounts.lookup inode)
    (hMark : SameMark c c') : Same c c' := by
  refine ⟨hEntries, fun inode => ?_, hCounts, hMark⟩
  have hAliases : c'.aliases inode = c.aliases inode := by
    refine (h'.ordered inode).eq_of_mem (h.ordered inode) fun path => ?_
    rw [← h'.entry, ← h.entry, hEntries]
  rw [lookup_eq_of_full h'.full, lookup_eq_of_full h.full, hAliases]

/-! ## One path of one inode -/

theorem aliases_detach (c : PathCache) (inode other : Nat) (path : Text) :
    (c.detachInodePathForRename inode path).aliases other =
      if other = inode then (c.aliases inode).filter (· != path) else c.aliases other := by
  unfold detachInodePathForRename aliases
  cases hSet : c.inodeToPaths.lookup inode with
  | none =>
    simp only [getD_none, filter_nil]
    split
    · rename_i hOther
      rw [hOther, hSet]
      rfl
    · rfl
  | some paths =>
    simp only [getD_some]
    by_cases hOther : other = inode
    · subst hOther
      rw [if_pos rfl]
      split
      · rename_i hEmpty
        rw [AList.lookup_erase, isEmpty_iff.mp hEmpty]
        rfl
      · rw [AList.lookup_insert]
        rfl
    · rw [if_neg hOther]
      split
      · rw [AList.lookup_erase_ne hOther]
      · rw [AList.lookup_insert_ne hOther]

theorem full_detach (hFull : ∀ inode, c.inodeToPaths.lookup inode ≠ some []) (inode : Nat)
    (path : Text) (other : Nat) :
    (c.detachInodePathForRename inode path).inodeToPaths.lookup other ≠ some [] := by
  unfold detachInodePathForRename
  split
  · exact hFull other
  · simp only
    split
    · rw [lookup_erase_eq]
      split
      · exact some_ne_none _ |>.symm
      · exact hFull other
    · rename_i hSome
      rw [Dict.lookup_insert_eq]
      split
      · intro hNil
        exact hSome (by rw [some.inj hNil]; rfl)
      · exact hFull other

theorem aliases_congr (h : c'.inodeToPaths = c.inodeToPaths) (inode : Nat) :
    c'.aliases inode = c.aliases inode := by
  rw [aliases, aliases, h]

theorem counts_detach (c : PathCache) (inode : Nat) (path : Text) :
    (c.detachInodePathForRename inode path).lookupCounts = c.lookupCounts := by
  unfold detachInodePathForRename
  split <;> rfl

theorem counts_removeInodePath (c : PathCache) (inode other : Nat) (path : Text) :
    (c.removeInodePath inode path).lookupCounts.lookup other =
      if other = inode ∧ (c.aliases inode).filter (· != path) = [] then none
      else c.lookupCounts.lookup other := by
  unfold removeInodePath aliases
  cases c.inodeToPaths.lookup inode with
  | none => simp [lookup_erase_eq]
  | some paths =>
    simp only [getD_some, List.isEmpty_iff]
    split
    · rename_i hEmpty
      simp [hEmpty, lookup_erase_eq]
    · rename_i hSome
      rw [counts_detach, if_neg fun h => hSome h.2]

theorem aliases_link (c : PathCache) (path : Text) (inode other : Nat) :
    (c.link path inode).aliases other =
      if other = inode then PathSet.insert (c.aliases inode) path else c.aliases other := by
  simp only [link, aliases, Dict.lookup_insert_eq]
  split <;> rfl

theorem full_link (hFull : ∀ inode, c.inodeToPaths.lookup inode ≠ some []) (path : Text)
    (inode other : Nat) :
    (c.link path inode).inodeToPaths.lookup other ≠ some [] := by
  simp only [link, Dict.lookup_insert_eq]
  split
  · intro hNil
    have hMem : path ∈ PathSet.insert ((c.inodeToPaths.lookup inode).getD []) path :=
      mem_insert.mpr (.inl rfl)
    rw [some.inj hNil] at hMem
    cases hMem
  · exact hFull other

/-! ## Storing an entry -/

/-- The path leaves the aliases of all other inodes. -/
theorem aliases_insert (h : Sound c) (path : Text) (hInode : inode ≠ 0) (other : Nat) :
    (c.insert path inode).aliases other =
      if other = inode then PathSet.insert (c.aliases inode) path
      else (c.aliases other).filter (· != path) := by
  have hFree : c.pathToInode.lookup path ≠ some other →
      (c.aliases other).filter (· != path) = c.aliases other := by
    intro hNot
    refine filter_eq_self.mpr fun q hq => bne_iff_ne.mpr ?_
    rintro rfl
    exact hNot ((h.entry q other).mpr hq)
  unfold insert
  rw [if_neg hInode]
  split
  · rename_i old hOld
    obtain ⟨hEntry, hNe⟩ := filter_eq_some_iff.mp hOld
    simp only [aliases_link, aliases_congr (removeInodePath_inodeToPaths c old path),
      aliases_detach]
    grind
  · rename_i hNone
    rw [aliases_link]
    grind

theorem counts_insert (h : Sound c) (path : Text) (hInode : inode ≠ 0) (other : Nat) :
    (c.insert path inode).lookupCounts.lookup other =
      if other ≠ inode ∧ (c.aliases other).filter (· != path) = [] then none
      else c.lookupCounts.lookup other := by
  have hNoCount : ∀ j, c.aliases j = [] → c.lookupCounts.lookup j = none := by
    intro j hNil
    by_contra hCount
    exact h.counted j hCount hNil
  unfold insert
  rw [if_neg hInode]
  split
  · rename_i old hOld
    obtain ⟨hEntry, hNe⟩ := filter_eq_some_iff.mp hOld
    have hOldInode : old ≠ inode := by simpa using hNe
    rw [link, counts_removeInodePath]
    by_cases hOther : other = old
    · subst hOther
      simp [hOldInode]
    · rw [if_neg fun hBoth => hOther hBoth.1]
      split
      · rename_i hGone
        refine hNoCount other ?_
        rw [eq_nil_iff_forall_not_mem]
        intro q hq
        have hKept : q ∈ (c.aliases other).filter (· != path) := by
          refine mem_filter.mpr ⟨hq, bne_iff_ne.mpr ?_⟩
          rintro rfl
          exact hOther (h.unique ((h.entry q old).mp hEntry) hq)
        rw [hGone.2] at hKept
        cases hKept
      · rfl
  · rename_i hNone
    rw [link]
    split
    · rename_i hGone
      refine hNoCount other ?_
      rw [eq_nil_iff_forall_not_mem]
      intro q hq
      have hKept : q ∈ (c.aliases other).filter (· != path) := by
        refine mem_filter.mpr ⟨hq, bne_iff_ne.mpr ?_⟩
        rintro rfl
        rw [(h.entry q other).mpr hq, filter_some, if_pos (by simpa using hGone.1)] at hNone
        cases hNone
      rw [hGone.2] at hKept
      cases hKept
    · rfl

theorem sound_insert (h : Sound c) (path : Text) (inode : Nat) : Sound (c.insert path inode) := by
  by_cases hInode : inode = 0
  · rw [insert, if_pos hInode]
    exact h
  refine ⟨fun q j => ?_, fun j => ?_, fun j => ?_, fun j => ?_⟩
  · rw [lookup_insert_eq c path q hInode, aliases_insert h path hInode]
    have hOld := h.entry q j
    grind [mem_insert]
  · unfold insert
    rw [if_neg hInode]
    split
    · refine full_link (fun i => ?_) path inode j
      rw [removeInodePath_inodeToPaths]
      exact full_detach h.full _ path i
    · exact full_link h.full path inode j
  · rw [aliases_insert h path hInode]
    split
    · exact (h.ordered inode).insert path
    · exact (h.ordered j).filter _
  · rw [counts_insert h path hInode, aliases_insert h path hInode]
    grind [insert_ne_nil]

theorem Sound.of_tables (h : Sound c) (hPaths : c'.pathToInode = c.pathToInode)
    (hInodes : c'.inodeToPaths = c.inodeToPaths)
    (hCounts : ∀ inode, c'.lookupCounts.lookup inode ≠ none → c.aliases inode ≠ []) : Sound c' := by
  refine ⟨fun path inode => ?_, fun inode => ?_, fun inode => ?_, fun inode hCount => ?_⟩
  · rw [hPaths, aliases_congr hInodes]
    exact h.entry path inode
  · rw [hInodes]
    exact h.full inode
  · rw [aliases_congr hInodes]
    exact h.ordered inode
  · rw [aliases_congr hInodes]
    exact hCounts inode hCount

theorem sound_cleared (c : PathCache) : Sound c.cleared := by
  refine sound_insert ⟨fun path inode => ?_, fun inode => ?_, fun inode => ?_, fun inode => ?_⟩ _ _
  · constructor <;> intro hNever <;> cases hNever
  · intro hNever
    cases hNever
  · exact ⟨List.Pairwise.nil, nodup_nil⟩
  · exact fun h => absurd rfl h

/-! ## Counting references -/

theorem sound_addLookup (h : Sound c) (inode count : Nat) : Sound (c.addLookup inode count) := by
  refine h.of_tables (addLookup_tables c inode count).1 (addLookup_tables c inode count).2 ?_
  intro other hCount
  unfold addLookup at hCount
  split at hCount
  · exact h.counted other hCount
  · rename_i hSome
    simp only [Dict.lookup_insert_eq] at hCount
    split at hCount
    · rename_i hOther
      subst hOther
      intro hNil
      rw [lookup_eq_of_full h.full, if_pos hNil] at hSome
      simp at hSome
    · exact h.counted other hCount

theorem sound_insertLookup (h : Sound c) (path : Text) (inode count : Nat) :
    Sound (c.insertLookup path inode count) :=
  sound_addLookup (sound_insert h path inode) inode count

theorem aliases_removeInode (c : PathCache) (hInode : inode ≠ 1) (other : Nat) :
    (c.removeInode inode).aliases other = if other = inode then [] else c.aliases other := by
  rw [removeInode, if_neg hInode]
  simp only [aliases, lookup_erase_eq]
  split <;> rfl

theorem lookup_removeInode_eq (c : PathCache) (hInode : inode ≠ 1) (path : Text) :
    (c.removeInode inode).pathToInode.lookup path =
      if path ∈ c.aliases inode then none else c.pathToInode.lookup path := by
  rw [removeInode, if_neg hInode]
  change (c.pathToInode.retain fun path => !(c.aliases inode).contains path).lookup path = _
  rw [lookup_retain]
  by_cases hMem : path ∈ c.aliases inode <;> simp [hMem]

theorem counts_removeInode (c : PathCache) (hInode : inode ≠ 1) (other : Nat) :
    (c.removeInode inode).lookupCounts.lookup other =
      if other = inode then none else c.lookupCounts.lookup other := by
  rw [removeInode, if_neg hInode]
  simp only [lookup_erase_eq]

theorem sound_removeInode (h : Sound c) (inode : Nat) : Sound (c.removeInode inode) := by
  by_cases hInode : inode = 1
  · rw [removeInode, if_pos hInode]
    exact h
  refine ⟨fun path j => ?_, fun j => ?_, fun j => ?_, fun j => ?_⟩
  · rw [lookup_removeInode_eq c hInode, aliases_removeInode c hInode]
    have hOld := h.entry path j
    have hGone := h.entry path inode
    grind
  · rw [removeInode, if_neg hInode]
    simp only [lookup_erase_eq]
    have hFull := h.full j
    grind
  · rw [aliases_removeInode c hInode]
    split
    · exact ⟨List.Pairwise.nil, nodup_nil⟩
    · exact h.ordered j
  · rw [counts_removeInode c hInode, aliases_removeInode c hInode]
    have hCounted := h.counted j
    grind

theorem sound_forget (h : Sound c) (inode nlookup : Nat) : Sound (c.forget inode nlookup) := by
  unfold forget
  split
  · exact h
  · split
    · exact sound_removeInode h inode
    · rename_i count hCount
      split
      · refine h.of_tables rfl rfl fun other hOther => ?_
        simp only [Dict.lookup_insert_eq] at hOther
        split at hOther
        · rename_i hEq
          rw [hEq]
          exact h.counted inode (by rw [hCount]; exact some_ne_none count)
        · exact h.counted other hOther
      · refine sound_removeInode (c := { c with lookupCounts := c.lookupCounts.erase inode })
          (h.of_tables rfl rfl fun other hOther => ?_) inode
        simp only [lookup_erase_eq] at hOther
        split at hOther
        · exact absurd rfl hOther
        · exact h.counted other hOther

/-! ## Removing an entry -/

theorem aliases_unlinkEntry (c : PathCache) (entry : Nat × Text) (other : Nat) :
    (c.unlinkEntry entry).aliases other =
      if other = entry.1 then (c.aliases other).filter (· != entry.2) else c.aliases other := by
  rw [unlinkEntry, aliases_congr (removeInodePath_inodeToPaths _ _ _), aliases_detach]
  split
  · rename_i hOther
    rw [hOther]
    rfl
  · rfl

theorem counts_unlinkEntry (c : PathCache) (entry : Nat × Text) (other : Nat) :
    (c.unlinkEntry entry).lookupCounts.lookup other =
      if other = entry.1 ∧ (c.unlinkEntry entry).aliases other = [] then none
      else c.lookupCounts.lookup other := by
  rw [aliases_unlinkEntry, unlinkEntry, counts_removeInodePath]
  by_cases hOther : other = entry.1
  · subst hOther
    simp only [true_and, if_true]
    rfl
  · rw [if_neg fun h => hOther h.1, if_neg fun h => hOther h.1]

theorem sound_unlinkEntry (h : Sound c) (hEntry : c.pathToInode.lookup entry.2 = some entry.1) :
    Sound (c.unlinkEntry entry) := by
  refine ⟨fun q j => ?_, fun j => ?_, fun j => ?_, fun j => ?_⟩
  · rw [lookup_unlinkEntry, aliases_unlinkEntry]
    have hOld := h.entry q j
    grind
  · rw [unlinkEntry, removeInodePath_inodeToPaths, detach_inodeToPaths]
    exact full_detach h.full entry.1 entry.2 j
  · rw [aliases_unlinkEntry]
    split
    · exact (h.ordered j).filter _
    · exact h.ordered j
  · rw [counts_unlinkEntry, aliases_unlinkEntry]
    have hCounted := h.counted j
    grind

/-- What is left of a sound cache when some of its paths are gone. -/
structure Unlinked (c c' : PathCache) (gone : Text → Prop) : Prop where
  sound : Sound c'
  entries : ∀ q i, c'.pathToInode.lookup q = some i ↔ c.pathToInode.lookup q = some i ∧ ¬ gone q
  counts : ∀ i, c'.aliases i ≠ [] → c'.lookupCounts.lookup i = c.lookupCounts.lookup i

theorem unlinked_unlinkEntry (h : Sound c) (hEntry : c.pathToInode.lookup entry.2 = some entry.1) :
    Unlinked c (c.unlinkEntry entry) (· = entry.2) := by
  refine ⟨sound_unlinkEntry h hEntry, fun q i => ?_, fun i hSome => ?_⟩
  · rw [lookup_unlinkEntry]
    by_cases hq : q = entry.2 <;> simp [hq]
  · rw [counts_unlinkEntry, if_neg fun hBoth => hSome hBoth.2]

theorem Unlinked.has_path {gone : Text → Prop} (h : Sound c) (hUnlinked : Unlinked c c' gone)
    {i : Nat} (hSome : c'.aliases i ≠ []) : c.aliases i ≠ [] := by
  obtain ⟨path, hPath⟩ := hUnlinked.sound.has_path_iff.mp hSome
  exact h.has_path_iff.mpr ⟨path, ((hUnlinked.entries path i).mp hPath).1⟩

/-- Entries of distinct paths leave one after the other, in any order. -/
theorem foldl_unlink_effect {entries : List (Nat × Text)} (h : Sound c)
    (hDistinct : entries.Pairwise (fun e e' => e.2 ≠ e'.2))
    (hEntries : ∀ e ∈ entries, c.pathToInode.lookup e.2 = some e.1) :
    Unlinked c (entries.foldl unlinkEntry c) (fun q => ∃ e ∈ entries, q = e.2) := by
  induction entries generalizing c with
  | nil => exact ⟨h, fun q i => by simp, fun _ _ => rfl⟩
  | cons entry rest ih =>
    obtain ⟨hHead, hRest⟩ := pairwise_cons.mp hDistinct
    have hFirst := unlinked_unlinkEntry h (hEntries entry (.head _))
    have hThen := ih hFirst.sound hRest (fun e he => by
      rw [lookup_unlinkEntry, if_neg (hHead e he).symm]
      exact hEntries e (.tail _ he))
    refine ⟨hThen.sound, fun q i => ?_, fun i hSome => ?_⟩
    · rw [foldl_cons, hThen.entries, hFirst.entries, and_assoc]
      simp only [mem_cons, exists_eq_or_imp, not_or]
    · rw [foldl_cons, hThen.counts i hSome]
      exact hFirst.counts i (hThen.has_path hFirst.sound hSome)

theorem unlinked_removePath (h : Sound c) {path : Text} (hPath : ¬ (path = [] ∨ path = rootPath)) :
    Unlinked c (c.removePath path) (fun q => pathIsInSubtree q path = true) := by
  have hMem {e : Nat × Text} : e ∈ c.pathsInSubtree path ↔ _ :=
    mem_pathsInSubtree (not_or.mp hPath).1
  have hEffect := foldl_unlink_effect h (pathsInSubtree_distinct c path)
    fun e he => (hMem.mp he).1
  rw [removePath, if_neg hPath]
  refine ⟨hEffect.sound, fun q i => ?_, hEffect.counts⟩
  rw [hEffect.entries]
  refine and_congr_right fun hEntry => not_congr ⟨?_, fun hIn => ?_⟩
  · rintro ⟨e, he, rfl⟩
    exact (hMem.mp he).2
  · exact ⟨(i, q), hMem.mpr ⟨hEntry, hIn⟩, rfl⟩

theorem sound_removePath (h : Sound c) (path : Text) : Sound (c.removePath path) := by
  by_cases hPath : path = [] ∨ path = rootPath
  · rw [removePath, if_pos hPath]
    exact h
  · exact (unlinked_removePath h hPath).sound

/-! ## Moving an entry -/

theorem aliases_moveEntry (c : PathCache) (oldPath newPath : Text) (entry : Nat × Text)
    (other : Nat) :
    (c.moveEntry oldPath newPath entry).aliases other =
      if other = entry.1 then
        PathSet.insert ((c.aliases other).filter (· != entry.2)) (renamed oldPath newPath entry.2)
      else c.aliases other := by
  rw [moveEntry, aliases_link, aliases_detach, aliases_detach, if_pos rfl]
  split
  · rename_i hOther
    rw [hOther]
    rfl
  · rfl

theorem counts_moveEntry (c : PathCache) (oldPath newPath : Text) (entry : Nat × Text) :
    (c.moveEntry oldPath newPath entry).lookupCounts = c.lookupCounts := by
  rw [moveEntry, link, counts_detach]

/-- An entry moves to a place that is free. -/
theorem sound_moveEntry (h : Sound c) {oldPath newPath : Text}
    (hEntry : c.pathToInode.lookup entry.2 = some entry.1)
    (hFree : c.pathToInode.lookup (renamed oldPath newPath entry.2) = none) :
    Sound (c.moveEntry oldPath newPath entry) := by
  refine ⟨fun q j => ?_, fun j => ?_, fun j => ?_, fun j => ?_⟩
  · rw [lookup_moveEntry, aliases_moveEntry]
    have hOld := h.entry q j
    grind [mem_insert]
  · refine full_link (fun i => ?_) _ _ j
    rw [detach_inodeToPaths]
    exact full_detach h.full entry.1 entry.2 i
  · rw [aliases_moveEntry]
    split
    · exact ((h.ordered j).filter _).insert _
    · exact h.ordered j
  · rw [counts_moveEntry, aliases_moveEntry]
    have hCounted := h.counted j
    grind [insert_ne_nil]

end PathCache

end FabricFs.Client
