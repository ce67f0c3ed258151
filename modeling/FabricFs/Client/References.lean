import FabricFs.Lib.Runs
import FabricFs.Client.Rename

/-!
# Kernel references and the client cache

The kernel holds references to inodes: a lookup takes one, a forget returns some. The
cache counts them per inode in 64 bits, and an inode without references loses its paths.
A ledger runs beside the cache and keeps, for each inode, the lookups counted less the
forgets since the inode last gained its first path.

* `consistent_run`: in every run the tables fit together, the root is inode 1, and the
  counts are those of the ledger.
* `referenced_inode_stays`: an inode with references keeps a path until a delete, a
  rename over it, a replacement or a resync takes its last one, and a forget of the last
  reference removes exactly its paths. The ledger stops at the largest 64-bit number.
* `saturated_count_loses_reference`: without that stop the inode is lost too early.
-/

namespace FabricFs.Client

open Lib Protocol Runs

/-- The path of an entry below the root. -/
abbrev EntryPath : Type := { path : Text // path ≠ rootPath }

/-- `child_path` yields such paths, and lookups store at no others. -/
theorem joinChildPath_ne_root {parentPath name : Text}
    (hName : PathCache.validateChildName name = .ok ()) :
    PathCache.joinChildPath parentPath name ≠ rootPath := by
  have hSome : name ≠ [] := by
    rintro rfl
    cases hName
  unfold PathCache.joinChildPath
  intro hRoot
  split at hRoot
  · exact hSome (List.cons.inj hRoot).2
  · have hLength := congrArg List.length hRoot
    have hPos := List.length_pos_iff.mpr hSome
    rw [List.length_append, List.length_cons] at hLength
    change _ = 1 at hLength
    omega

/-- Creates come from checked invalidations. -/
theorem createPath_ne_root {invalidation : Invalidation}
    (hValid : validateInvalidation invalidation = .ok ())
    (hKind : InvalidationKind.ofWire invalidation.kind = .ok .create) :
    invalidation.path ≠ rootPath := by
  obtain ⟨-, hRest⟩ := check_bind_eq_ok.mp hValid
  rw [hKind] at hRest
  obtain ⟨hPath, -⟩ := check_bind_eq_ok.mp hRest
  obtain ⟨-, hRoot⟩ := check_bind_eq_ok.mp hPath
  simpa [require_eq_ok] using hRoot

/-- What can happen to the cache. -/
inductive CacheStep where
  | lookup (path : EntryPath) (inode count : Nat)
  | create (path : EntryPath) (inode : Nat)
  | forget (inode nlookup : Nat)
  | rename (oldPath newPath : Text)
  | delete (path : Text)
  | resync (sequence : Nat)

namespace CacheStep

def apply : CacheStep → PathCache → PathCache
  | lookup path inode count, c => c.insertLookup path.1 inode count
  | create path inode, c => if inode = 0 then c.removePath path.1 else c.insert path.1 inode
  | forget inode nlookup, c => c.forget inode nlookup
  | rename oldPath newPath, c => (c.rename oldPath newPath).2
  | delete path, c => c.removePath path
  | resync sequence, c => c.resetWithSequence sequence

/-- The references of an inode that a step takes or returns. -/
def tally (bound : Int → Int) (inode : Nat) (start : Int) : CacheStep → Int
  | lookup _ i count => if i = inode then bound (start + count) else start
  | forget i nlookup => if i = inode then start - nlookup else start
  | _ => start

/-- A delete, a rename over it, a replacement or a resync takes the last path of an inode. -/
def TakesLastPath (c : PathCache) (inode : Nat) : CacheStep → Prop
  | lookup path i _ => i ≠ 0 ∧ i ≠ inode ∧ ∀ q ∈ c.aliases inode, q = path.1
  | create path i =>
    if i = 0 then ∀ q ∈ c.aliases inode, pathIsInSubtree q path.1 = true
    else i ≠ inode ∧ ∀ q ∈ c.aliases inode, q = path.1
  | delete path => ∀ q ∈ c.aliases inode, pathIsInSubtree q path = true
  | rename oldPath newPath =>
    validateRenamePaths oldPath newPath = .ok () ∧
      ∀ q ∈ c.aliases inode, pathIsInSubtree q newPath = true
  | resync _ => True
  | forget .. => False

end CacheStep

/-- The cache and, for each inode, its references since it last gained its first path. -/
structure Ledger where
  cache : PathCache
  balance : Nat → Int

namespace Ledger

/-- One step of cache and ledger. -/
def step (bound : Int → Int) (s : CacheStep) (l : Ledger) : Ledger where
  cache := s.apply l.cache
  balance inode := s.tally bound inode (if l.cache.aliases inode = [] then 0 else l.balance inode)

theorem step_balance (bound : Int → Int) (s : CacheStep) (l : Ledger) (inode : Nat) :
    (l.step bound s).balance inode =
      s.tally bound inode (if l.cache.aliases inode = [] then 0 else l.balance inode) := rfl

/-- Nothing has happened. -/
def start : Ledger := ⟨PathCache.new, fun _ => 0⟩

end Ledger

/-- A balance that is kept in 64 bits. -/
def capped (balance : Int) : Int := min balance u64Max

namespace PathCache

/-! ## What the steps do to a sound cache -/

/-- Every inode that has a path had one before, with the same count. -/
structure Shrunk (c c' : PathCache) : Prop where
  sound : Sound c'
  before : ∀ i, c'.aliases i ≠ [] → c.aliases i ≠ []
  counts : ∀ i, c'.aliases i ≠ [] → c'.lookupCounts.lookup i = c.lookupCounts.lookup i

theorem Unlinked.shrunk {c c' : PathCache} {gone : Text → Prop} (h : Sound c)
    (hUnlinked : Unlinked c c' gone) : Shrunk c c' :=
  ⟨hUnlinked.sound, fun _ hSome => hUnlinked.has_path h hSome, hUnlinked.counts⟩

theorem shrunk_removePath {c : PathCache} (h : Sound c) (path : Text) :
    Shrunk c (c.removePath path) := by
  by_cases hPath : path = [] ∨ path = rootPath
  · rw [removePath, if_pos hPath]
    exact ⟨h, fun _ hSome => hSome, fun _ _ => rfl⟩
  · exact (unlinked_removePath h hPath).shrunk h

theorem Moved.shrunk {oldPath newPath : Text} {c c' : PathCache} (h : Sound c)
    (hMoved : Moved oldPath newPath c c') : Shrunk c c' := by
  refine ⟨hMoved.sound, fun i hSome => ?_, hMoved.counts⟩
  obtain ⟨q, hq⟩ := hMoved.sound.has_path_iff.mp hSome
  refine h.has_path_iff.mpr ?_
  rcases (hMoved.entries q i).mp hq with ⟨rest, -, -, hOld⟩ | ⟨hOld, -⟩
  · exact ⟨_, hOld⟩
  · exact ⟨q, hOld⟩

theorem shrunk_rename {c : PathCache} (h : Sound c) (oldPath newPath : Text) :
    Shrunk c (c.rename oldPath newPath).2 := by
  cases hValid : validateRenamePaths oldPath newPath with
  | error e =>
    simp only [rename, hValid]
    exact ⟨h, fun _ hSome => hSome, fun _ _ => rfl⟩
  | ok _ => exact (moved_rename h hValid).shrunk h

theorem aliases_cleared (c : PathCache) {inode : Nat} (hInode : inode ≠ 1) :
    c.cleared.aliases inode = [] := by
  by_contra hSome
  obtain ⟨path, hPath⟩ := (sound_cleared c).has_path_iff.mp hSome
  exact hInode (lookup_cleared hPath).2

theorem root_cleared (c : PathCache) : c.cleared.pathToInode.lookup rootPath = some 1 := by
  rw [cleared, lookup_insert_eq _ _ _ Nat.one_ne_zero, if_pos rfl]

/-- A forget that leaves references changes one count. -/
theorem forget_of_lt {c : PathCache} {inode nlookup count : Nat} (hInode : inode ≠ 1)
    (hSome : nlookup ≠ 0) (hCount : c.lookupCounts.lookup inode = some count)
    (hLess : nlookup < count) : c.forget inode nlookup =
      { c with lookupCounts := c.lookupCounts.insert inode (count - nlookup) } := by
  unfold forget
  rw [if_neg (by simp [hInode, hSome])]
  simp only [hCount]
  rw [if_pos hLess]

/-- A forget of all references removes the inode. -/
theorem forget_of_le {c : PathCache} {inode nlookup : Nat} (hInode : inode ≠ 1)
    (hSome : nlookup ≠ 0) (hCount : (c.lookupCounts.lookup inode).getD 0 ≤ nlookup) :
    Same (c.removeInode inode) (c.forget inode nlookup) := by
  unfold forget
  rw [if_neg (by simp [hInode, hSome])]
  cases hLookup : c.lookupCounts.lookup inode with
  | none => exact ⟨fun _ => rfl, fun _ => rfl, fun _ => rfl, .refl _⟩
  | some count =>
    rw [hLookup, Option.getD_some] at hCount
    simp only
    rw [if_neg (Nat.not_lt.mpr hCount)]
    refine ⟨fun path => ?_, fun i => ?_, fun i => ?_, ?_⟩
    · rw [lookup_removeInode_eq _ hInode, lookup_removeInode_eq _ hInode]
      rfl
    · simp only [removeInode, if_neg hInode]
    · rw [counts_removeInode _ hInode, counts_removeInode _ hInode]
      split
      · rfl
      · rename_i hNe
        simp only [Dict.lookup_erase_eq, if_neg hNe]
    · simp only [removeInode, if_neg hInode]
      exact ⟨rfl, rfl⟩

theorem counts_addLookup {c : PathCache} {inode : Nat} (hZero : inode ≠ 0) (hInode : inode ≠ 1)
    (hSet : c.inodeToPaths.lookup inode ≠ none)
    (hSmall : ∀ n, c.lookupCounts.lookup inode = some n → n ≤ u64Max) (count : Nat) :
    ((c.addLookup inode count).lookupCounts.lookup inode).getD 0 =
      min ((c.lookupCounts.lookup inode).getD 0 + count) u64Max := by
  unfold addLookup
  by_cases hCount : count = 0
  · rw [if_pos (.inr (.inr (.inl hCount))), hCount, Nat.add_zero]
    cases hLookup : c.lookupCounts.lookup inode with
    | none => rfl
    | some n => exact (Nat.min_eq_left (hSmall n hLookup)).symm
  · rw [if_neg (by simp [hZero, hInode, hCount, hSet])]
    simp only [Dict.lookup_insert_eq, if_true, Option.getD_some]
    rfl

theorem counts_addLookup_ne (c : PathCache) (inode count : Nat) {other : Nat}
    (hOther : other ≠ inode) :
    (c.addLookup inode count).lookupCounts.lookup other = c.lookupCounts.lookup other := by
  unfold addLookup
  split
  · rfl
  · simp only [Dict.lookup_insert_eq, if_neg hOther]

theorem Same.aliases {c c' : PathCache} (h : Same c c') (inode : Nat) :
    c'.aliases inode = c.aliases inode := by
  rw [PathCache.aliases, PathCache.aliases, h.sets]

theorem shrunk_removeInode {c : PathCache} (h : Sound c) {inode : Nat} (hInode : inode ≠ 1) :
    Shrunk c (c.removeInode inode) := by
  refine ⟨sound_removeInode h inode, fun i hSome => ?_, fun i hSome => ?_⟩
  all_goals
    rw [aliases_removeInode c hInode] at hSome
    split at hSome
    · exact absurd rfl hSome
  · exact hSome
  · rename_i hNe
    rw [counts_removeInode c hInode, if_neg hNe]

/-- A forget does nothing, lowers one count or removes one inode. -/
theorem forget_cases (c : PathCache) (inode nlookup : Nat) :
    c.forget inode nlookup = c ∧ (inode = 1 ∨ nlookup = 0) ∨
    (∃ count, inode ≠ 1 ∧ c.lookupCounts.lookup inode = some count ∧ nlookup < count ∧
      c.forget inode nlookup =
        { c with lookupCounts := c.lookupCounts.insert inode (count - nlookup) }) ∨
    inode ≠ 1 ∧ (c.lookupCounts.lookup inode).getD 0 ≤ nlookup ∧
      Same (c.removeInode inode) (c.forget inode nlookup) := by
  by_cases hNothing : inode = 1 ∨ nlookup = 0
  · exact .inl ⟨by rw [forget, if_pos hNothing], hNothing⟩
  obtain ⟨hInode, hSome⟩ := not_or.mp hNothing
  by_cases hLess : nlookup < (c.lookupCounts.lookup inode).getD 0
  · cases hCount : c.lookupCounts.lookup inode with
    | none =>
      rw [hCount] at hLess
      exact absurd hLess (Nat.not_lt_zero _)
    | some count =>
      rw [hCount] at hLess
      exact .inr (.inl ⟨count, hInode, rfl, hLess, forget_of_lt hInode hSome hCount hLess⟩)
  · exact .inr (.inr ⟨hInode, Nat.not_lt.mp hLess,
      forget_of_le hInode hSome (Nat.not_lt.mp hLess)⟩)

/-! ## The invariant of every run -/

/-- What holds of the cache in every run. -/
structure Consistent (c : PathCache) : Prop where
  sound : Sound c
  root : c.pathToInode.lookup rootPath = some 1
  healthy : c.poisoned = false
  zero : c.aliases 0 = []
  small : ∀ i n, c.lookupCounts.lookup i = some n → n ≤ u64Max

theorem Shrunk.consistent {c c' : PathCache} (h : Consistent c) (hShrunk : Shrunk c c')
    (hRoot : c'.pathToInode.lookup rootPath = some 1) (hMark : SameMark c c') :
    Consistent c' := by
  refine ⟨hShrunk.sound, hRoot, hMark.1.trans h.healthy, ?_, fun i n hCount => ?_⟩
  · by_contra hSome
    exact hShrunk.before 0 hSome h.zero
  · have hSome := hShrunk.sound.counted i (by rw [hCount]; exact Option.some_ne_none n)
    rw [hShrunk.counts i hSome] at hCount
    exact h.small i n hCount

theorem consistent_insert {c : PathCache} (h : Consistent c) (path : EntryPath) (inode : Nat) :
    Consistent (c.insert path.1 inode) := by
  by_cases hInode : inode = 0
  · rw [insert, if_pos hInode]
    exact h
  refine ⟨sound_insert h.sound _ _, ?_, (sameMark_insert _ _ c).1.trans h.healthy, ?_, ?_⟩
  · rw [lookup_insert_eq c _ _ hInode, if_neg path.2.symm]
    exact h.root
  · rw [aliases_insert h.sound _ hInode, if_neg (Ne.symm hInode), h.zero]
    rfl
  · intro i n hCount
    rw [counts_insert h.sound _ hInode] at hCount
    split at hCount
    · cases hCount
    · exact h.small i n hCount

theorem aliases_addLookup (c : PathCache) (inode count other : Nat) :
    (c.addLookup inode count).aliases other = c.aliases other := by
  rw [aliases, (addLookup_tables c inode count).2]
  rfl

theorem consistent_addLookup {c : PathCache} (h : Consistent c) (inode count : Nat) :
    Consistent (c.addLookup inode count) := by
  refine ⟨sound_addLookup h.sound _ _, ?_, ?_, ?_, ?_⟩
  · rw [(addLookup_tables c inode count).1]
    exact h.root
  · unfold addLookup
    split <;> exact h.healthy
  · rw [aliases_addLookup]
    exact h.zero
  · intro i n hCount
    unfold addLookup at hCount
    split at hCount
    · exact h.small i n hCount
    · simp only [Dict.lookup_insert_eq] at hCount
      split at hCount
      · rw [← Option.some.inj hCount]
        exact Nat.min_le_right _ _
      · exact h.small i n hCount

theorem consistent_removePath {c : PathCache} (h : Consistent c) (path : Text) :
    Consistent (c.removePath path) := by
  by_cases hPath : path = [] ∨ path = rootPath
  · rw [removePath, if_pos hPath]
    exact h
  refine (shrunk_removePath h.sound path).consistent h ?_ (sameMark_removePath path c)
  refine ((unlinked_removePath h.sound hPath).entries _ _).mpr ⟨h.root, fun hIn => hPath ?_⟩
  obtain ⟨rest, -, hEq⟩ := inSubtree_iff.mp hIn
  rcases List.append_eq_singleton_iff.mp hEq.symm with ⟨hNil, -⟩ | ⟨hOne, -⟩
  · exact .inl hNil
  · exact .inr hOne

theorem consistent_rename {c : PathCache} (h : Consistent c) (oldPath newPath : Text) :
    Consistent (c.rename oldPath newPath).2 := by
  refine (shrunk_rename h.sound oldPath newPath).consistent h ?_ (sameMark_rename oldPath newPath c)
  cases hValid : validateRenamePaths oldPath newPath with
  | error e =>
    simp only [rename, hValid]
    exact h.root
  | ok _ =>
    obtain ⟨⟨hOld, hOldRoot⟩, ⟨hNew, hNewRoot⟩, -⟩ := validateRenamePaths_eq_ok.mp hValid
    refine ((moved_rename h.sound hValid).entries _ _).mpr (.inr ⟨h.root, ?_, ?_⟩)
    · exact root_not_inSubtree hOld hOldRoot
    · exact root_not_inSubtree hNew hNewRoot

theorem consistent_forget {c : PathCache} (h : Consistent c) (inode nlookup : Nat) :
    Consistent (c.forget inode nlookup) := by
  rcases forget_cases c inode nlookup with
    ⟨hSame, -⟩ | ⟨count, -, hCount, -, hLess⟩ | ⟨hInode, -, hSame⟩
  · rw [hSame]
    exact h
  · have hSound := sound_forget h.sound inode nlookup
    rw [hLess] at hSound ⊢
    refine ⟨hSound, h.root, h.healthy, h.zero, fun i n hn => ?_⟩
    simp only [Dict.lookup_insert_eq] at hn
    split at hn
    · have hSmall := h.small inode count hCount
      have hEq := Option.some.inj hn
      omega
    · exact h.small i n hn
  · have hShrunk := shrunk_removeInode h.sound hInode
    have hKept : Shrunk c (c.forget inode nlookup) := by
      refine ⟨sound_forget h.sound _ _, fun i hSome => ?_, fun i hSome => ?_⟩
      all_goals rw [hSame.aliases] at hSome
      · exact hShrunk.before i hSome
      · rw [hSame.counts]
        exact hShrunk.counts i hSome
    refine hKept.consistent h ?_ (sameMark_forget inode nlookup c)
    rw [hSame.entries, lookup_removeInode_eq c hInode, if_neg]
    · exact h.root
    · intro hRoot
      have hOne := (h.sound.entry rootPath inode).mpr hRoot
      rw [h.root] at hOne
      exact hInode (Option.some.inj hOne).symm

theorem consistent_cleared {c : PathCache} (hHealthy : c.poisoned = false) :
    Consistent c.cleared := by
  refine ⟨sound_cleared c, root_cleared c, ?_, aliases_cleared c Nat.zero_ne_one, ?_⟩
  · exact (sameMark_cleared c).1.trans hHealthy
  · intro i n hCount
    cases hCount

theorem consistent_apply {c : PathCache} (h : Consistent c) (s : CacheStep) :
    Consistent (s.apply c) := by
  cases s with
  | lookup path inode count => exact consistent_addLookup (consistent_insert h path inode) _ _
  | create path inode =>
    change Consistent (if inode = 0 then _ else _)
    split
    · exact consistent_removePath h path.1
    · exact consistent_insert h path inode
  | forget inode nlookup => exact consistent_forget h inode nlookup
  | rename oldPath newPath => exact consistent_rename h oldPath newPath
  | delete path => exact consistent_removePath h path
  | resync sequence => exact consistent_cleared rfl

/-! ## When an inode keeps a path -/

/-- An answer for the inode is found. -/
def Resolvable (c : PathCache) (inode : Nat) : Prop := ∃ path, c.pathForInode inode = .ok path

theorem resolvable_iff {c : PathCache} (h : Consistent c) {inode : Nat} :
    Resolvable c inode ↔ c.aliases inode ≠ [] := by
  unfold Resolvable pathForInode representativePath
  rw [h.healthy]
  simp only [Bool.false_eq_true, if_false]
  rw [lookup_eq_of_full h.sound.full]
  cases hAliases : c.aliases inode with
  | nil => simp [found]
  | cons path rest => simp [found]

theorem stays_insert {c : PathCache} (h : Sound c) {path : Text} {inode i : Nat}
    (hSome : c.aliases i ≠ [])
    (hKeep : ¬ (inode ≠ 0 ∧ inode ≠ i ∧ ∀ q ∈ c.aliases i, q = path)) :
    (c.insert path inode).aliases i ≠ [] := by
  by_cases hInode : inode = 0
  · rw [insert, if_pos hInode]
    exact hSome
  rw [aliases_insert h path hInode]
  split
  · exact List.ne_nil_of_mem (PathSet.mem_insert.mpr (.inl rfl))
  · rename_i hNe
    obtain ⟨q, hq, hOther⟩ : ∃ q ∈ c.aliases i, q ≠ path := by
      by_contra hAll
      push Not at hAll
      exact hKeep ⟨hInode, Ne.symm hNe, hAll⟩
    exact List.ne_nil_of_mem (List.mem_filter.mpr ⟨hq, bne_iff_ne.mpr hOther⟩)

theorem stays_removePath {c : PathCache} (h : Sound c) {path : Text} {i : Nat}
    (hSome : c.aliases i ≠ []) (hKeep : ¬ ∀ q ∈ c.aliases i, pathIsInSubtree q path = true) :
    (c.removePath path).aliases i ≠ [] := by
  by_cases hPath : path = [] ∨ path = rootPath
  · rw [removePath, if_pos hPath]
    exact hSome
  have hUnlinked := unlinked_removePath h hPath
  push Not at hKeep
  obtain ⟨q, hq, hOut⟩ := hKeep
  exact hUnlinked.sound.has_path_iff.mpr
    ⟨q, (hUnlinked.entries q i).mpr ⟨(h.entry q i).mpr hq, hOut⟩⟩

theorem stays_rename {c : PathCache} (h : Sound c) {oldPath newPath : Text} {i : Nat}
    (hSome : c.aliases i ≠ [])
    (hKeep : ¬ (validateRenamePaths oldPath newPath = .ok () ∧
      ∀ q ∈ c.aliases i, pathIsInSubtree q newPath = true)) :
    (c.rename oldPath newPath).2.aliases i ≠ [] := by
  cases hValid : validateRenamePaths oldPath newPath with
  | error e =>
    simp only [rename, hValid]
    exact hSome
  | ok _ =>
    have hMoved := moved_rename h hValid
    push Not at hKeep
    obtain ⟨q, hq, hOut⟩ := hKeep hValid
    have hEntry := (h.entry q i).mpr hq
    refine hMoved.sound.has_path_iff.mpr ?_
    by_cases hIn : pathIsInSubtree q oldPath = true
    · obtain ⟨rest, hRest, rfl⟩ := inSubtree_iff.mp hIn
      exact ⟨newPath ++ rest, (hMoved.entries _ i).mpr (.inl ⟨rest, hRest, rfl, hEntry⟩)⟩
    · refine ⟨q, (hMoved.entries q i).mpr (.inr ⟨hEntry, ?_, ?_⟩)⟩
      · exact Bool.eq_false_iff.mpr hIn
      · exact Bool.eq_false_iff.mpr hOut

/-- A forget takes the paths of no inode but its own, and those only with the last
reference. -/
theorem stays_forget {c : PathCache} {inode nlookup i : Nat} (hSome : c.aliases i ≠ [])
    (hKeep : inode = i → inode ≠ 1 → nlookup < (c.lookupCounts.lookup i).getD 0) :
    (c.forget inode nlookup).aliases i ≠ [] := by
  rcases forget_cases c inode nlookup with ⟨hSame, -⟩ | ⟨_, -, -, -, hLess⟩ | ⟨hInode, hLe, hSame⟩
  · rw [hSame]
    exact hSome
  · rw [hLess]
    exact hSome
  · rw [hSame.aliases, aliases_removeInode c hInode, if_neg]
    · exact hSome
    · rintro rfl
      exact absurd (hKeep rfl hInode) (Nat.not_lt.mpr hLe)

end PathCache

/-! ## The ledger -/

namespace Ledger

open PathCache

/-- The counts of the cache are the balances. -/
def Balanced (l : Ledger) : Prop :=
  ∀ i, i ≠ 1 → l.cache.aliases i ≠ [] →
    l.balance i = ((l.cache.lookupCounts.lookup i).getD 0 : Nat)

/-- What a step starts from is the count, which is missing without a path. -/
theorem Balanced.before {l : Ledger} (h : Balanced l) (hCache : Consistent l.cache) {i : Nat}
    (hInode : i ≠ 1) : (if l.cache.aliases i = [] then 0 else l.balance i) =
      ((l.cache.lookupCounts.lookup i).getD 0 : Nat) := by
  split
  · rename_i hNil
    have hNone : l.cache.lookupCounts.lookup i = none := by
      by_contra hCount
      exact hCache.sound.counted i hCount hNil
    rw [hNone]
    rfl
  · rename_i hSome
    exact h i hInode hSome

/-- Storing a path changes no count of an inode that has a path then. -/
theorem counts_insert_of_path {c : PathCache} (h : Sound c) {path : Text} {inode i : Nat}
    (hSome : (c.insert path inode).aliases i ≠ []) :
    (c.insert path inode).lookupCounts.lookup i = c.lookupCounts.lookup i := by
  by_cases hZero : inode = 0
  · rw [PathCache.insert, if_pos hZero]
  · rw [counts_insert h _ hZero, if_neg]
    rintro ⟨hNe, hNil⟩
    rw [aliases_insert h _ hZero, if_neg hNe] at hSome
    exact hSome hNil

theorem balanced_lookup {l : Ledger} (hCache : Consistent l.cache) {path : EntryPath}
    {inode count i : Nat} (hInode : i ≠ 1)
    (hSome : (l.cache.insertLookup path.1 inode count).aliases i ≠ []) :
    (CacheStep.lookup path inode count).tally capped i
        ((l.cache.lookupCounts.lookup i).getD 0 : Nat) =
      (((l.cache.insertLookup path.1 inode count).lookupCounts.lookup i).getD 0 : Nat) := by
  have hInsert := consistent_insert hCache path inode
  rw [insertLookup, aliases_addLookup] at hSome
  have hCounts := counts_insert_of_path hCache.sound hSome
  simp only [CacheStep.tally]
  split
  · rename_i hi
    subst hi
    have hZero : inode ≠ 0 := by
      rintro rfl
      exact hSome hInsert.zero
    have hSet : (l.cache.insert path.1 inode).inodeToPaths.lookup inode ≠ none := by
      intro hNone
      rw [aliases, hNone] at hSome
      exact hSome rfl
    rw [insertLookup, counts_addLookup hZero hInode hSet (hInsert.small inode) count, hCounts]
    simp only [capped]
    omega
  · rename_i hi
    rw [insertLookup, counts_addLookup_ne _ _ _ (Ne.symm hi), hCounts]

theorem balanced_forget {c : PathCache} {inode nlookup i : Nat} (hInode : i ≠ 1)
    (hSome : (c.forget inode nlookup).aliases i ≠ []) :
    (CacheStep.forget inode nlookup).tally capped i ((c.lookupCounts.lookup i).getD 0 : Nat) =
      (((c.forget inode nlookup).lookupCounts.lookup i).getD 0 : Nat) := by
  simp only [CacheStep.tally]
  rcases forget_cases c inode nlookup with
    ⟨hSame, hNothing⟩ | ⟨count, -, hCount, hLt, hLess⟩ | ⟨hForgotten, -, hSame⟩
  · rw [hSame]
    split
    · rename_i hi
      subst hi
      rw [hNothing.resolve_left hInode]
      omega
    · rfl
  · rw [hLess]
    simp only [Dict.lookup_insert_eq]
    split
    · rename_i hi
      subst hi
      rw [if_pos rfl, hCount, Option.getD_some, Option.getD_some]
      omega
    · rename_i hi
      rw [if_neg (Ne.symm hi)]
  · rw [hSame.aliases, aliases_removeInode c hForgotten] at hSome
    split at hSome
    · exact absurd rfl hSome
    · rename_i hi
      rw [if_neg (Ne.symm hi), hSame.counts, counts_removeInode c hForgotten, if_neg hi]

theorem balanced_step {l : Ledger} (h : Balanced l) (hCache : Consistent l.cache)
    (s : CacheStep) : Balanced (l.step capped s) := by
  intro i hInode hSome
  have hShrunk : ∀ {c' : PathCache}, Shrunk l.cache c' → c'.aliases i ≠ [] →
      (((l.cache.lookupCounts.lookup i).getD 0 : Nat) : Int) =
        ((c'.lookupCounts.lookup i).getD 0 : Nat) := by
    intro c' hShrunk hSome
    rw [hShrunk.counts i hSome]
  rw [step_balance, h.before hCache hInode]
  cases s with
  | lookup path inode count => exact balanced_lookup hCache hInode hSome
  | create path inode =>
    simp only [step, CacheStep.apply] at hSome ⊢
    split at hSome
    · rename_i hZero
      rw [if_pos hZero]
      exact hShrunk (shrunk_removePath hCache.sound _) hSome
    · rename_i hZero
      rw [if_neg hZero, counts_insert_of_path hCache.sound hSome]
      rfl
  | forget inode nlookup => exact balanced_forget hInode hSome
  | rename oldPath newPath => exact hShrunk (shrunk_rename hCache.sound _ _) hSome
  | delete path => exact hShrunk (shrunk_removePath hCache.sound _) hSome
  | resync sequence => exact absurd (aliases_cleared _ hInode) hSome

theorem consistent_run {bound : Int → Int} (steps : List CacheStep) {l : Ledger}
    (h : Consistent l.cache) : Consistent (run (step bound) steps l).cache :=
  run_invariant (C := fun _ _ => True) (fun s _ hCache _ => consistent_apply hCache s) h
    (along_of_forall fun _ _ => trivial)

theorem consistent_start : Consistent start.cache := consistent_cleared rfl

theorem balanced_start : Balanced start := fun _ hInode hSome =>
  absurd (aliases_cleared _ hInode) hSome

theorem balanced_run (steps : List CacheStep) {l : Ledger} (h : Balanced l)
    (hCache : Consistent l.cache) : Balanced (run (step capped) steps l) := by
  have hBoth : Balanced (run (step capped) steps l) ∧
      Consistent (run (step capped) steps l).cache :=
    run_invariant (I := fun l => Balanced l ∧ Consistent l.cache) (C := fun _ _ => True)
      (fun s _ hl _ => ⟨balanced_step hl.1 hl.2 s, consistent_apply hl.2 s⟩) ⟨h, hCache⟩
      (along_of_forall fun _ _ => trivial)
  exact hBoth.1

/-- A step that takes no last path leaves an inode with references its paths. -/
theorem stays_step {l : Ledger} (h : Balanced l) (hCache : Consistent l.cache) {s : CacheStep}
    {i : Nat} (hSome : l.cache.aliases i ≠ []) (hRefs : 0 < (l.step capped s).balance i)
    (hKeep : ¬ s.TakesLastPath l.cache i) : (s.apply l.cache).aliases i ≠ [] := by
  cases s with
  | lookup path inode count =>
    rw [CacheStep.apply, insertLookup, aliases_addLookup]
    exact stays_insert hCache.sound hSome hKeep
  | create path inode =>
    rw [CacheStep.apply]
    rw [CacheStep.TakesLastPath] at hKeep
    split
    · rename_i hZero
      rw [if_pos hZero] at hKeep
      exact stays_removePath hCache.sound hSome hKeep
    · rename_i hZero
      rw [if_neg hZero] at hKeep
      exact stays_insert hCache.sound hSome fun hTaken => hKeep hTaken.2
  | forget inode nlookup =>
    refine stays_forget hSome fun hi hInode => ?_
    subst hi
    rw [step_balance, h.before hCache hInode, CacheStep.tally, if_pos rfl] at hRefs
    omega
  | rename oldPath newPath => exact stays_rename hCache.sound hSome hKeep
  | delete path => exact stays_removePath hCache.sound hSome hKeep
  | resync sequence => exact absurd trivial hKeep

/-- A forget that returns all references removes the paths of the inode and nothing else. -/
theorem forgotten_step {l : Ledger} (h : Balanced l) (hCache : Consistent l.cache)
    {inode nlookup : Nat} (hInode : inode ≠ 1) (hSome : nlookup ≠ 0)
    (hRefs : (l.step capped (.forget inode nlookup)).balance inode ≤ 0) :
    Same (l.cache.removeInode inode) (l.cache.forget inode nlookup) := by
  refine forget_of_le hInode hSome ?_
  rw [step_balance, h.before hCache hInode, CacheStep.tally, if_pos rfl] at hRefs
  omega

/-- In every run the tables fit together and the root is inode 1. An inode with
references stays resolvable until a step takes its last path, and a forget of the last
reference removes all its paths and nothing else. -/
theorem referenced_inode_stays (before : List CacheStep) :
    let l := run (step capped) before start
    (Sound l.cache ∧ l.cache.pathToInode.lookup rootPath = some 1) ∧
    (∀ inode steps, l.cache.Resolvable inode →
      Along (step capped) (fun s l => 0 < (l.step capped s).balance inode ∧
        ¬ s.TakesLastPath l.cache inode) steps l →
      (run (step capped) steps l).cache.Resolvable inode) ∧
    (∀ inode nlookup, inode ≠ 1 → nlookup ≠ 0 →
      (l.step capped (.forget inode nlookup)).balance inode ≤ 0 →
      let c' := l.cache.forget inode nlookup
      (∀ path, c'.pathToInode.lookup path =
        if l.cache.pathToInode.lookup path = some inode then none
        else l.cache.pathToInode.lookup path) ∧
      (∀ other, c'.inodeToPaths.lookup other =
        if other = inode then none else l.cache.inodeToPaths.lookup other) ∧
      (∀ other, c'.lookupCounts.lookup other =
        if other = inode then none else l.cache.lookupCounts.lookup other) ∧
      SameMark l.cache c') := by
  intro l
  have hCache : Consistent l.cache := consistent_run before consistent_start
  have hBalanced : Balanced l := balanced_run before balanced_start consistent_start
  refine ⟨⟨hCache.sound, hCache.root⟩, fun inode steps hResolvable hAlong => ?_, ?_⟩
  · -- the invariants come along with the path of the inode
    have hEnd := run_invariant
      (I := fun l => (Balanced l ∧ Consistent l.cache) ∧ l.cache.aliases inode ≠ [])
      (fun s l hl hs => ⟨⟨balanced_step hl.1.1 hl.1.2 s, consistent_apply hl.1.2 s⟩,
        stays_step hl.1.1 hl.1.2 hl.2 hs.1 hs.2⟩)
      ⟨⟨hBalanced, hCache⟩, (resolvable_iff hCache).mp hResolvable⟩ hAlong
    exact (resolvable_iff hEnd.1.2).mpr hEnd.2
  · intro inode nlookup hInode hSome hRefs
    have hSame := forgotten_step hBalanced hCache hInode hSome hRefs
    refine ⟨fun path => ?_, fun other => ?_, fun other => ?_, ?_⟩
    · rw [hSame.entries, lookup_removeInode_eq _ hInode]
      simp only [hCache.sound.entry path inode]
    · rw [hSame.sets, removeInode, if_neg hInode]
      simp only [Dict.lookup_erase_eq]
    · rw [hSame.counts, counts_removeInode _ hInode]
    · exact sameMark_forget inode nlookup l.cache

/-- The lookup of the file `/a`. -/
def lookupFile : CacheStep := .lookup ⟨[47, 97], by decide⟩ 2 1

/-- Of two references one is returned, then both. -/
theorem referenced_inode_stays_once :
    let l := run (step capped) [lookupFile, lookupFile] start
    (run (step capped) [.forget 2 1] l).cache.Resolvable 2 ∧
      (l.cache.forget 2 2).pathToInode.lookup [47, 97] = none := by
  intro l
  obtain ⟨-, hStays, hForgotten⟩ := referenced_inode_stays [lookupFile, lookupFile]
  refine ⟨hStays 2 [.forget 2 1] ⟨[47, 97], by decide⟩ ⟨⟨by decide, id⟩, trivial⟩, ?_⟩
  exact ((hForgotten 2 2 (by decide) (by decide) (by decide)).1 [47, 97]).trans (by decide)

/-! ## Counts at their limit -/

theorem run_lookupFile (n : Nat) :
    let l := run (step id) (List.replicate n lookupFile) start
    Consistent l.cache ∧ (n ≠ 0 → l.cache.aliases 2 ≠ []) ∧
      (l.cache.lookupCounts.lookup 2).getD 0 = min n u64Max ∧
      (if l.cache.aliases 2 = [] then 0 else l.balance 2) = n := by
  induction n with
  | zero => exact ⟨consistent_start, fun h => absurd rfl h, rfl, rfl⟩
  | succ n ih =>
    rw [List.replicate_succ', run_append]
    obtain ⟨hCache, -, hCount, hBalance⟩ := ih
    set l := run (step id) (List.replicate n lookupFile) start
    have hSome : (l.cache.insert [47, 97] 2).aliases 2 ≠ [] := by
      rw [aliases_insert hCache.sound _ (by decide), if_pos rfl]
      exact List.ne_nil_of_mem (PathSet.mem_insert.mpr (.inl rfl))
    have hInsert := consistent_insert hCache ⟨[47, 97], by decide⟩ 2
    have hAfter : (lookupFile.apply l.cache).aliases 2 ≠ [] := by
      rw [lookupFile, CacheStep.apply, insertLookup, aliases_addLookup]
      exact hSome
    refine ⟨consistent_apply hCache lookupFile, fun _ => hAfter, ?_, ?_⟩
    · change ((l.cache.insertLookup [47, 97] 2 1).lookupCounts.lookup 2).getD 0 = _
      have hSet : (l.cache.insert [47, 97] 2).inodeToPaths.lookup 2 ≠ none := by
        intro hNone
        rw [aliases, hNone] at hSome
        exact hSome rfl
      rw [insertLookup, counts_addLookup (by decide) (by decide) hSet (hInsert.small 2),
        counts_insert_of_path hCache.sound hSome, hCount]
      omega
    · change (if (lookupFile.apply l.cache).aliases 2 = [] then 0
        else lookupFile.tally id 2 (if l.cache.aliases 2 = [] then 0 else l.balance 2)) = _
      rw [if_neg hAfter, hBalance]
      rfl

/-- With more references than 64 bits can count, a forget of as many as they can loses
the inode. -/
theorem lost_of_saturated {n : Nat} (hMany : u64Max < n) :
    let l := run (step id) (List.replicate n lookupFile) start
    let s := CacheStep.forget 2 u64Max
    l.cache.Resolvable 2 ∧ 0 < (l.step id s).balance 2 ∧ ¬ s.TakesLastPath l.cache 2 ∧
      ¬ (l.step id s).cache.Resolvable 2 := by
  intro l s
  obtain ⟨hCache, hSome, hCount, hBalance⟩ := run_lookupFile n
  refine ⟨(resolvable_iff hCache).mpr (hSome (Nat.ne_zero_of_lt hMany)), ?_, id, ?_⟩
  · rw [step_balance, hBalance, CacheStep.tally, if_pos rfl]
    omega
  · have hAfter : Consistent (l.step id s).cache := consistent_apply hCache s
    rw [resolvable_iff hAfter, not_not]
    have hSame : Same (l.cache.removeInode 2) (l.cache.forget 2 u64Max) := by
      refine forget_of_le (by decide) (Nat.sub_ne_zero_of_lt (by decide)) ?_
      rw [hCount]
      exact Nat.min_le_right _ _
    exact (hSame.aliases 2).trans (aliases_removeInode l.cache (by decide) 2)

/-- One reference is left by the unbounded balance, and none by the count. -/
theorem saturated_count_loses_reference :
    let l := run (step id) (List.replicate (2 ^ 64) lookupFile) start
    let s := CacheStep.forget 2 u64Max
    l.cache.Resolvable 2 ∧ 0 < (l.step id s).balance 2 ∧ ¬ s.TakesLastPath l.cache 2 ∧
      ¬ (l.step id s).cache.Resolvable 2 :=
  lost_of_saturated (Nat.sub_lt (by decide) (by decide))

end Ledger

end FabricFs.Client
